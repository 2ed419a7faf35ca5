import Schemata.Proofs.Sql.Definitions
import Schemata.Proofs.Sql.Runs
import Schemata.Sql.Store

/-! Statements that create a table if it is absent. Up to the table's name such a statement is read alike in every
    database. Then the database is asked for the table; the rest is read for a new table where there is none, and
    without effect where there is one. -/

namespace Schemata.Sql
open Statement

/-! ### Up to the list -/

namespace Reading
variable {db : Database} {r : Reading} {t : Token}

theorem run_next (q : Place) (part : Option Part) (hkind : t.kind ≠ .bad) (hpart : r.part = none)
    (hmove : r.place.nextOf t = q.goTo part) (hq : q ≠ .finished) (ts : List Token) :
    r.run db (t :: ts) = run db ⟨q, part, r.draft⟩ ts := by
  have hstep : r.step db t = .ok ⟨q, part, r.draft⟩ := by
    rw [step, beq_eq_false_iff_ne.mpr hkind, if_neg Bool.false_ne_true, hmove]
    show (r.complete db).map _ = _
    rw [complete, hpart]
    rfl
  rw [run, hstep]
  exact if_neg (by simpa using hq)

theorem run_none (hmove : r.place.nextOf t = none) (ts : List Token) :
    ∃ e, e.isRejection = true ∧ ∀ db, r.run db (t :: ts) = .error e := by
  by_cases hkind : t.kind = .bad
  · refine ⟨.unrecognized t, rfl, fun db => ?_⟩
    rw [run, step, hkind]
    rfl
  · refine ⟨.near t, rfl, fun db => ?_⟩
    rw [run, step, beq_eq_false_iff_ne.mpr hkind, if_neg Bool.false_ne_true, hmove]

end Reading

theorem run_createIfAbsent {name : Text} (hname : IsName name) (rest : Text) (db : Database) :
    Reading.start.run db (tokens (createIfAbsent name rest)) =
      Reading.run db ⟨.tableName, none, .unnamed⟩ (tokensFrom 27 (name ++ '(' :: rest)) := by
  rw [tokens_createIfAbsent hname, openingWords]
  dsimp only [List.cons_append, List.nil_append]
  rw [Reading.run_next .create none (by decide) rfl (by decide +kernel) (by decide),
    Reading.run_next .table none (by decide) rfl (by decide +kernel) (by decide),
    Reading.run_next .ifWord none (by decide) rfl (by decide +kernel) (by decide),
    Reading.run_next .ifNot none (by decide) rfl (by decide +kernel) (by decide),
    Reading.run_next .tableName none (by decide) rfl (by decide +kernel) (by decide)]
  rfl

/-! ### At the name -/

theorem Draft.apply_name {name : Text} {token : Token} (htoken : token.name? = some name) (db : Database) (d : Draft) :
    d.apply db (.name token true) =
      if isReservedName name then .error (.reservedName name)
      else if !db.readable then .error .notADatabase
      else .ok (if (db.table? name).isSome then existing else fresh ⟨name, [], []⟩ false false) := by
  rw [apply, htoken]
  dsimp only [Option.getD_some]
  cases db.table? name <;> rfl

/-- The parenthesis behind a table's name lets the name take effect. -/
theorem Reading.run_named {name : Text} {token t : Token} (ht : t.isSign "(" = true) (htoken : token.name? = some name)
    (db : Database) (ts : List Token) :
    Reading.run db ⟨.named, some (.name token true), .unnamed⟩ (t :: ts) =
      if Draft.isReservedName name then .error (.reservedName name)
      else if !db.readable then .error .notADatabase
      else Reading.run db ⟨.firstColumn, none,
        if (db.table? name).isSome then .existing else .fresh ⟨name, [], []⟩ false false⟩ ts := by
  have hkind : (t.kind == .bad) = false := by simp [(Token.isSign_iff.mp ht).1]
  have hmove : Place.named.nextOf t = Place.firstColumn.goTo := if_pos ht
  have hstep : Reading.step db ⟨.named, some (.name token true), .unnamed⟩ t =
      (Draft.unnamed.apply db (.name token true)).map (Reading.mk .firstColumn none) := by
    rw [step, hkind, if_neg Bool.false_ne_true, hmove]
    rfl
  rw [run, hstep, Draft.apply_name htoken]
  by_cases hreserved : Draft.isReservedName name = true
  · rw [if_pos hreserved, if_pos hreserved]
    rfl
  · rw [if_neg hreserved, if_neg hreserved]
    by_cases hreadable : (!db.readable) = true
    · rw [if_pos hreadable, if_pos hreadable]
      rfl
    · rw [if_neg hreadable, if_neg hreadable]
      rfl

/-- Where a name that is none in SQL stands for the table, all databases refuse the statement alike. Otherwise the
    database is asked for the table, and the list is read. -/
theorem run_name {name : Text} (hname : IsName name) (rest : Text) :
    (∃ e, e.isRejection = true ∧ ∀ db, Reading.start.run db (tokens (createIfAbsent name rest)) = .error e) ∨
      ∃ ts, definitions (createIfAbsent name rest) = definitionsFrom 0 ts ∧
        ∀ db, Reading.start.run db (tokens (createIfAbsent name rest)) =
          if !db.readable then .error .notADatabase
          else Reading.run db ⟨.firstColumn, none,
            if (db.table? name).isSome then .existing else .fresh ⟨name, [], []⟩ false false⟩ ts := by
  have hrun := run_createIfAbsent hname rest
  have hrefused : ∀ {t ts}, tokensFrom 27 (name ++ '(' :: rest) = t :: ts → t.name? = none →
      ∃ e, e.isRejection = true ∧ ∀ db, Reading.start.run db (tokens (createIfAbsent name rest)) = .error e :=
    fun {t ts} htokens ht => by
      obtain ⟨e, he, hall⟩ := Reading.run_none (r := ⟨.tableName, none, .unnamed⟩) (t := t)
        (by rw [Place.nextOf, ht]; rfl) ts
      exact ⟨e, he, fun db => by rw [hrun, htokens, hall]⟩
  rcases isPlain_or_digit hname.ne_nil (isBare_of_isName hname) with hplain | ⟨c, s, rfl, hdigit⟩
  · have htokens := tokensFrom_plain hplain (r := '(' :: rest) (Text.stops_cons.mpr (by decide)) 27
    rw [tokensFrom_sign (by simp)] at htokens
    cases hsql : (⟨.word, name, 27⟩ : Token).name? with
    | none => exact .inl (hrefused htokens hsql)
    | some name' =>
      obtain rfl : name = name' := Token.text_of_name? rfl hsql
      have hlist := fun db => (hrun db).trans (by
        rw [htokens, Reading.run_next .named _ (by simp) rfl (by rw [Place.nextOf, hsql]; rfl) (by decide),
          Reading.run_named (by simp [Token.isSign, Text.ofString_eq]) hsql])
      cases hreserved : Draft.isReservedName name with
      | true => exact .inl ⟨.reservedName name, rfl, fun db => (hlist db).trans (if_pos hreserved)⟩
      | false =>
        exact .inr ⟨_, definitions_createIfAbsent hname htokens rfl (by simp [Token.isSign, Text.ofString_eq]), fun db =>
          (hlist db).trans (if_neg (by simp [hreserved]))⟩
  · obtain ⟨t, ts, htokens, hkind⟩ := tokensFrom_digit hdigit (s ++ '(' :: rest) 27
    exact .inl (hrefused htokens (by rcases hkind with hkind | hkind <;> rw [Token.name?, hkind]))

/-! ### In a database -/

/-- The reading of the list of a new table. -/
def newTable (name : Text) : Reading := ⟨.firstColumn, none, .fresh ⟨name, [], []⟩ false false⟩

theorem beyond_newTable (name : Text) : (newTable name).Beyond := ⟨rfl, rfl⟩

/-- A table as it is stored: one named `if` cannot be read back. -/
def Table.stored (t : Table) : Except SqlError Table :=
  if Text.sameFolded t.name "if" then .error (.unreadableSchema t.name) else .ok t

theorem Table.stored_eq_ok {t t' : Table} (h : t.stored = .ok t') : t' = t := by
  unfold stored at h
  split at h <;> cases h
  rfl

/-- Where the table exists, the list is read without effect. -/
theorem Database.execute_existing {db : Database} {name sql : Text} {ts : List Token}
    (h : Reading.start.run db (tokens sql) = (newTable name).onExisting.run db ts) :
    db.execute (tokens sql) = ((newTable name).onExisting.run .empty ts).map fun _ => db := by
  have hbeyond := (beyond_newTable name).onExisting
  rw [hbeyond.run_congr db .empty] at h
  rw [execute, h]
  cases hrun : (newTable name).onExisting.run .empty ts with
  | error e => rfl
  | ok ending =>
    dsimp only
    rw [hbeyond.run_existing rfl hrun]
    rfl

/-- The table that the list makes, as it is stored. -/
def built (name : Text) (ts : List Token) : Except SqlError Table :=
  match (newTable name).run .empty ts with
  | .error e => .error e
  | .ok ending =>
    match ending.draft with
    | .fresh t _ _ => t.stored
    | _ => .error .nothing

theorem Database.execute_newTable {db : Database} {name sql : Text} {ts : List Token}
    (h : Reading.start.run db (tokens sql) = (newTable name).run db ts) :
    db.execute (tokens sql) = (built name ts).map db.insert := by
  rw [(beyond_newTable name).run_congr db .empty] at h
  rw [execute, h, built]
  cases hrun : (newTable name).run .empty ts with
  | error e => rfl
  | ok ending =>
    obtain ⟨⟨t, integer, hasKey, hdraft, -⟩, -⟩ := (beyond_newTable name).run_fresh rfl hrun
    dsimp only
    rw [hdraft]
    show db.carryOut (.fresh t integer hasKey) = _
    unfold carryOut Table.stored
    dsimp only
    split <;> rfl

theorem exists_of_built {name : Text} {ts : List Token} {t : Table} (h : built name ts = .ok t) :
    ∃ ending integer hasKey, (newTable name).run .empty ts = .ok ending ∧ ending.draft = .fresh t integer hasKey ∧
      t.name = name ∧ (newTable name).onExisting.run .empty ts = .ok { ending with draft := .existing } := by
  unfold built at h
  cases hrun : (newTable name).run .empty ts with
  | error e =>
    rw [hrun] at h
    cases h
  | ok ending =>
    obtain ⟨⟨t', integer, hasKey, hdraft, hname⟩, hexisting⟩ := (beyond_newTable name).run_fresh rfl hrun
    rw [hrun] at h
    dsimp only at h
    rw [hdraft] at h
    cases Table.stored_eq_ok h
    exact ⟨ending, integer, hasKey, rfl, hdraft, hname, hexisting⟩

/-- The outcomes of a statement that creates a table if it is absent: one where the table exists, and one where it is
    absent. -/
structure Outcomes (name rest : Text) (present : Except SqlError Unit) (absent : Except SqlError Table) : Prop where
  all : ∀ db : Database, db.execute (tokens (createIfAbsent name rest)) =
    if !db.readable then .error .notADatabase
    else if (db.table? name).isSome then present.map fun _ => db
    else absent.map db.insert
  rejection : ∀ e, present = .error e → e.isRejection = true
  accepted : ∀ t, absent = .ok t → t.name = name ∧ present = .ok ()
  /-- A table that is accepted has been read from the list. -/
  read : ∀ t, absent = .ok t → ∃ ts ending integer hasKey,
    definitions (createIfAbsent name rest) = definitionsFrom 0 ts ∧ (newTable name).run .empty ts = .ok ending ∧
      ending.draft = .fresh t integer hasKey

namespace Outcomes
variable {name rest : Text} {present : Except SqlError Unit} {absent : Except SqlError Table} {db : Database}

theorem unreadable (h : Outcomes name rest present absent) (hdb : db.readable = false) :
    db.execute (tokens (createIfAbsent name rest)) = .error .notADatabase := by
  rw [h.all, hdb]
  rfl

theorem existing (h : Outcomes name rest present absent) (hdb : db.readable = true)
    (ht : (db.table? name).isSome = true) : db.execute (tokens (createIfAbsent name rest)) = present.map fun _ => db := by
  rw [h.all, hdb, if_neg (by simp), if_pos ht]

theorem new (h : Outcomes name rest present absent) (hdb : db.readable = true) (ht : db.table? name = none) :
    db.execute (tokens (createIfAbsent name rest)) = absent.map db.insert := by
  rw [h.all, hdb, if_neg (by simp), if_neg (by simp [ht])]

end Outcomes

/-- All databases refuse a statement alike, or the statement has its outcomes by whether the table exists. -/
theorem outcomes_createIfAbsent {name : Text} (hname : IsName name) (rest : Text) :
    (∃ e, e.isRejection = true ∧ ∀ db : Database, db.execute (tokens (createIfAbsent name rest)) = .error e) ∨
      ∃ present absent, Outcomes name rest present absent := by
  rcases run_name hname rest with ⟨e, he, hall⟩ | ⟨ts, hdefinitions, hall⟩
  · refine .inl ⟨e, he, fun db => ?_⟩
    rw [Database.execute, hall]
  · refine .inr ⟨((newTable name).onExisting.run .empty ts).map fun _ => (),
      built name ts, fun db => ?_, fun e he => ?_, fun t ht => ?_, fun t ht => ?_⟩
    · cases hreadable : db.readable with
      | false =>
        rw [Database.execute, hall, hreadable]
        rfl
      | true =>
        have hrun := (hall db).trans (if_neg (by simp [hreadable]))
        rw [if_neg (by simp)]
        by_cases hexists : (db.table? name).isSome = true
        · rw [if_pos hexists] at hrun ⊢
          rw [Database.execute_existing hrun]
          cases (newTable name).onExisting.run .empty ts <;> rfl
        · rw [if_neg hexists] at hrun ⊢
          exact Database.execute_newTable hrun
    · cases hrun : (newTable name).onExisting.run .empty ts <;> rw [hrun] at he <;> cases he
      exact (beyond_newTable name).onExisting.isRejection_of_run hrun
    · obtain ⟨ending, -, -, -, -, htname, hexisting⟩ := exists_of_built ht
      refine ⟨htname, ?_⟩
      rw [hexisting]
      rfl
    · obtain ⟨ending, integer, hasKey, hrun, hdraft, -, -⟩ := exists_of_built ht
      exact ⟨ts, ending, integer, hasKey, hdefinitions, hrun, hdraft⟩

end Schemata.Sql
