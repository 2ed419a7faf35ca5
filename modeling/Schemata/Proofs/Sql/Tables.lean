import Schemata.Proofs.Materialize.Tables
import Schemata.Proofs.Sql.CreateIfAbsent

/-! The tables of a database. A statement that creates its table if it is absent does to them what is relied on of a
    store: where the table exists, its list is read without effect, and where it is absent, the list makes it. -/

namespace Schemata.Sql
open Statement

/-- A table as it is told. -/
def Table.kept (t : Table) : StoredTable :=
  ⟨t.name, t.columns, t.keys.flatMap fun k => k.rows.map Sqlite.KeyRow.foreignKey⟩

namespace Database
variable {db db' : Database} {name rest : Text} {st : Statement}

/-- The tables of a database that can be read. -/
def kept? (db : Database) : Option (List StoredTable) := if db.readable then some (db.tables.map Table.kept) else none

theorem kept?_eq_some {tables : List StoredTable} :
    db.kept? = some tables ↔ db.readable = true ∧ db.tables.map Table.kept = tables := by
  rw [kept?, Option.ite_none_right_eq_some, Option.some.injEq]

theorem hasTable_kept_iff : HasTable (db.tables.map Table.kept) name ↔ (db.table? name).isSome = true := by
  rw [table?, List.find?_isSome]
  exact ⟨fun ⟨_, hmem, hname⟩ => by
    obtain ⟨t, ht, rfl⟩ := List.mem_map.mp hmem
    exact ⟨t, ht, hname⟩, fun ⟨t, ht, hname⟩ => ⟨_, List.mem_map_of_mem ht, hname⟩⟩

theorem kept_insert_perm (db : Database) (t : Table) :
    ((db.insert t).tables.map Table.kept).Perm (t.kept :: db.tables.map Table.kept) := by
  rw [insert, List.map_append]
  exact List.perm_append_singleton _ _

/-! ### Answers -/

theorem control?_createIfAbsent (hname : IsName name) (rest : Text) :
    (Segment.first (createIfAbsent name rest)).control? = none := by
  have hfirst : ∀ sign, Token.isSign ⟨.word, "CREATE".toList, 0⟩ sign = false := fun _ => rfl
  rw [Segment.control?, Segment.body, Segment.first, tokens_createIfAbsent hname, openingWords]
  dsimp only [List.cons_append]
  rw [List.dropWhile_cons_of_neg (by rw [hfirst]; exact Bool.false_ne_true),
    List.takeWhile_cons_of_pos (by rw [hfirst]; rfl)]
  show Control.ofWord? ⟨.word, "CREATE".toList, 0⟩ = none
  decide +kernel

theorem fatalError?_classify {e : SqlError} {sql : Text} {base : Nat} :
    fatalError? (.error (e.report sql base).classify) = none ↔ e.isRejection = true := by
  cases e <;> simp [SqlError.report, SqlError.code, Sqlite.Error.classify, fatalError?, StoreError.isFatal,
    SqlError.isRejection]

theorem answer_of_execute (hname : IsName name) {result : Except SqlError Database} :
    db.execute (tokens (createIfAbsent name rest)) = result →
      connection.executeStatement db (createIfAbsent name rest) =
        match result with
        | .ok next => (.ok (), next)
        | .error e => (.error (e.report (createIfAbsent name rest) 0).classify, db) := by
  intro h
  have hcontrol := control?_createIfAbsent hname rest
  cases result with
  | ok next => exact executeStatement_ok hcontrol h
  | error e => exact executeStatement_error hcontrol h

/-- A statement that is accepted has its outcomes, in a database that can be read. -/
theorem outcomes_of_accepted (hname : IsName name)
    (answer : connection.executeStatement db (createIfAbsent name rest) = (.ok (), db')) :
    ∃ present absent, Outcomes name rest present absent ∧ db.readable = true := by
  rcases outcomes_createIfAbsent hname rest with ⟨e, -, hall⟩ | ⟨present, absent, h⟩
  · cases (answer_of_execute hname (hall db)).symm.trans answer
  · refine ⟨present, absent, h, ?_⟩
    cases hdb : db.readable with
    | false => cases (answer_of_execute hname (h.unreadable hdb)).symm.trans answer
    | true => rfl

/-- A statement that is accepted has been read from its list, wherever the table exists. -/
theorem present_of_accepted {present : Except SqlError Unit} {absent : Except SqlError Table} (hname : IsName name)
    (h : Outcomes name rest present absent)
    (answer : connection.executeStatement db (createIfAbsent name rest) = (.ok (), db')) : present = .ok () := by
  obtain ⟨-, -, -, hdb⟩ := outcomes_of_accepted hname answer
  cases ht : db.table? name with
  | some t =>
    cases hpresent : present with
    | ok u => rfl
    | error e =>
      have hexecute := h.existing hdb (by rw [ht]; rfl)
      rw [hpresent] at hexecute
      cases (answer_of_execute hname hexecute).symm.trans answer
  | none =>
    cases habsent : absent with
    | ok t => exact (h.accepted t habsent).2
    | error e =>
      have hexecute := h.new hdb ht
      rw [habsent] at hexecute
      cases (answer_of_execute hname hexecute).symm.trans answer

/-! ### The store -/

theorem answer_existing (hname : IsName name) (rest : Text) (hdb : db.readable = true)
    (ht : (db.table? name).isSome = true) :
    ∃ outcome, connection.executeStatement db (createIfAbsent name rest) = (outcome, db) ∧
      fatalError? outcome = none := by
  rcases outcomes_createIfAbsent hname rest with ⟨e, he, hall⟩ | ⟨present, absent, h⟩
  · exact ⟨_, answer_of_execute hname (hall db), fatalError?_classify.mpr he⟩
  · have hexecute := h.existing hdb ht
    cases hpresent : present with
    | ok u =>
      rw [hpresent] at hexecute
      exact ⟨_, answer_of_execute hname hexecute, rfl⟩
    | error e =>
      rw [hpresent] at hexecute
      exact ⟨_, answer_of_execute hname hexecute, fatalError?_classify.mpr (h.rejection e hpresent)⟩

theorem answer_absent (hname : IsName name) (rest : Text) :
    (∃ e : SqlError, ∀ db : Database, db.readable = true → db.table? name = none →
        connection.executeStatement db (createIfAbsent name rest) =
          (.error (e.report (createIfAbsent name rest) 0).classify, db)) ∨
      ∃ t : Table, t.name = name ∧ ∀ db : Database, db.readable = true → db.table? name = none →
        connection.executeStatement db (createIfAbsent name rest) = (.ok (), db.insert t) := by
  rcases outcomes_createIfAbsent hname rest with ⟨e, -, hall⟩ | ⟨present, absent, h⟩
  · exact .inl ⟨e, fun db _ _ => answer_of_execute hname (hall db)⟩
  · cases habsent : absent with
    | error e =>
      refine .inl ⟨e, fun db hdb ht => ?_⟩
      have hexecute := h.new hdb ht
      rw [habsent] at hexecute
      exact answer_of_execute hname hexecute
    | ok t =>
      refine .inr ⟨t, (h.accepted t habsent).1, fun db hdb ht => ?_⟩
      have hexecute := h.new hdb ht
      rw [habsent] at hexecute
      exact answer_of_execute hname hexecute

theorem table?_of_not_hasTable (h : ¬HasTable (db.tables.map Table.kept) name) : db.table? name = none := by
  cases ht : db.table? name with
  | none => rfl
  | some t => exact absurd (hasTable_kept_iff.mpr (by rw [ht]; rfl)) h

/-- What is relied on of a store holds of a database. -/
theorem store_createsIfAbsent (backend : Text) : (store backend).CreatesIfAbsent kept? where
  rejected _ _ _ _ h := eq_of_executeStatement_error h
  readable {st s s'} hst answer := by
    obtain ⟨rest, hsql⟩ := hst.sql
    rw [hsql] at answer
    obtain ⟨-, -, -, hdb⟩ := outcomes_of_accepted hst.name answer
    exact ⟨_, if_pos hdb⟩
  existing {st s tables} hst hs hhas := by
    obtain ⟨rest, hsql⟩ := hst.sql
    obtain ⟨hdb, rfl⟩ := kept?_eq_some.mp hs
    rw [hsql]
    exact answer_existing hst.name rest hdb (hasTable_kept_iff.mp hhas)
  again {st s tables r r'} hst hs hhas answer := by
    obtain ⟨rest, hsql⟩ := hst.sql
    obtain ⟨hdb, rfl⟩ := kept?_eq_some.mp hs
    rw [hsql] at answer ⊢
    obtain ⟨present, absent, h, -⟩ := outcomes_of_accepted hst.name answer
    have hexecute := h.existing hdb (hasTable_kept_iff.mp hhas)
    rw [present_of_accepted hst.name h answer] at hexecute
    exact congrArg Prod.fst (answer_of_execute hst.name hexecute)
  absent {st s s' tables message r others} hst hs hhas hr hothers answer := by
    obtain ⟨rest, hsql⟩ := hst.sql
    obtain ⟨hdb, rfl⟩ := kept?_eq_some.mp hs
    obtain ⟨hdb', rfl⟩ := kept?_eq_some.mp hr
    rw [hsql] at answer ⊢
    rcases answer_absent hst.name rest with ⟨e, hall⟩ | ⟨t, -, hall⟩
    · have hfirst := (hall s hdb (table?_of_not_hasTable hhas)).symm.trans answer
      exact ⟨message, (congrArg Prod.fst (hall r hdb' (table?_of_not_hasTable hothers))).trans
        (congrArg Prod.fst hfirst)⟩
    · cases (hall s hdb (table?_of_not_hasTable hhas)).symm.trans answer
  added {st s s' tables} hst hs hhas answer := by
    obtain ⟨rest, hsql⟩ := hst.sql
    obtain ⟨hdb, rfl⟩ := kept?_eq_some.mp hs
    rw [hsql] at answer
    rcases answer_absent hst.name rest with ⟨e, hall⟩ | ⟨t, hname, hall⟩
    · cases (hall s hdb (table?_of_not_hasTable hhas)).symm.trans answer
    · cases (hall s hdb (table?_of_not_hasTable hhas)).symm.trans answer
      exact ⟨t.kept, _, if_pos hdb, hname, kept_insert_perm s t⟩

end Database
end Schemata.Sql
