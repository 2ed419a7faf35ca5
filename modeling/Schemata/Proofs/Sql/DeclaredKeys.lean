import Schemata.Proofs.Sql.NewTable
import Schemata.Proofs.Sql.Reads
import Schemata.Proofs.Sql.Tables

/-! The keys of a table that a list makes. A list that is read to its end has been read definition by definition: that
    of a column adds no key if it refers to no other table, and the clause of a key adds just this one. -/

namespace Schemata.Sql

/-! ### Definitions of a list -/

section Definitions
variable {n : Nat} {t : Token} {ts : List Token} {d : List Token} {ds : List (List Token)}

theorem exists_of_modifyHead {l : List (List Token)} {u : Token} (h : l.modifyHead (u :: ·) = (t :: d) :: ds) :
    u = t ∧ l = d :: ds := by
  cases l with
  | nil => cases h
  | cons x l =>
    cases h
    exact ⟨rfl, rfl⟩

theorem modifyHead_ne_nil_cons {l : List (List Token)} {u : Token} : l.modifyHead (u :: ·) ≠ [] :: ds := fun h => by
  cases l <;> cases h

theorem definitionsFrom_ne_nil : ∀ (ts : List Token) (n : Nat), definitionsFrom n ts ≠ []
  | [], _ => List.cons_ne_nil _ _
  | t :: ts, n => by
    have hhead : ∀ m, (definitionsFrom m ts).modifyHead (t :: ·) ≠ [] := fun m hnil => by
      cases hds : definitionsFrom m ts with
      | nil => exact definitionsFrom_ne_nil ts m hds
      | cons d ds =>
        rw [hds] at hnil
        cases hnil
    rw [definitionsFrom]
    split
    · exact hhead _
    · split
      · split
        · exact List.cons_ne_nil _ _
        · exact hhead _
      · split
        · exact List.cons_ne_nil _ _
        · exact hhead _

/-- The first token of a definition, and the depth behind it. -/
theorem of_definitionsFrom_cons (h : definitionsFrom n ts = (t :: d) :: ds) :
    ∃ ts' m, ts = t :: ts' ∧ m + t.closes = n + t.opens ∧ (t.isSign "," = true → n ≠ 0) ∧
      definitionsFrom m ts' = d :: ds := by
  cases ts with
  | nil => cases h
  | cons u ts =>
    rw [definitionsFrom] at h
    split at h
    · rename_i hopen
      obtain ⟨rfl, hds⟩ := exists_of_modifyHead h
      obtain ⟨hopens, hcloses⟩ := Token.level_of_open hopen
      refine ⟨ts, n + 1, rfl, by rw [hopens, hcloses], fun hcomma => ?_, hds⟩
      rw [Token.isSign_of_isSign hopen (by decide +kernel)] at hcomma
      cases hcomma
    · rename_i hopen
      split at h
      · rename_i hclose
        split at h
        · cases h
        · rename_i hn
          obtain ⟨rfl, hds⟩ := exists_of_modifyHead h
          obtain ⟨hopens, hcloses⟩ := Token.level_of_close hclose
          exact ⟨ts, n - 1, rfl, by omega, fun _ => hn, hds⟩
      · rename_i hclose
        split at h
        · cases h
        · rename_i hcomma
          obtain ⟨rfl, hds⟩ := exists_of_modifyHead h
          refine ⟨ts, n, rfl, ?_, fun hsign hn => hcomma ?_, hds⟩
          · rw [Token.opens, Token.closes, if_neg hopen, if_neg hclose]
          · rw [hsign, hn]
            rfl

/-- What stands behind a definition that is at its end. -/
theorem of_definitionsFrom_nil (h : definitionsFrom n ts = [] :: ds) :
    ts = [] ∨ n = 0 ∧ ∃ t ts', ts = t :: ts' ∧
      (t.isSign ")" = true ∧ ds = [] ∨ t.isSign "," = true ∧ definitionsFrom 0 ts' = ds) := by
  cases ts with
  | nil => exact .inl rfl
  | cons u ts =>
    rw [definitionsFrom] at h
    split at h
    · exact absurd h modifyHead_ne_nil_cons
    · split at h
      · rename_i hclose
        split at h
        · rename_i hn
          exact .inr ⟨hn, u, ts, rfl, .inl ⟨hclose, (List.cons.inj h).2.symm⟩⟩
        · exact absurd h modifyHead_ne_nil_cons
      · split at h
        · rename_i hcomma
          obtain ⟨hsign, hn⟩ := Bool.and_eq_true_iff.mp hcomma
          exact .inr ⟨of_decide_eq_true hn, u, ts, rfl, .inr ⟨hsign, (List.cons.inj h).2⟩⟩
        · exact absurd h modifyHead_ne_nil_cons

end Definitions

/-! ### Steps -/

theorem Draft.key_column {t : Table} {token : Token} {column table remote : Text}
    (hcolumn : t.column? column = some column) (htable : token.name? = some table) :
    Draft.key t ⟨some [column], token, [remote]⟩ = .ok ⟨table, [(column, some remote)]⟩ := by
  simp [Draft.key, Draft.pairColumns, hcolumn, htable, Except.map]

/-- The key that a clause adds to its table. -/
def KeyClause.tableKey (k : KeyClause) : TableKey := ⟨k.table.label, [(k.column.label, some k.remote.label)]⟩

namespace Reading
variable {r next : Reading} {t : Token} {ts : List Token} {n depth : Nat} {d : List Token} {ds : List (List Token)}
  {keys : List TableKey} {names : List Text} {ending : Ending}

theorem not_run_of_not_step (h : ∀ next, r.step .empty t ≠ .ok next) : r.run .empty (t :: ts) ≠ .ok ending :=
  fun hrun => by
    rw [run] at hrun
    cases hstep : r.step .empty t with
    | error e =>
      rw [hstep] at hrun
      cases hrun
    | ok next => exact h next hstep

/-- No statement ends inside its list. -/
theorem nextOf_semicolon_of_depth (ht : t.isSign ";" = true) (hdepth : r.place.depth ≠ 0) : r.place.nextOf t = none := by
  have hne : ∀ p : Place, p.depth = 0 → r.place ≠ p := fun p hp heq => hdepth (heq ▸ hp)
  rw [Place.nextOf_semicolon ht, if_neg (hne _ rfl), if_neg (not_or.mpr ⟨hne _ rfl, hne _ rfl⟩)]

theorem exists_of_run (hr : r.Beyond) (hdepth : r.place.depth ≠ 0) (h : r.run .empty (t :: ts) = .ok ending) :
    ∃ next, r.step .empty t = .ok next ∧ next.run .empty ts = .ok ending := by
  refine exists_of_run_cons hr.coherent (eq_false_of_ne_true fun ht => ?_) h
  exact not_run_of_not_step (fun _ => not_step_of_none (nextOf_semicolon_of_depth ht hdepth)) h

theorem run_nil (hplace : r.place ≠ .statement) :
    r.run .empty [] =
      match r.place.nextOf endToken with
      | none => .error .incomplete
      | some _ => (r.complete .empty).map fun draft => ⟨draft, [], 0⟩ := by
  rw [run]
  exact if_neg (by simpa using hplace)

theorem not_run_nil (hdepth : r.place.depth ≠ 0) : r.run .empty [] ≠ .ok ending := fun h => by
  rw [run_nil fun heq => hdepth (heq ▸ rfl), nextOf_semicolon_of_depth (beq_self_eq_true _) hdepth] at h
  cases h

/-- Where no part waits, or the one that waits is continued, the draft stays as it is. -/
theorem next_of_move {p q : Place} {part part' : Option Part} {draft : Draft} {completes : Bool}
    (hstep : step .empty ⟨p, part, draft⟩ t = .ok next) (hmove : p.nextOf t = some ⟨q, part', completes⟩)
    (hkeeps : completes = true → part = none) : next = ⟨q, part', draft⟩ := by
  obtain ⟨completes', hsteps⟩ := steps_of_step hstep
  obtain ⟨hplace, hpart, rfl⟩ := Move.mk.inj (Option.some.inj (hsteps.move.symm.trans hmove))
  have hdraft : next.draft = draft := by
    have hdraft := hsteps.draft
    cases completes' with
    | false => exact hdraft
    | true =>
      obtain rfl := hkeeps rfl
      exact (Except.ok.inj hdraft).symm
  rw [← hplace, ← hpart, ← hdraft]

/-- A statement whose characters form no token somewhere is not read to its end. -/
theorem not_broken_of_run {db : Database} (hr : r.Coherent) (h : r.run db ts = .ok ending) : ¬Broken ts := by
  induction ts generalizing r with
  | nil =>
    rintro ⟨t, ht, -⟩
    cases ht
  | cons t ts ih =>
    rintro ⟨u, hu, hkind⟩
    cases hend : t.isSign ";" with
    | true =>
      rw [List.takeWhile_cons_of_neg (by simp [hend])] at hu
      cases hu
    | false =>
      rw [List.takeWhile_cons_of_pos (by simp [hend])] at hu
      obtain ⟨next, hstep, hrun⟩ := exists_of_run_cons hr hend h
      obtain ⟨completes, hsteps⟩ := steps_of_step hstep
      rcases List.mem_cons.mp hu with rfl | hu
      · exact hsteps.kind hkind
      · exact ih hsteps.sound.awaits hrun ⟨u, hu, hkind⟩

/-! ### Definitions that are read -/

/-- The reading goes on to the given end, over the given definitions of its list. -/
def Accepts (r : Reading) (depth : Nat) (ds : List (List Token)) (ending : Ending) : Prop :=
  ∃ ts, definitionsFrom depth ts = ds ∧ r.run .empty ts = .ok ending

theorem Accepts.token (h : r.Accepts n ((t :: d) :: ds) ending) (hr : r.Beyond) (hdepth : r.place.depth ≠ 0) :
    ∃ next m, r.step .empty t = .ok next ∧ m + t.closes = n + t.opens ∧ (t.isSign "," = true → n ≠ 0) ∧
      next.Accepts m (d :: ds) ending := by
  obtain ⟨ts, hds, hrun⟩ := h
  obtain ⟨ts, m, rfl, hlevel, hcomma, hds⟩ := of_definitionsFrom_cons hds
  obtain ⟨next, hstep, hrun⟩ := exists_of_run hr hdepth hrun
  exact ⟨next, m, hstep, hlevel, hcomma, ts, hds, hrun⟩

theorem not_accepts_of_none (hmove : r.place.nextOf t = none) (hr : r.Beyond) (hdepth : r.place.depth ≠ 0) :
    ¬r.Accepts n ((t :: d) :: ds) ending := fun h => by
  obtain ⟨next, m, hstep, -⟩ := h.token hr hdepth
  exact not_step_of_none hmove hstep

theorem not_accepts_unread (hplace : r.place = .unread) : ¬r.Accepts n ds ending := fun ⟨ts, _, h⟩ => by
  cases ts with
  | nil => exact not_run_nil (by rw [hplace]; decide) h
  | cons t ts => exact not_run_of_not_step (fun _ => not_step_of_none (by rw [hplace]; rfl)) h

/-- A reference is not read on where no name stands for its table. -/
theorem not_accepts_references {columns : Option (List Text)} (hplace : r.place = .references columns)
    (hd : ∀ u ∈ d.head?, u.name? = none) : ¬r.Accepts n (d :: ds) ending := fun ⟨ts, hds, h⟩ => by
  have hdepth : r.place.depth ≠ 0 := by rw [hplace]; exact Nat.one_ne_zero
  have hnone : ∀ u ts', ts = u :: ts' → u.name? ≠ none := fun u ts' hts hname => by
    rw [hts] at h
    exact not_run_of_not_step (fun _ => not_step_of_none (by rw [hplace, Place.nextOf, hname]; rfl)) h
  have hsign : ∀ {u : Token} {sign : Text}, u.isSign sign = true → u.name? = none := fun hu =>
    (Place.not_word_of_isSign hu).2.1
  cases d with
  | nil =>
    rcases of_definitionsFrom_nil hds with rfl | ⟨-, u, ts', rfl, ⟨hu, -⟩ | ⟨hu, -⟩⟩
    · exact not_run_nil hdepth h
    · exact hnone u ts' rfl (hsign hu)
    · exact hnone u ts' rfl (hsign hu)
  | cons u d =>
    obtain ⟨ts', -, rfl, -⟩ := of_definitionsFrom_cons hds
    exact hnone u ts' rfl (hd u rfl)

/-! ### Behind a definition -/

/-- The table of a list that has been closed. -/
def Makes (keys : List TableKey) (ending : Ending) : Prop :=
  ∃ table integer hasKey, ending.draft = .fresh table integer hasKey ∧ table.keys = keys

/-- Behind a definition: the list is closed on a table with the given keys, or another definition begins. -/
def Leaves (keys : List TableKey) (names : List Text) (ds : List (List Token)) (ending : Ending) : Prop :=
  ds = [] ∧ Makes keys ending ∨ ∃ next, Begins keys names next ∧ next.Accepts 0 ds ending

theorem exists_step_of_run (h : r.run .empty (t :: ts) = .ok ending) :
    ∃ next, r.step .empty t = .ok next ∧
      (if next.place == .finished then .ok ⟨next.draft, ts, t.start + t.text.length⟩ else next.run .empty ts) =
        Except.ok (ε := SqlError) ending := by
  rw [run] at h
  cases hstep : r.step .empty t with
  | error e =>
    rw [hstep] at h
    cases h
  | ok next =>
    rw [hstep] at h
    exact ⟨next, rfl, h⟩

/-- No option behind a list takes effect. -/
theorem not_run_option {name : Text} {draft : Draft} :
    run .empty ⟨.option, some (.option name), draft⟩ ts ≠ .ok ending := fun h => by
  cases ts with
  | nil =>
    rw [run_nil (by rintro ⟨⟩), Place.nextOf_semicolon (beq_self_eq_true _)] at h
    cases h
  | cons t ts =>
    obtain ⟨next, hstep, -⟩ := exists_step_of_run h
    obtain ⟨completes, hsteps⟩ := steps_of_step hstep
    have hmove := hsteps.move
    rw [Place.nextOf] at hmove
    split at hmove
    · obtain ⟨-, -, rfl⟩ := Move.mk.inj (Option.some.inj hmove)
      cases hsteps.draft
    · cases hmove

theorem not_run_closedComma {draft : Draft} : run .empty ⟨.closedComma, none, draft⟩ ts ≠ .ok ending := fun h => by
  cases ts with
  | nil =>
    rw [run] at h
    cases h
  | cons t ts =>
    obtain ⟨next, hstep, hrun⟩ := exists_step_of_run h
    cases hname : t.name? with
    | none => exact not_step_of_none (by rw [Place.nextOf, hname]; rfl) hstep
    | some name =>
      obtain rfl := next_of_move hstep (by rw [Place.nextOf, hname]; rfl) fun _ => rfl
      exact not_run_option hrun

/-- Behind the list only the end of the statement is read. -/
theorem draft_of_run_closed {draft : Draft} (h : run .empty ⟨.closed, none, draft⟩ ts = .ok ending) :
    ending.draft = draft := by
  cases ts with
  | nil =>
    rw [run_nil (by rintro ⟨⟩), Place.nextOf_semicolon (beq_self_eq_true _)] at h
    cases h
    rfl
  | cons t ts =>
    obtain ⟨next, hstep, hrun⟩ := exists_step_of_run h
    cases hend : t.isSign ";" with
    | true =>
      obtain rfl := next_of_move hstep (if_pos hend) fun _ => rfl
      cases hrun
      rfl
    | false =>
      cases hcomma : t.isSign "," with
      | true =>
        obtain rfl := next_of_move hstep (by rw [Place.nextOf, hend, hcomma]; rfl) fun _ => rfl
        exact absurd hrun not_run_closedComma
      | false =>
        cases hname : t.name? with
        | none => exact absurd hstep (not_step_of_none (by rw [Place.nextOf, hend, hcomma, hname]; rfl))
        | some name =>
          obtain rfl := next_of_move hstep (by rw [Place.nextOf, hend, hcomma, hname]; rfl) fun _ => rfl
          exact absurd hrun not_run_option

theorem Closed.makes (h : Closed keys names r) (hrun : r.run .empty ts = .ok ending) : Makes keys ending := by
  obtain ⟨table, integer, hasKey, hdraft, hkeys, -⟩ := h.table
  obtain ⟨p, part, draft⟩ := r
  obtain rfl : p = .closed := h.place
  obtain rfl : part = none := h.part
  exact ⟨table, integer, hasKey, (draft_of_run_closed hrun).trans hdraft, hkeys⟩

/-- A definition that is at its end leads to the next one, or behind the list. -/
theorem Ends.leaves (h : Ends keys names r) (haccepts : r.Accepts n ([] :: ds) ending) :
    Leaves keys names ds ending := by
  have hdepth : r.place.depth ≠ 0 := by rw [h.depth]; exact Nat.one_ne_zero
  obtain ⟨ts, hds, hrun⟩ := haccepts
  rcases of_definitionsFrom_nil hds with rfl | ⟨-, t, ts, rfl, ⟨hclose, hnil⟩ | ⟨hcomma, hbehind⟩⟩
  · exact absurd hrun (not_run_nil hdepth)
  · obtain ⟨next, hstep, hrun⟩ := exists_of_run h.beyond hdepth hrun
    exact .inl ⟨hnil, (h.close hstep hclose).makes hrun⟩
  · obtain ⟨next, hstep, hrun⟩ := exists_of_run h.beyond hdepth hrun
    exact .inr ⟨next, h.comma hstep hcomma, ts, hbehind, hrun⟩

/-! ### Definitions of columns -/

theorem depth_le (p : Place) : p.depth ≤ 2 := by
  unfold Place.depth
  split <;> decide

theorem Begins.ends (h : Begins keys names r) : Ends keys names r where
  beyond := h.beyond
  depth := depth_of_begins h.begins
  table db d hd := by
    obtain ⟨table, integer, hasKey, hdraft, hkeys, hdistinct, hcolumns⟩ := h.table
    rw [complete, h.part] at hd
    cases hd
    refine ⟨table, integer, hasKey, hdraft, hkeys, hdistinct, ?_⟩
    rw [Place.waiting, h.part, sizedColumn?_of_depth (by rw [depth_of_begins h.begins]; decide)] at hcolumns
    exact (List.append_nil _).symm.trans hcolumns

/-- In the course of a definition that refers to no other table. -/
theorem Inside.leaves (h : Inside (n + 1) keys names r) (haccepts : r.Accepts n (d :: ds) ending)
    (hd : d.IsChain fun t u => t.isWord "references" = true → u.name? = none) : Leaves keys names ds ending := by
  induction d generalizing r n with
  | nil =>
    cases n with
    | zero => exact h.ends.leaves haccepts
    | succ n =>
      obtain ⟨ts, hds, hrun⟩ := haccepts
      rcases of_definitionsFrom_nil hds with rfl | ⟨hzero, -⟩
      · exact absurd hrun (not_run_nil (by rw [h.depth]; exact Nat.succ_ne_zero _))
      · cases hzero
  | cons t d ih =>
    have hdepth : r.place.depth ≠ 0 := by rw [h.depth]; exact Nat.succ_ne_zero n
    obtain ⟨next, m, hstep, hlevel, hcomma, hnext⟩ := haccepts.token h.beyond hdepth
    have hread : next.place ≠ .unread := fun hplace => not_accepts_unread hplace hnext
    cases hword : t.isWord "references" with
    | true =>
      rcases Place.nextOf_references (p := r.place) hword with ⟨columns, hmove⟩ | hmove
      · refine absurd hnext (not_accepts_references (next_of_goTo hstep hmove).1 fun u hu => ?_)
        exact (List.isChain_cons.mp hd).1 u hu hword
      · exact absurd hstep (not_step_of_none hmove)
    | false =>
      refine ih (h.step hstep hread hword (by omega) ?_) hnext (List.isChain_cons.mp hd).2
      have hle := depth_le r.place
      have hle' := depth_le next.place
      rw [h.depth] at hle
      cases hopen : t.isSign "(" with
      | true =>
        obtain ⟨hopens, hcloses⟩ := Token.level_of_open hopen
        obtain ⟨completes, hsteps⟩ := steps_of_step hstep
        have hsound := hsteps.sound.depth.resolve_left hread
        dsimp only at hsound
        rw [h.depth] at hsound
        exact .inl (by omega)
      | false =>
        cases hsign : t.isSign "," with
        | true =>
          obtain ⟨hopens, hcloses⟩ := Token.level_of_comma hsign
          have := hcomma hsign
          exact .inl (by omega)
        | false => exact .inr ⟨rfl, rfl⟩

/-- The column that a definition declares. -/
def declaredColumn (d : List Token) : List Text := d.head?.elim [] fun t => t.name?.toList

theorem Begins.leaves (h : Begins keys names r) (haccepts : r.Accepts 0 (d :: ds) ending) (hd : HasNoTarget d) :
    Leaves keys (names ++ declaredColumn d) ds ending := by
  cases d with
  | nil =>
    rw [declaredColumn, List.head?_nil, Option.elim_none, List.append_nil]
    exact h.ends.leaves haccepts
  | cons t d =>
    have hdepth : r.place.depth = 1 := depth_of_begins h.begins
    obtain ⟨next, m, hstep, hlevel, -, hnext⟩ := haccepts.token h.beyond (by rw [hdepth]; exact Nat.one_ne_zero)
    have hread : next.place ≠ .unread := fun hplace => not_accepts_unread hplace hnext
    obtain ⟨completes, hsteps⟩ := steps_of_step hstep
    have hopens := Place.opens_of_begins h.begins _ hsteps.move
    have hm : m = 0 := by
      have := Token.level_of_kind hopens.kind
      omega
    exact (h.step hstep hread hopens.kind hopens.word).leaves (hm ▸ hnext) hd

theorem Begins.leaves_columns {columns : List (List Token)} (h : Begins keys names r)
    (haccepts : r.Accepts 0 (columns ++ ds) ending) (hcolumns : ∀ d ∈ columns, HasNoTarget d) :
    Leaves keys (names ++ columns.flatMap declaredColumn) ds ending := by
  induction columns generalizing r names with
  | nil =>
    rw [List.flatMap_nil, List.append_nil]
    exact .inr ⟨r, h, haccepts⟩
  | cons d columns ih =>
    obtain ⟨hd, hcolumns⟩ := List.forall_mem_cons.mp hcolumns
    rw [List.flatMap_cons, ← List.append_assoc]
    rcases h.leaves haccepts hd with ⟨hnil, hmakes⟩ | ⟨next, hnext, haccepts⟩
    · exact .inl ⟨(List.append_eq_nil_iff.mp hnil).2, hmakes⟩
    · exact ih hnext haccepts hcolumns

/-! ### Clauses of keys -/

section Moves
variable {p q : Place} {part part' : Option Part} {draft : Draft} {completes : Bool}

theorem Accepts.move (h : Accepts ⟨p, part, draft⟩ n ((t :: d) :: ds) ending)
    (hmove : p.nextOf t = some ⟨q, part', completes⟩) (hkeeps : completes = true → part = none)
    (hr : Beyond ⟨p, part, draft⟩) (hdepth : p.depth ≠ 0) : ∃ m, Accepts ⟨q, part', draft⟩ m (d :: ds) ending := by
  obtain ⟨next, m, hstep, -, -, hnext⟩ := h.token hr hdepth
  obtain rfl := next_of_move hstep hmove hkeeps
  exact ⟨m, hnext⟩

theorem Accepts.name (h : Accepts ⟨p, none, draft⟩ n ((t :: d) :: ds) ending) (q : Token → Text → Place)
    (part' : Token → Text → Option Part)
    (hmove : ∀ t : Token, p.nextOf t = t.name?.bind fun name => (q t name).goTo (part' t name))
    (hr : Beyond ⟨p, none, draft⟩) (hdepth : p.depth ≠ 0) :
    ∃ name m, t.name? = some name ∧ Accepts ⟨q t name, part' t name, draft⟩ m (d :: ds) ending := by
  cases ht : t.name? with
  | none => exact absurd h (not_accepts_of_none (by rw [hmove, ht]; rfl) hr hdepth)
  | some name =>
    obtain ⟨m, hnext⟩ := h.move (by rw [hmove, ht]; rfl) (fun _ => rfl) hr hdepth
    exact ⟨name, m, rfl, hnext⟩

end Moves

theorem Begins.foreign (h : Begins keys names r) (haccepts : r.Accepts n ((t :: d) :: ds) ending)
    (ht : t.isWord "foreign" = true) : ∃ m, Accepts ⟨.foreignWord, none, r.draft⟩ m (d :: ds) ending := by
  have hdepth : r.place.depth ≠ 0 := by
    rw [depth_of_begins h.begins]
    exact Nat.one_ne_zero
  rcases Place.nextOf_foreign h.begins ht with hmove | hmove
  · obtain ⟨p, part, draft⟩ := r
    obtain rfl : part = none := h.part
    exact haccepts.move hmove (fun _ => rfl) h.beyond hdepth
  · exact absurd haccepts (not_accepts_of_none hmove h.beyond hdepth)

/-- The clause of a key is read up to its end, where the key waits. -/
theorem Begins.accepts_key {k : KeyClause} (h : Begins keys names r) (haccepts : r.Accepts n (d :: ds) ending)
    (hd : k.Spells d) :
    ∃ column table remote m, k.column.name? = some column ∧ k.table.name? = some table ∧ k.remote.name? = some remote ∧
      Accepts ⟨.remoteEnd ⟨some [column], k.table, [remote]⟩, some (.foreignKey ⟨some [column], k.table, [remote]⟩),
        r.draft⟩ m ([] :: ds) ending := by
  obtain ⟨foreign, d, hforeign, h1, rfl⟩ := List.forall₂_cons_left_iff.mp hd
  obtain ⟨key, d, hkey, h2, rfl⟩ := List.forall₂_cons_left_iff.mp h1
  obtain ⟨opened, d, hopened, h3, rfl⟩ := List.forall₂_cons_left_iff.mp h2
  obtain ⟨_, d, rfl, h4, rfl⟩ := List.forall₂_cons_left_iff.mp h3
  obtain ⟨closed, d, hclosed, h5, rfl⟩ := List.forall₂_cons_left_iff.mp h4
  obtain ⟨references, d, hreferences, h6, rfl⟩ := List.forall₂_cons_left_iff.mp h5
  obtain ⟨_, d, rfl, h7, rfl⟩ := List.forall₂_cons_left_iff.mp h6
  obtain ⟨opened', d, hopened', h8, rfl⟩ := List.forall₂_cons_left_iff.mp h7
  obtain ⟨_, d, rfl, h9, rfl⟩ := List.forall₂_cons_left_iff.mp h8
  obtain ⟨closed', d, hclosed', hnil, rfl⟩ := List.forall₂_cons_left_iff.mp h9
  cases hnil
  obtain ⟨_, haccepts⟩ := h.foreign haccepts hforeign
  obtain ⟨_, haccepts⟩ := haccepts.move (q := .foreignKey) (if_pos hkey) (fun _ => rfl) ⟨rfl, rfl⟩ Nat.one_ne_zero
  obtain ⟨_, haccepts⟩ := haccepts.move (q := .keyColumns [] false) (if_pos hopened) (fun _ => rfl) ⟨rfl, rfl⟩
    Nat.one_ne_zero
  obtain ⟨column, _, hcolumn, haccepts⟩ := haccepts.name (fun _ name => .keyColumns [name] true) (fun _ _ => none)
    (fun _ => rfl) ⟨rfl, rfl⟩ (Nat.succ_ne_zero 1)
  obtain ⟨_, haccepts⟩ := haccepts.move (q := .keyColumnsEnd [column]) (if_pos hclosed) (fun _ => rfl) ⟨rfl, rfl⟩
    (Nat.succ_ne_zero 1)
  obtain ⟨_, haccepts⟩ := haccepts.move (q := .references (some [column])) (if_pos hreferences) (fun _ => rfl)
    ⟨rfl, rfl⟩ Nat.one_ne_zero
  obtain ⟨table, _, htable, haccepts⟩ := haccepts.name (fun t _ => .remoteTable ⟨some [column], t, []⟩)
    (fun t _ => some (.foreignKey ⟨some [column], t, []⟩)) (fun _ => rfl) ⟨rfl, rfl⟩ Nat.one_ne_zero
  obtain ⟨_, haccepts⟩ := haccepts.move (q := .remote ⟨some [column], k.table, []⟩ false) (if_pos hopened') nofun
    ⟨rfl, rfl⟩ Nat.one_ne_zero
  obtain ⟨remote, _, hremote, haccepts⟩ := haccepts.name (fun _ name => .remote ⟨some [column], k.table, [name]⟩ true)
    (fun _ _ => none) (fun _ => rfl) ⟨rfl, rfl⟩ (Nat.succ_ne_zero 1)
  obtain ⟨m, haccepts⟩ := haccepts.move (q := .remoteEnd ⟨some [column], k.table, [remote]⟩) (if_pos hclosed')
    (fun _ => rfl) ⟨rfl, rfl⟩ (Nat.succ_ne_zero 1)
  exact ⟨column, table, remote, m, hcolumn, htable, hremote, haccepts⟩

/-- The clause of a key adds it, if its column is one of those declared so far. -/
theorem Begins.leaves_key {k : KeyClause} (h : Begins keys names r) (haccepts : r.Accepts n (d :: ds) ending)
    (hd : k.Spells d) (hcolumn : k.column.name?.toList ⊆ names) : Leaves (keys ++ [k.tableKey]) names ds ending := by
  obtain ⟨column, table, remote, m, hname, htable, hremote, hend⟩ := h.accepts_key haccepts hd
  have hbeyond : Beyond ⟨.remoteEnd ⟨some [column], k.table, [remote]⟩,
      some (.foreignKey ⟨some [column], k.table, [remote]⟩), r.draft⟩ := ⟨rfl, rfl⟩
  refine Ends.leaves ⟨hbeyond, rfl, fun db d hd => ?_⟩ hend
  -- No token of the clause has made a part take effect yet, so the table is the one at the clause's front.
  obtain ⟨t, integer, hasKey, hdraft, hkeys, hdistinct, hcolumns⟩ := h.ends.table db r.draft (by rw [complete, h.part])
  have hmem : column ∈ t.columns := hcolumns ▸ hcolumn (hname ▸ List.mem_singleton_self column)
  rw [complete, hdraft] at hd
  dsimp only [Draft.apply] at hd
  rw [Draft.key_column (hdistinct.column? hmem) htable] at hd
  cases hd
  refine ⟨_, integer, hasKey, rfl, ?_, hdistinct, hcolumns⟩
  rw [hkeys, KeyClause.tableKey, Token.label_of_name? hname, Token.label_of_name? htable, Token.label_of_name? hremote]

theorem Leaves.makes {clauses : List (List Token)} {newKeys : List KeyClause}
    (hclauses : List.Forall₂ KeyClause.Spells newKeys clauses)
    (hcolumns : ∀ k ∈ newKeys, k.column.name?.toList ⊆ names) (h : Leaves keys names clauses ending) :
    Makes (keys ++ newKeys.map KeyClause.tableKey) ending := by
  induction hclauses generalizing keys with
  | nil =>
    rw [List.map_nil, List.append_nil]
    rcases h with ⟨-, hmakes⟩ | ⟨next, -, ts, hds, -⟩
    · exact hmakes
    · exact absurd hds (definitionsFrom_ne_nil ts 0)
  | @cons k d newKeys clauses hk _ ih =>
    obtain ⟨hcolumn, hcolumns⟩ := List.forall_mem_cons.mp hcolumns
    rcases h with ⟨hnil, -⟩ | ⟨next, hnext, haccepts⟩
    · cases hnil
    · rw [List.map_cons, List.append_cons]
      exact ih hcolumns (hnext.leaves_key haccepts hk hcolumn)

theorem begins_newTable (name : Text) : Begins [] [] (newTable name) where
  beyond := beyond_newTable name
  target := rfl
  table := ⟨⟨name, [], []⟩, false, false, rfl, rfl, .nil, rfl⟩
  begins := rfl
  part := rfl

/-- A list that declares keys, read to its end, makes a table with these keys. -/
theorem makes_of_declareKeys {name : Text} {newKeys : List KeyClause} (h : DeclareKeys ds newKeys)
    (haccepts : (newTable name).Accepts 0 ds ending) : Makes (newKeys.map KeyClause.tableKey) ending := by
  obtain ⟨columns, clauses, rfl, hnoTarget, hspells, hcolumns⟩ := h
  have hleaves := (begins_newTable name).leaves_columns haccepts hnoTarget
  refine hleaves.makes hspells fun k hk column hcolumn => ?_
  obtain ⟨d, hd, hfirst⟩ := hcolumns k hk
  refine List.mem_append_right _ (List.mem_flatMap.mpr ⟨d, hd, ?_⟩)
  obtain ⟨t, ht, hname⟩ := Option.map_eq_some_iff.mp hfirst
  rw [declaredColumn, ht, Option.elim_some, hname]
  exact hcolumn

end Reading

/-! ### Databases -/

namespace Database
open Statement
variable {db db' : Database} {name rest : Text}

/-- The table that a statement makes has the keys that its definitions declare. -/
theorem exists_insert_of_accepted (hname : IsName name)
    (answer : connection.executeStatement db (createIfAbsent name rest) = (.ok (), db')) (ht : db.table? name = none) :
    ∃ t : Table, db' = db.insert t ∧ ∀ keys, DeclareKeys (definitions (createIfAbsent name rest)) keys →
      t.kept.keys = keys.map KeyClause.foreignKey := by
  obtain ⟨present, absent, h, hdb⟩ := outcomes_of_accepted hname answer
  have hexecute := h.new hdb ht
  cases habsent : absent with
  | error e =>
    rw [habsent] at hexecute
    cases (answer_of_execute hname hexecute).symm.trans answer
  | ok t =>
    rw [habsent] at hexecute
    cases (answer_of_execute hname hexecute).symm.trans answer
    obtain ⟨ts, ending, integer, hasKey, hdefinitions, hrun, hdraft⟩ := h.read t habsent
    refine ⟨t, rfl, fun keys hkeys => ?_⟩
    rw [hdefinitions] at hkeys
    obtain ⟨t', integer', hasKey', hdraft', hmade⟩ := Reading.makes_of_declareKeys hkeys ⟨ts, rfl, hrun⟩
    cases hdraft.symm.trans hdraft'
    rw [Table.kept, hmade, List.flatMap_map]
    exact (List.map_eq_flatMap (f := KeyClause.foreignKey)).symm

/-- No character of a statement that is accepted forms no token. -/
theorem not_broken_of_accepted (hname : IsName name)
    (answer : connection.executeStatement db (createIfAbsent name rest) = (.ok (), db')) :
    ¬Broken (tokens (createIfAbsent name rest)) := by
  cases hresult : db.execute (tokens (createIfAbsent name rest)) with
  | error e => cases (answer_of_execute hname hresult).symm.trans answer
  | ok next =>
    rw [execute] at hresult
    cases hrun : Reading.start.run db (tokens (createIfAbsent name rest)) with
    | error e =>
      rw [hrun] at hresult
      cases hresult
    | ok ending => exact Reading.not_broken_of_run Reading.coherent_start hrun

end Database
end Schemata.Sql
