import Mathlib.Data.List.Perm.Subperm
import Schemata.Proofs.Ddl.Statements
import Schemata.Proofs.Materialize.Isolation

/-! The tables of a store in a run. What is relied on of the store is said here, as SQLite's documentation has it: a
    statement that creates a table if it is absent changes nothing where the table exists, and adds just that table
    where it does not. So a run only adds tables, and at its end each of its statements is answered with the store as
    it is: the table of one that succeeded exists, and one that was rejected where its table is absent is rejected
    again. -/

namespace Schemata

/-- A table as a store holds it. -/
structure StoredTable where
  name : Text
  columns : List Text
  keys : List ForeignKey
  deriving DecidableEq, Repr

/-- One of the tables has the name, in any ASCII case. -/
def HasTable (tables : List StoredTable) (name : Text) : Prop := ∃ t ∈ tables, Text.sameFolded t.name name = true

theorem HasTable.subperm {tables after : List StoredTable} {name : Text} (h : HasTable tables name)
    (hafter : tables.Subperm after) : HasTable after name := by
  obtain ⟨t, ht, hname⟩ := h
  exact ⟨t, hafter.subset ht, hname⟩

theorem HasTable.head {t : StoredTable} {tables after : List StoredTable} (hafter : after.Perm (t :: tables)) :
    HasTable after t.name :=
  ⟨t, hafter.mem_iff.mpr List.mem_cons_self, by simp [Text.sameFolded]⟩

namespace Store
variable {σ : Type} {store : Store σ} {tables? : σ → Option (List StoredTable)}

/-- What is relied on of a store, for statements that create their table if it is absent. `tables?` are the tables that
    the store holds, where they can be read. -/
structure CreatesIfAbsent (store : Store σ) (tables? : σ → Option (List StoredTable)) : Prop where
  /-- A rejected statement leaves no trace. -/
  rejected : store.KeepsRejected
  /-- Where the tables cannot be read, no statement is accepted. -/
  readable : ∀ {st s s'}, Statement.Creates st → store.executeStatement s st.sql = (.ok (), s') →
    ∃ tables, tables? s = some tables
  /-- Where the table exists, nothing changes, and the connection is not lost. -/
  existing : ∀ {st s tables}, Statement.Creates st → tables? s = some tables → HasTable tables st.table →
    ∃ outcome, store.executeStatement s st.sql = (outcome, s) ∧ fatalError? outcome = none
  /-- Where the table exists, a statement succeeds whose text was ever accepted. -/
  again : ∀ {st s tables r r'}, Statement.Creates st → tables? s = some tables → HasTable tables st.table →
    store.executeStatement r st.sql = (.ok (), r') → (store.executeStatement s st.sql).1 = .ok ()
  /-- Where the table is absent, it depends only on the text whether a statement is rejected. -/
  absent : ∀ {st s s' tables message r others}, Statement.Creates st →
    tables? s = some tables → ¬HasTable tables st.table → tables? r = some others → ¬HasTable others st.table →
    store.executeStatement s st.sql = (.error (.statement message), s') →
    ∃ message', (store.executeStatement r st.sql).1 = .error (.statement message')
  /-- Where the table is absent, a statement that is accepted adds exactly this table. -/
  added : ∀ {st s s' tables}, Statement.Creates st → tables? s = some tables → ¬HasTable tables st.table →
    store.executeStatement s st.sql = (.ok (), s') →
    ∃ t after, tables? s' = some after ∧ t.name = st.table ∧ after.Perm (t :: tables)

/-- A store that holds the same tables and possibly more. One whose tables cannot be read is the same store. -/
structure Extends (tables? : σ → Option (List StoredTable)) (s s' : σ) : Prop where
  unreadable : tables? s = none → s' = s
  tables : ∀ {tables}, tables? s = some tables → ∃ after, tables? s' = some after ∧ tables.Subperm after

namespace Extends
variable {s s' s'' : σ}

theorem refl (s : σ) : Extends tables? s s := ⟨fun _ => rfl, fun h => ⟨_, h, .refl _⟩⟩

theorem trans (h : Extends tables? s s') (h' : Extends tables? s' s'') : Extends tables? s s'' where
  unreadable hs := by
    obtain rfl := h.unreadable hs
    exact h'.unreadable hs
  tables hs := by
    obtain ⟨after, hafter, hsub⟩ := h.tables hs
    obtain ⟨last, hlast, hsub'⟩ := h'.tables hafter
    exact ⟨last, hlast, hsub.trans hsub'⟩

end Extends

/-! ### Statements -/

namespace CreatesIfAbsent
variable {s s' : σ} {st : Statement} {outcome : Except StoreError Unit} {tables : List StoredTable}

/-- A statement that is accepted finds its table and changes nothing, or finds none and adds it. -/
theorem of_accepted (h : store.CreatesIfAbsent tables?) (hst : st.Creates)
    (answer : store.executeStatement s st.sql = (.ok (), s')) :
    (∃ tables, tables? s = some tables ∧ HasTable tables st.table ∧ s' = s) ∨
      ∃ tables t after, tables? s = some tables ∧ ¬HasTable tables st.table ∧ tables? s' = some after ∧
        t.name = st.table ∧ after.Perm (t :: tables) := by
  obtain ⟨tables, htables⟩ := h.readable hst answer
  by_cases hhas : HasTable tables st.table
  · obtain ⟨outcome, hanswer, -⟩ := h.existing hst htables hhas
    cases hanswer.symm.trans answer
    exact .inl ⟨tables, htables, hhas, rfl⟩
  · obtain ⟨t, after, hafter, hname, hperm⟩ := h.added hst htables hhas answer
    exact .inr ⟨tables, t, after, htables, hhas, hafter, hname, hperm⟩

theorem hasTable_of_accepted (h : store.CreatesIfAbsent tables?) (hst : st.Creates)
    (answer : store.executeStatement s st.sql = (.ok (), s')) :
    ∃ after, tables? s' = some after ∧ HasTable after st.table := by
  rcases h.of_accepted hst answer with ⟨tables, htables, hhas, rfl⟩ | ⟨tables, t, after, -, -, hafter, hname, hperm⟩
  · exact ⟨tables, htables, hhas⟩
  · exact ⟨after, hafter, hname ▸ .head hperm⟩

theorem extends_of_answer (h : store.CreatesIfAbsent tables?) (hst : st.Creates)
    (answer : store.executeStatement s st.sql = (outcome, s')) (hnext : fatalError? outcome = none) :
    Extends tables? s s' := by
  rcases outcome with e | u
  · obtain ⟨message, rfl⟩ : ∃ message, e = .statement message := by
      cases e with
      | statement message => exact ⟨message, rfl⟩
      | _ => cases hnext
    obtain rfl := h.rejected s _ message s' answer
    exact .refl s'
  · rcases h.of_accepted hst answer with ⟨_, -, -, rfl⟩ | ⟨tables, t, after, htables, -, hafter, -, hperm⟩
    · exact .refl s'
    · refine ⟨fun hnone => absurd (hnone.symm.trans htables) nofun, fun hs => ⟨after, hafter, ?_⟩⟩
      cases htables.symm.trans hs
      exact (List.sublist_cons_self t tables).subperm.trans hperm.symm.subperm

/-- Each store behind a statement answers it again without a change, and with success if it succeeded before. -/
theorem answer_again (h : store.CreatesIfAbsent tables?) (hst : st.Creates)
    (answer : store.executeStatement s st.sql = (outcome, s')) (hnext : fatalError? outcome = none) {later : σ}
    (hlater : Extends tables? s' later) :
    ∃ outcome', store.executeStatement later st.sql = (outcome', later) ∧ fatalError? outcome' = none ∧
      (outcome = .ok () → outcome' = .ok ()) := by
  by_cases hok : outcome = .ok ()
  · obtain rfl := hok
    obtain ⟨tables, htables, hhas⟩ := h.hasTable_of_accepted hst answer
    obtain ⟨after, hafter, hsub⟩ := hlater.tables htables
    obtain ⟨outcome', hanswer, -⟩ := h.existing hst hafter (hhas.subperm hsub)
    have hagain := h.again hst hafter (hhas.subperm hsub) answer
    rw [hanswer] at hagain
    obtain rfl : outcome' = .ok () := hagain
    exact ⟨_, hanswer, rfl, fun _ => rfl⟩
  · obtain ⟨message, rfl⟩ := Attempt.rejected_of_not_isApplied (a := ⟨st, outcome⟩)
      (fun happlied => hok (Attempt.isApplied_iff.mp happlied)) hnext
    obtain rfl := h.rejected s _ message s' answer
    cases htables : tables? s' with
    | none =>
      obtain rfl := hlater.unreadable htables
      exact ⟨_, answer, rfl, nofun⟩
    | some tables =>
      obtain ⟨after, hafter, hsub⟩ := hlater.tables htables
      by_cases hhas : HasTable after st.table
      · obtain ⟨outcome', hanswer, hnext'⟩ := h.existing hst hafter hhas
        exact ⟨outcome', hanswer, hnext', nofun⟩
      · -- The table is absent now, so it was absent before.
        obtain ⟨message', hrejected⟩ := h.absent hst htables (fun hbefore => hhas (hbefore.subperm hsub)) hafter hhas
          answer
        rcases hanswer : store.executeStatement later st.sql with ⟨outcome', later'⟩
        rw [hanswer] at hrejected
        obtain rfl : outcome' = .error (.statement message') := hrejected
        obtain rfl := h.rejected later _ message' later' hanswer
        exact ⟨_, rfl, rfl, nofun⟩

end CreatesIfAbsent

/-! ### Runs -/

section Runs
variable {s s' : σ} {attempts : List Attempt}

/-- What one statement keeps, a whole run keeps. -/
theorem Answers.extended (h : store.Answers s attempts s') (hstore : store.CreatesIfAbsent tables?)
    (hcreates : ∀ a ∈ attempts, a.statement.Creates) (hnext : ∀ a ∈ attempts, fatalError? a.outcome = none) :
    Extends tables? s s' := by
  induction h with
  | nil s => exact .refl s
  | cons answer _ ih =>
    obtain ⟨hacreates, hcreates⟩ := List.forall_mem_cons.mp hcreates
    obtain ⟨hanext, hnext⟩ := List.forall_mem_cons.mp hnext
    exact (hstore.extends_of_answer hacreates answer hanext).trans (ih hcreates hnext)

theorem Answers.split {before after : List Attempt} {a : Attempt} (h : store.Answers s (before ++ a :: after) s') :
    ∃ t t', store.Answers s before t ∧ store.executeStatement t a.statement.sql = (a.outcome, t') ∧
      store.Answers t' after s' := by
  induction before generalizing s with
  | nil =>
    cases h with
    | cons answer answers => exact ⟨_, _, .nil _, answer, answers⟩
  | cons b before ih =>
    cases h with
    | cons answer answers =>
      obtain ⟨t, t', hbefore, hanswer, hafter⟩ := ih answers
      exact ⟨t, t', .cons answer hbefore, hanswer, hafter⟩

theorem Answers.hasTable (h : store.Answers s attempts s') (hstore : store.CreatesIfAbsent tables?)
    (hcreates : ∀ a ∈ attempts, a.statement.Creates) (hnext : ∀ a ∈ attempts, fatalError? a.outcome = none)
    {a : Attempt} (ha : a ∈ attempts) (happlied : a.outcome = .ok ()) :
    ∃ tables, tables? s' = some tables ∧ HasTable tables a.statement.table := by
  obtain ⟨before, after, rfl⟩ := List.append_of_mem ha
  obtain ⟨t, t', -, hanswer, hafter⟩ := h.split
  rw [happlied] at hanswer
  obtain ⟨tables, htables, hhas⟩ := hstore.hasTable_of_accepted (hcreates a ha) hanswer
  have hbehind : ∀ x ∈ after, x ∈ before ++ a :: after := fun x hx =>
    List.mem_append_right _ (List.mem_cons_of_mem a hx)
  obtain ⟨last, hlast, hsub⟩ := (hafter.extended hstore (fun x hx => hcreates x (hbehind x hx)) fun x hx =>
    hnext x (hbehind x hx)).tables htables
  exact ⟨last, hlast, hhas.subperm hsub⟩

end Runs

theorem Completed.creates {content : σ} {text : Text} {attempts : List Attempt}
    (h : store.Completed content text attempts) : ∀ a ∈ attempts, a.statement.Creates := fun _ ha =>
  creates_of_mem (h.statements ▸ List.mem_map_of_mem ha)

end Store
end Schemata
