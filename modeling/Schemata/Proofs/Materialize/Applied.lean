import Mathlib.Data.List.Pairwise
import Schemata.Proofs.Materialize.Tables

/-! The tables of a store that was empty before a run. A run adds a table only where there is none of its name, so at
    its end each applied table has exactly one, and each table was applied. -/

namespace Schemata

/-- No two tables have the same name. -/
def DistinctNames (tables : List StoredTable) : Prop :=
  tables.Pairwise fun t u => Text.sameFolded t.name u.name = false

/-- No two tables have one name, and the given names are those of the tables, up to case and repetition. -/
structure Lists (tables : List StoredTable) (names : List Text) : Prop where
  distinct : DistinctNames tables
  made : ∀ t ∈ tables, t.name ∈ names
  present : ∀ name ∈ names, HasTable tables name

/-- The tables of the attempts that were applied. -/
def appliedTables (attempts : List Attempt) : List Text :=
  (attempts.filter Attempt.isApplied).map fun a => a.statement.table

theorem mem_appliedTables {attempts : List Attempt} {table : Text} :
    table ∈ appliedTables attempts ↔ .tableApplied table ∈ attempts.filterMap Attempt.event? := by
  rw [appliedTables, List.mem_map, List.mem_filterMap]
  constructor
  · rintro ⟨a, ha, rfl⟩
    obtain ⟨hmem, happlied⟩ := List.mem_filter.mp ha
    exact ⟨a, hmem, Attempt.event?_of_isApplied happlied⟩
  · rintro ⟨a, hmem, hevent⟩
    have happlied := Attempt.isApplied_iff.mpr (Attempt.outcome_of_isApplied hevent rfl)
    cases (Attempt.event?_of_isApplied happlied).symm.trans hevent
    exact ⟨a, List.mem_filter.mpr ⟨hmem, happlied⟩, rfl⟩

theorem appliedTables_cons (a : Attempt) (attempts : List Attempt) :
    appliedTables (a :: attempts) = (if a.isApplied then [a.statement.table] else []) ++ appliedTables attempts := by
  rw [appliedTables, List.filter_cons]
  split <;> rfl

/-- One element of a list fits a property that no two elements have together. -/
theorem countP_eq_one {α : Type} {l : List α} {R : α → α → Prop} {p : α → Bool} (hl : l.Pairwise R)
    (hp : ∀ a b, p a = true → p b = true → ¬R a b) {a : α} (ha : a ∈ l) (hpa : p a = true) : l.countP p = 1 := by
  induction hl with
  | nil => cases ha
  | @cons x l hx _ ih =>
    by_cases hpx : p x = true
    · rw [List.countP_cons_of_pos hpx, List.countP_eq_zero.mpr fun y hy hpy => hp x y hpx hpy (hx y hy)]
    · rw [List.countP_cons_of_neg hpx]
      rcases List.mem_cons.mp ha with rfl | ha
      · exact absurd hpa hpx
      · exact ih ha

/-! ### What a statement keeps -/

namespace Lists
variable {tables after : List StoredTable} {names : List Text} {name : Text}

theorem nil : Lists [] [] := ⟨.nil, List.forall_mem_nil _, List.forall_mem_nil _⟩

theorem snoc (h : Lists tables names) (hname : HasTable tables name) : Lists tables (names ++ [name]) where
  distinct := h.distinct
  made t ht := List.mem_append_left _ (h.made t ht)
  present := List.forall_mem_append.mpr ⟨h.present, List.forall_mem_singleton.mpr hname⟩

theorem insert (h : Lists tables names) {t : StoredTable} (ht : ¬HasTable tables t.name)
    (hafter : after.Perm (t :: tables)) : Lists after (names ++ [t.name]) where
  distinct := by
    have hsymm : ∀ {u v : StoredTable}, Text.sameFolded u.name v.name = false →
        Text.sameFolded v.name u.name = false := fun {u v} huv => by
      rw [← huv, Text.sameFolded, Text.sameFolded, Bool.beq_comm]
    refine (hafter.pairwise_iff hsymm).mpr (List.pairwise_cons.mpr ⟨fun u hu => hsymm ?_, h.distinct⟩)
    exact eq_false_of_ne_true fun hname => ht ⟨u, hu, hname⟩
  made u hu := by
    rcases List.mem_cons.mp (hafter.mem_iff.mp hu) with rfl | hu
    · exact List.mem_append_right _ (List.mem_singleton_self _)
    · exact List.mem_append_left _ (h.made u hu)
  present := by
    refine List.forall_mem_append.mpr ⟨fun name hname => ?_, List.forall_mem_singleton.mpr (.head hafter)⟩
    exact (h.present name hname).subperm ((List.sublist_cons_self t tables).subperm.trans hafter.symm.subperm)

theorem countP_tables (h : Lists tables names) (hname : name ∈ names) :
    tables.countP (fun t => Text.sameFolded t.name name) = 1 := by
  obtain ⟨t, ht, hsame⟩ := h.present name hname
  exact countP_eq_one h.distinct (fun u v hu hv => by simp [Text.sameFolded_of_sameFolded hu hv]) ht hsame

end Lists

/-! ### Runs -/

namespace Store
variable {σ : Type} {store : Store σ} {tables? : σ → Option (List StoredTable)} {s s' : σ}
  {tables : List StoredTable} {names : List Text}

/-- A statement that succeeds adds its name, and another one changes nothing. -/
theorem CreatesIfAbsent.lists (h : store.CreatesIfAbsent tables?) {a : Attempt} (ha : a.statement.Creates)
    (answer : store.executeStatement s a.statement.sql = (a.outcome, s')) (hnext : fatalError? a.outcome = none)
    (htables : tables? s = some tables) (hlists : Lists tables names) :
    ∃ after, tables? s' = some after ∧ Lists after (names ++ (if a.isApplied then [a.statement.table] else [])) := by
  by_cases happlied : a.isApplied = true
  · rw [if_pos happlied]
    rw [Attempt.isApplied_iff.mp happlied] at answer
    rcases h.of_accepted ha answer with ⟨tables', htables', hhas, rfl⟩ | ⟨tables', t, after, htables', hhas, hafter,
      hname, hperm⟩
    · cases htables.symm.trans htables'
      exact ⟨tables, htables, hlists.snoc hhas⟩
    · cases htables.symm.trans htables'
      rw [← hname] at hhas ⊢
      exact ⟨after, hafter, hlists.insert hhas hperm⟩
  · rw [if_neg happlied, List.append_nil]
    obtain ⟨message, houtcome⟩ := Attempt.rejected_of_not_isApplied happlied hnext
    rw [houtcome] at answer
    obtain rfl := h.rejected s _ message s' answer
    exact ⟨tables, htables, hlists⟩

theorem Answers.lists {attempts : List Attempt} (hstore : store.CreatesIfAbsent tables?)
    (h : store.Answers s attempts s') (hcreates : ∀ a ∈ attempts, a.statement.Creates)
    (hnext : ∀ a ∈ attempts, fatalError? a.outcome = none) (htables : tables? s = some tables)
    (hlists : Lists tables names) :
    ∃ after, tables? s' = some after ∧ Lists after (names ++ appliedTables attempts) := by
  induction h generalizing tables names with
  | nil s => exact ⟨tables, htables, by rwa [appliedTables, List.filter_nil, List.map_nil, List.append_nil]⟩
  | @cons s s' s'' a attempts answer answers ih =>
    obtain ⟨hacreates, hcreates⟩ := List.forall_mem_cons.mp hcreates
    obtain ⟨hanext, hnext⟩ := List.forall_mem_cons.mp hnext
    obtain ⟨after, hafter, hlists'⟩ := hstore.lists hacreates answer hanext htables hlists
    rw [appliedTables_cons, ← List.append_assoc]
    exact ih hcreates hnext hafter hlists'

/-- Behind a run from nothing, the tables are those that were applied. -/
theorem Completed.lists {content : σ} {text : Text} {attempts : List Attempt} (hstore : store.CreatesIfAbsent tables?)
    (h : store.Completed content text attempts) (hempty : tables? content = some []) :
    ∃ after, tables? (store.materialize content (.structured text)).content = some after ∧
      Lists after (appliedTables attempts) :=
  h.answers.lists hstore h.creates h.next hempty .nil

end Store
end Schemata
