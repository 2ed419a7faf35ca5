import Schemata.Proofs.Ddl.Account
import Schemata.Proofs.Ddl.Keys
import Schemata.Proofs.Materialize.Applied
import Schemata.Proofs.Sql.DeclaredKeys

/-! The foreign keys of a store are those that the schema text declares. The first statement of a name that succeeds
    finds no table of that name: the database started empty, and each table in it was made by a statement that was
    applied. So it makes the table from its own list, with a key for each reference of its block, and no later statement
    changes that table. The keys are told unless a table has the name of the pragma that tells them. -/

namespace Schemata

namespace Sqlite.Connection
open Sql (Broken DeclareKeys KeyClause definitions tokens)
variable {δ τ ι : Type} {c : Connection δ τ ι} {tables? : δ → Option (List StoredTable)} {start : δ}
  {backend text : Text}

/-- What is relied on of SQLite for the keys of tables, for statements that create their table if it is absent. -/
structure ReportsKeys (c : Connection δ τ ι) (tables? : δ → Option (List StoredTable)) : Prop where
  /-- All characters of a statement that is accepted form tokens. -/
  lexed : ∀ {st s s'}, Statement.Creates st → c.executeStatement s st.sql = (.ok (), s') → ¬Broken (tokens st.sql)
  /-- The table that a statement makes has the keys that its definitions declare. -/
  declared : ∀ {st s s' tables after t keys}, Statement.Creates st →
    tables? s = some tables → ¬HasTable tables st.table → c.executeStatement s st.sql = (.ok (), s') →
    tables? s' = some after → t ∈ after → Text.sameFolded t.name st.table = true →
    DeclareKeys (definitions st.sql) keys → t.keys.Perm (keys.map KeyClause.foreignKey)
  /-- The pragma reports each key of a table once, unless a table has its name. -/
  reported : ∀ {s tables t}, tables? s = some tables → DistinctNames tables → ¬HasTable tables keyPragma → t ∈ tables →
    ∃ rows, c.keyRows s t.name = .ok rows ∧ (rows.map KeyRow.foreignKey).Perm t.keys

end Sqlite.Connection

/-! ### Runs -/

theorem Lists.not_hasTable {tables : List StoredTable} {names : List Text} {name : Text} (h : Lists tables names)
    (hname : ∀ n ∈ names, Text.sameFolded n name = false) : ¬HasTable tables name := fun ⟨t, ht, hsame⟩ => by
  rw [hname t.name (h.made t ht)] at hsame
  cases hsame

theorem forall_mem_appliedTables {attempts : List Attempt} {p : Text → Prop} :
    (∀ table ∈ appliedTables attempts, p table) ↔ ∀ a ∈ attempts, a.isApplied = true → p a.statement.table := by
  simp only [appliedTables, List.forall_mem_map, List.mem_filter, and_imp]

/-- In a run that reports no failure, each statement is applied. -/
theorem Store.Completed.isApplied_of_events {σ : Type} {store : Store σ} {content : σ} {text : Text}
    {attempts : List Attempt} (h : store.Completed content text attempts)
    (hevents : ∀ event ∈ (store.materialize content (.structured text)).events, event.isFailure = false) :
    ∀ a ∈ attempts, a.isApplied = true := fun a ha => by
  obtain ⟨event, hevent⟩ := Attempt.exists_event (h.next a ha)
  have hmem : event ∈ (store.materialize content (.structured text)).events := by
    rw [h.events]
    exact List.mem_append_right _ (List.mem_filterMap.mpr ⟨a, ha, hevent⟩)
  have hfailure := hevents event hmem
  rcases a with ⟨st, e | u⟩
  · cases e <;> cases hevent
    cases hfailure
  · exact Attempt.isApplied_iff.mpr rfl

namespace Sqlite.Connection
variable {δ τ ι : Type} {c : Connection δ τ ι} {tables? : δ → Option (List StoredTable)} {start : δ}
  {backend text : Text}

/-- The table of the first statement of its name that is applied is there at the end, with the keys of its block. -/
theorem exists_table_of_split (hstore : (c.store backend).CreatesIfAbsent tables?) (hkeys : c.ReportsKeys tables?)
    (hempty : tables? start = some []) {before after : List Attempt} {a : Attempt}
    (h : (c.store backend).Completed start text (before ++ a :: after)) (happlied : a.isApplied = true)
    (hfirst : ∀ a' ∈ before, a'.isApplied = true → Text.sameFolded a'.statement.table a.statement.table = false)
    {b : TableBlock} (hmem : b ∈ (Outline.read text).blocks) (hst : b.statement? = some a.statement) (hb : b.Plain) :
    ∃ tables t, tables? ((c.store backend).materialize start (.structured text)).content = some tables ∧ t ∈ tables ∧
      t.name = a.statement.table ∧ t.keys.Perm (b.references.map Reference.foreignKey) := by
  have hcreates := List.forall_mem_append.mp h.creates
  have hnext := List.forall_mem_append.mp h.next
  have hacreates := (List.forall_mem_cons.mp hcreates.2).1
  -- Up to the statement there is no table of its name, the statement makes it, and what follows only adds others.
  obtain ⟨s, s', hbefore, hanswer, hafter⟩ := h.answers.split
  obtain ⟨found, hfound, hlists⟩ := hbefore.lists hstore hcreates.1 hnext.1 hempty .nil
  have habsent : ¬HasTable found a.statement.table := hlists.not_hasTable (forall_mem_appliedTables.mpr hfirst)
  rw [Attempt.isApplied_iff.mp happlied] at hanswer
  obtain ⟨t, made, hmade, hname, hperm⟩ := hstore.added hacreates hfound habsent hanswer
  have ht : t ∈ made := hperm.mem_iff.mpr List.mem_cons_self
  rcases TableBlock.declareKeys_statement (Outline.isName_of_mem_blocks hmem) hst hb with hbroken | ⟨keys, hdeclare, heq⟩
  · exact absurd hbroken (hkeys.lexed hacreates hanswer)
  · have hdeclared := hkeys.declared hacreates hfound habsent hanswer hmade ht (by simp [Text.sameFolded, hname]) hdeclare
    obtain ⟨tables, htables, hsub⟩ := (hafter.extended hstore (List.forall_mem_cons.mp hcreates.2).2
      (List.forall_mem_cons.mp hnext.2).2).tables hmade
    exact ⟨tables, t, htables, hsub.subset ht, hname, heq ▸ hdeclared⟩

end Sqlite.Connection

namespace Sql.Database

theorem connection_reportsKeys : connection.ReportsKeys kept? where
  lexed {st s s'} hst answer := by
    obtain ⟨rest, hsql⟩ := hst.sql
    rw [hsql] at answer ⊢
    exact not_broken_of_accepted hst.name answer
  declared {st s s' tables after t keys} hst hs hhas answer hs' ht hname hdeclare := by
    obtain ⟨rest, hsql⟩ := hst.sql
    obtain ⟨-, rfl⟩ := kept?_eq_some.mp hs
    obtain ⟨-, rfl⟩ := kept?_eq_some.mp hs'
    rw [hsql] at answer hdeclare
    obtain ⟨made, rfl, hmade⟩ := exists_insert_of_accepted hst.name answer (table?_of_not_hasTable hhas)
    rcases List.mem_cons.mp ((kept_insert_perm s made).mem_iff.mp ht) with rfl | ht
    · exact .of_eq (hmade keys hdeclare)
    · exact absurd ⟨t, ht, hname⟩ hhas
  reported {s tables t} hs hdistinct hhas ht := by
    obtain ⟨hdb, rfl⟩ := kept?_eq_some.mp hs
    obtain ⟨table, htable, rfl⟩ := List.mem_map.mp ht
    have hfound : s.table? table.name = some table :=
      find?_of_pairwise (List.pairwise_map.mp hdistinct)
        (fun _ _ ha hb => by simp [Table.kept, Text.sameFolded_of_sameFolded ha hb]) htable (by simp [Text.sameFolded])
    refine ⟨table.keys.reverse.flatMap TableKey.rows, ?_, ?_⟩
    · show s.keyRows table.name = _
      rw [keyRows, hdb, table?_of_not_hasTable hhas, hfound]
      rfl
    · rw [List.map_flatMap]
      exact (List.reverse_perm table.keys).flatMap_right _

/-- A size of two numbers, a default that reads like a key, two references on one column, and one that names no
    column. -/
def lineItems : TableBlock where
  name := "t".toList
  body := "a dec(8, 2) [ref: > u.k, default: ', FOREIGN KEY (a) REFERENCES v(k)', ref: - u.l]
b int [ref: < t.a, ref: v]".toList
  line := 1
  bodyLine := 1

/-- A second block of the same name has no effect. -/
def lineItemsTwice : Text :=
  "Table t \x7b".toList ++ lineItems.body ++ "\x7d\nTable T \x7b k int [ref: > u.k] \x7d".toList

end Sql.Database
end Schemata
