import Schemata.Proofs.Materialize.Applied
import Schemata.Proofs.Sql.Tables
import Schemata.Proofs.Store.Patterns

/-! Which applied tables a store lists. Behind a run on an empty database each applied table has exactly one, and all of
    them are listed but those whose names are hidden. What SQLite keeps for itself is hidden too. -/

namespace Schemata

namespace Sqlite.Connection
variable {δ τ ι : Type} {c : Connection δ τ ι} {tables? : δ → Option (List StoredTable)} {s start : δ}
  {backend text : Text}

/-- What is relied on of the catalogue: it names the tables, and beside them only tables that SQLite keeps for itself,
    whose names start with `sqlite_`. -/
def NamesTables (c : Connection δ τ ι) (tables? : δ → Option (List StoredTable)) : Prop :=
  ∀ {s tables}, tables? s = some tables →
    ∃ names internal, c.names s = .ok names ∧ names.Perm (tables.map StoredTable.name ++ internal) ∧
      ∀ name ∈ internal, IsInternal name

/-- The listed names are those of the tables that are not hidden. -/
theorem NamesTables.listed (h : c.NamesTables tables?) {tables : List StoredTable} (htables : tables? s = some tables) :
    ∃ listed, c.tableNames s = .ok listed ∧ (listed.Pairwise fun a b => Text.upTo a b = true) ∧
      listed.Perm ((tables.map StoredTable.name).filter fun name => !like hiddenPattern name) := by
  obtain ⟨names, internal, hnames, hperm, hinternal⟩ := h htables
  obtain ⟨listed, hlisted, hfilter, hsorted⟩ := tableNames_of_names hnames
  refine ⟨listed, hlisted, hsorted, hfilter.trans ((hperm.filter _).trans ?_)⟩
  have hnone : (internal.filter fun name => !like hiddenPattern name) = [] := List.filter_eq_nil_iff.mpr fun name hn => by
    rw [(hinternal name hn).hidden]
    exact Bool.false_ne_true
  rw [List.filter_append, hnone, List.append_nil]

end Sqlite.Connection

open Sqlite (like hiddenPattern)

/-- Each name is listed once, unless it is hidden. -/
theorem Lists.countP_listed {tables : List StoredTable} {names listed : List Text} (h : Lists tables names)
    (hlisted : listed.Perm ((tables.map StoredTable.name).filter fun name => !like hiddenPattern name)) {name : Text}
    (hname : name ∈ names) :
    listed.countP (Text.sameFolded · name) = if like hiddenPattern name then 0 else 1 := by
  rw [hlisted.countP_eq, List.countP_filter, List.countP_map]
  split
  · rename_i hhidden
    rw [List.countP_eq_zero]
    intro t _ ht
    obtain ⟨hsame, hshown⟩ := Bool.and_eq_true_iff.mp ht
    rw [Sqlite.like_congr _ hsame, hhidden] at hshown
    cases hshown
  · rename_i hshown
    rw [← h.countP_tables hname]
    refine List.countP_congr fun t _ => ?_
    rw [Function.comp_apply, Bool.and_eq_true_iff]
    refine ⟨And.left, fun hsame => ⟨hsame, ?_⟩⟩
    rw [Sqlite.like_congr _ hsame, eq_false_of_ne_true hshown]
    rfl

namespace Sqlite.Connection
variable {δ τ ι : Type} {c : Connection δ τ ι} {tables? : δ → Option (List StoredTable)} {start : δ}
  {backend text : Text}

end Sqlite.Connection

namespace Sql.Database

theorem connection_namesTables : connection.NamesTables kept? := fun {db tables} h => by
  obtain ⟨hdb, rfl⟩ := kept?_eq_some.mp h
  refine ⟨db.tables.map Table.name, [], if_pos hdb, ?_, List.forall_mem_nil _⟩
  rw [List.append_nil, List.map_map]
  rfl

/-- Two tables of one name up to case, a hidden one, one that starts like the hidden ones, and one that is rejected. -/
def likeSqlite : Text :=
  "Table users { id int }\nTable USERS { id int }\nTable sqlites { id int }\nTable Sqlite { id int }
Table sqlite_a { id int }\nTable accounts { id int }".toList

end Sql.Database
end Schemata
