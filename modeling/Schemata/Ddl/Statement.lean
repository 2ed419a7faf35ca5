import Schemata.Dialect.Reference

/-! `CREATE TABLE` statements from column clauses and references. -/

namespace Schemata

/-- A statement and the table it creates. -/
structure Statement where
  table : Text
  sql : Text
  deriving DecidableEq, Repr

namespace Statement

/-- The statement that creates a table from its clauses. -/
def createTable (table : Text) (clauses : List Text) : Text :=
  "CREATE TABLE IF NOT EXISTS " ++ table ++ "(" ++ Text.join ", " clauses ++ ")"

/-- The statement of a table: its column clauses, then a foreign key for each reference. A table with neither has
    none. -/
def emit? (table : Text) (columns : List Text) (references : List Reference) : Option Statement :=
  if columns.isEmpty && references.isEmpty then none
  else some ⟨table, createTable table (columns ++ references.map Reference.clause)⟩

end Statement
end Schemata
