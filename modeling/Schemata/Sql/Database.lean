import Schemata.Sql.Error

/-! Databases as lists of tables. A table keeps the names of its columns and its foreign keys in the order of
    declaration. Names are the same when they are equal up to ASCII case. -/

namespace Schemata.Sql

/-- A foreign key: its columns, each with the remote column it refers to, which may be left out. -/
structure TableKey where
  remoteTable : Text
  columns : List (Text × Option Text)
  deriving DecidableEq, Repr

/-- A key as the pragma reports it: a row for each of its columns. -/
def TableKey.rows (k : TableKey) : List Sqlite.KeyRow :=
  k.columns.map fun (column, remote) => ⟨column, k.remoteTable, remote⟩

structure Table where
  name : Text
  columns : List Text
  keys : List TableKey
  deriving DecidableEq, Repr

namespace Table

/-- The declared column of a name. -/
def column? (t : Table) (name : Text) : Option Text := t.columns.find? (Text.sameFolded · name)

end Table

/-- The tables of a store, in the order of creation. A store over a file that is no database cannot be read. -/
structure Database where
  readable : Bool
  tables : List Table
  deriving DecidableEq, Repr

namespace Database

def empty : Database := ⟨true, []⟩

/-- The contents of a file that is no database. -/
def garbage : Database := ⟨false, []⟩

def table? (db : Database) (name : Text) : Option Table := db.tables.find? fun t => Text.sameFolded t.name name

def insert (db : Database) (t : Table) : Database := { db with tables := db.tables ++ [t] }

/-- The names of the tables. -/
def names (db : Database) : Except Sqlite.Error (List Text) :=
  if db.readable then .ok (db.tables.map Table.name) else .error (SqlError.notADatabase.report [] 0)

/-- The foreign keys of a table, the last declared first. A table with the name of the pragma hides it. -/
def keyRows (db : Database) (name : Text) : Except Sqlite.Error (List Sqlite.KeyRow) :=
  if !db.readable then .error (SqlError.notADatabase.report [] 0)
  else if (db.table? Sqlite.keyPragma).isSome then .error ((SqlError.notAFunction Sqlite.keyPragma).report [] 0)
  else .ok (((db.table? name).elim [] Table.keys).reverse.flatMap TableKey.rows)

end Database
end Schemata.Sql
