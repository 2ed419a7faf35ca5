import Schemata.Sql.Transaction

/-! Databases behind a connection, as stores. -/

namespace Schemata.Sql.Database

/-- The connection to a database. -/
def connection : Sqlite.Connection Database Transaction Segment where
  transaction db := .ok ⟨db, some db⟩
  first := Segment.first
  statements := Segment.all
  execute := Transaction.execute
  commit t :=
    match t.commit with
    | .ok next => (.ok (), next)
    | .error e => (.error (e.report [] 0), t)
  drop t := t.base.getD t.database
  names := names
  keyRows := keyRows

/-- The store over a database; `backend` tells whether it is kept in a file or in memory. -/
def store (backend : Text) : SchemaStore Database := connection.store backend

def inMemory : Text := "SqliteMem"

def inFile : Text := "Sqlite"

end Schemata.Sql.Database
