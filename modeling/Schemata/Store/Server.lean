import Schemata.Connection.Mask
import Schemata.Store.Scripted

/-! Stores on servers. A server is known by what it answers; how a client reaches one is not modelled. -/

namespace Schemata

/-- A store on a server, by its answers to a call and to questions behind the calls before them. -/
structure Server where
  answer : List StoreCall → StoreCall → Except StoreError Unit
  tableNames : List StoreCall → Except StoreError (List Text)
  foreignKeys : List StoreCall → Text → Except StoreError (List ForeignKey)

/-- The store on a server, whose contents are the calls so far. -/
def Server.store (server : Server) : SchemaStore (List StoreCall) where
  backend := "Postgres"
  executeStatement calls sql := (server.answer calls (.statement sql), calls ++ [.statement sql])
  executeScript calls sql := (server.answer calls (.script sql), calls ++ [.script sql])
  tableNames := server.tableNames
  foreignKeys := server.foreignKeys

/-- What a client gets for a connection string: a server, or why there is none. -/
abbrev Client := Text → Except Text Server

namespace Client

/-- The client that reaches no server. -/
def unconnected : Client := fun _ => .error "error connecting to server"

/-- Connects to a server. The error shows the connection string with its passwords masked. -/
def connect (client : Client) (target : Text) : Except StoreError Server :=
  (client target).mapError (.unopened (maskPasswords target))

end Client
end Schemata
