import Schemata.Store.Basic

/-! What a store is reached by: a file, memory, or a server with its settings. -/

namespace Schemata

/-- The settings of a server. A connection string stands for all others, and port 0 for the usual one. -/
structure ServerSettings where
  connectionString : Option Text
  host : Option Text
  user : Option Text
  database : Option Text
  port : Nat
  password : Option Text
  deriving DecidableEq, Repr

namespace ServerSettings

def empty : ServerSettings := ⟨none, none, none, none, 0, none⟩

/-- The port that is meant. -/
def effectivePort (s : ServerSettings) : Nat := if s.port = 0 then 5432 else s.port

def missing (field : Text) : StoreError :=
  .unopened "postgres" ("missing '" ++ field ++ "' in PostgreSQL configuration")

/-- The pairs of keyword and value, in the order in which they are written. -/
def pairs (s : ServerSettings) (host user database : Text) : List (Text × Text) :=
  ("host", host) :: ("port", decimal s.effectivePort) :: ("user", user) :: ("dbname", database) ::
    (s.password.map fun password => (("password" : Text), password)).toList

def writePairs (pairs : List (Text × Text)) : Text :=
  Text.join " " (pairs.map fun (key, value) => key ++ "=" ++ value)

/-- The connection string. Without a given one, host, user and database are needed, and the first that is missing is
    reported. -/
def write (s : ServerSettings) : Except StoreError Text :=
  match s.connectionString with
  | some given => .ok given
  | none =>
    match s.host, s.user, s.database with
    | some host, some user, some database => .ok (writePairs (s.pairs host user database))
    | none, _, _ => .error (missing "host")
    | _, none, _ => .error (missing "user")
    | _, _, none => .error (missing "database")

end ServerSettings

inductive Connection
  /-- A database in a file. The empty path is a database of its own that goes when it is closed. -/
  | file (path : Text)
  | memory
  | server (settings : ServerSettings)
  deriving DecidableEq, Repr

namespace Connection

/-- What is used when nothing is chosen. -/
def default : Connection := file "./tablewright.db"

/-- Reads a URL or a path. -/
def ofUrl (url : Text) : Connection :=
  if url == ":memory:" then memory
  else match Text.dropPrefix? "sqlite://" url with
    | some path => file path
    | none =>
      if (Text.dropPrefix? "postgres://" url).isSome || (Text.dropPrefix? "postgresql://" url).isSome then
        server { ServerSettings.empty with connectionString := some url }
      else file url

end Connection
end Schemata
