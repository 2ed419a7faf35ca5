import Schemata.Connection.Basic
import Schemata.Generator.Command
import Schemata.Output.Json

/-! The configuration of a project: the store and the generator it uses. It is kept as JSON. -/

namespace Schemata

structure Config where
  database : Option Connection
  generator : Option GeneratorCommand
  deriving DecidableEq, Repr

/-- The kinds of connections that a configuration names. -/
inductive ConnectionKind
  | file
  | memory
  | server
  deriving DecidableEq, Repr

namespace ConnectionKind

def name : ConnectionKind → Text
  | file => "sqlite"
  | memory => "memory"
  | server => "postgres"

def ofName? (s : Text) : Option ConnectionKind := [file, memory, server].find? fun k => k.name == s

/-- The names of the fields of a connection, in their order. -/
def fields : ConnectionKind → List Text
  | file => ["path"]
  | memory => []
  | server => ["connection_string", "host", "user", "database", "port", "password"]

end ConnectionKind

namespace ServerSettings

/-- The settings by the names of their fields. -/
def members (s : ServerSettings) : List (Text × Value) :=
  ("connection_string", .ofOption .text s.connectionString) :: ("host", .ofOption .text s.host) ::
    ("user", .ofOption .text s.user) :: ("database", .ofOption .text s.database) :: ("port", .number s.port) ::
    [("password", .ofOption .text s.password)]

end ServerSettings

namespace Connection

def kind : Connection → ConnectionKind
  | file _ => .file
  | memory => .memory
  | server _ => .server

/-- The fields of a connection by their names. -/
def members : Connection → List (Text × Value)
  | file path => [("path", .text path)]
  | memory => []
  | server settings => settings.members

def value (c : Connection) : Value := .object (("type", .text c.kind.name) :: c.members)

end Connection

def GeneratorCommand.value (g : GeneratorCommand) : Value :=
  .object [("command", .text g.command), ("args", .list (g.args.map Value.text))]

namespace Config

def empty : Config := ⟨none, none⟩

def value (c : Config) : Value :=
  .object
    [("database", .ofOption Connection.value c.database), ("generator", .ofOption GeneratorCommand.value c.generator)]

/-- The configuration as it is kept. -/
def write (c : Config) : Text := c.value.pretty 0

end Config
end Schemata
