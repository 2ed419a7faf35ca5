import Schemata.Config.Basic
import Schemata.Json.Read

/-! Reading a configuration. The object of a connection names its kind anywhere among its members, so its other
    members are kept as they come and looked at when the object has ended. -/

namespace Schemata

open Json

/-! ### Connections -/

/-- How deep the lists and objects inside a connection may be. -/
def connectionRoom : Nat := 125

def readKind (s : Text) : Except Fault (ConnectionKind × Text) := do
  let (name, s) ← readText s
  match ConnectionKind.ofName? name with
  | some kind => .ok (kind, s)
  | none => .error .mistyped

namespace Connection

/-- The field of a name, if there is one. There must not be several. -/
def field? (members : List (Text × Tree)) (name : Text) : Except Fault (Option Tree) :=
  match members.filter fun m => m.1 == name with
  | [] => .ok none
  | [(_, v)] => .ok (some v)
  | _ => .error .mistyped

/-- A text that may be null or left out. -/
def textField (members : List (Text × Tree)) (name : Text) : Except Fault (Option Text) :=
  match field? members name with
  | .error e => .error e
  | .ok none | .ok (some .null) => .ok none
  | .ok (some (.text t)) => .ok (some t)
  | .ok (some _) => .error .mistyped

/-- A port of sixteen bits that may be left out. -/
def portField (members : List (Text × Tree)) : Except Fault Nat :=
  match field? members "port" with
  | .error e => .error e
  | .ok none => .ok 0
  | .ok (some (.number n)) =>
    match n.natural? with
    | some port => if port < 65536 then .ok port else .error .mistyped
    | none => .error .mistyped
  | .ok (some _) => .error .mistyped

/-- The connection that members of an object describe. -/
def ofMembers (kind : ConnectionKind) (members : List (Text × Tree)) : Except Fault Connection :=
  match kind with
  | .memory => .ok .memory
  | .file =>
    match field? members "path" with
    | .ok (some (.text path)) => .ok (.file path)
    | _ => .error .mistyped
  | .server => do
    let connectionString ← textField members "connection_string"
    let host ← textField members "host"
    let user ← textField members "user"
    let database ← textField members "database"
    let port ← portField members
    let password ← textField members "password"
    .ok (.server ⟨connectionString, host, user, database, port, password⟩)

/-- The connection that a list of fields describes. -/
def ofItems (kind : ConnectionKind) (items : List Tree) : Except Fault Connection :=
  if items.length ≤ kind.fields.length then ofMembers kind (kind.fields.zip items) else .error .mistyped

end Connection

/-- The kind, if it was met, and the other members. -/
abbrev TaggedMembers := Option ConnectionKind × List (Text × Tree)

def readTaggedMember (state : TaggedMembers) (key s : Text) : Except Fault (TaggedMembers × Text) :=
  if key == "type" then
    if state.1.isSome then .error .mistyped
    else do
      let (kind, s) ← readKind (← readColon s)
      .ok ((some kind, state.2), s)
  else do
    let (v, s) ← readValue true connectionRoom (← readColon s)
    .ok ((state.1, state.2 ++ [(key, v)]), s)

def readConnection (s : Text) : Except Fault (Connection × Text) :=
  match skipSpace s with
  | '\x7b' :: r =>
    match readMembers true readTaggedMember (r.length + 1) true (none, []) r with
    | .error e => .error e
    | .ok ((none, _), _) => .error .mistyped
    | .ok ((some kind, members), s) => (Connection.ofMembers kind members).map fun c => (c, s)
  | '[' :: r => do
    let (more, s) ← nextItem true r
    if more then
      let (kind, s) ← readKind s
      let (items, s) ← readItems (readValue true connectionRoom) (s.length + 1) false s
      (Connection.ofItems kind items).map fun c => (c, s)
    else .error .mistyped
  | s => .error (unexpected s)

/-! ### Generators -/

/-- A generator of which not all fields were met. -/
abbrev PartialCommand := Option Text × List Text

def commandFields : Fields PartialCommand :=
  [("command", fun g s => (readText s).map fun (command, r) => ((some command, g.2), r)),
    ("args", fun g s => (readTexts s).map fun (args, r) => ((g.1, args), r))]

def readCommand (s : Text) : Except Fault (GeneratorCommand × Text) :=
  match commandFields.read (none, []) s with
  | .error e => .error e
  | .ok ((none, _), _) => .error .mistyped
  | .ok ((some command, args), r) => .ok (⟨command, args⟩, r)

/-! ### Configurations -/

namespace Config

def fields : Fields Config :=
  [("database", fun c s => (readOptional readConnection s).map fun (database, r) => ({ c with database }, r)),
    ("generator", fun c s => (readOptional readCommand s).map fun (generator, r) => ({ c with generator }, r))]

def read (s : Text) : Except Fault Config := readDocument (fields.read empty) s

end Config
end Schemata
