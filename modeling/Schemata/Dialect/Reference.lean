import Schemata.Text.Word

/-! References between columns: `ref: > users.id` in a constraint list. -/

namespace Schemata

/-- Which side of a reference holds many rows. -/
inductive Direction
  | manyToOne
  | oneToMany
  | oneToOne
  | manyToMany
  deriving DecidableEq, Repr

namespace Direction

def marker : Direction → Text
  | manyToOne => ">"
  | oneToMany => "<"
  | oneToOne => "-"
  | manyToMany => "<>"

def ofMarker? (s : Text) : Option Direction :=
  [manyToOne, oneToMany, oneToOne, manyToMany].find? fun d => d.marker == s

/-- Reads the longest marker at the front of a text. -/
def read? : Text → Option (Direction × Text)
  | '<' :: '>' :: r => some (manyToMany, r)
  | '<' :: r => some (oneToMany, r)
  | '>' :: r => some (manyToOne, r)
  | '-' :: r => some (oneToOne, r)
  | _ => none

end Direction

/-- A column and the column of another table it refers to. -/
structure Reference where
  localColumn : Text
  direction : Direction
  remoteTable : Text
  remoteColumn : Text
  deriving DecidableEq, Repr

namespace Reference

/-- Whether a constraint token has the key `ref`, well-formed or not. -/
def isToken (token : Text) : Bool :=
  match Text.cut? ':' token with
  | some (key, _) => Text.sameFolded (Text.trim key) "ref"
  | none => false

/-- Reads `table.column`, all of the text. -/
def readTarget? (s : Text) : Option (Text × Text) :=
  match s.takeWhile isWord, s.dropWhile isWord with
  | table, '.' :: column => if table.isEmpty || column.isEmpty || !column.all isWord then none else some (table, column)
  | _, _ => none

/-- Reads `ref: <marker> table.column` for a column of the given name. -/
def resolve? (localColumn token : Text) : Option Reference :=
  match Text.trim token with
  | r :: e :: f :: s =>
    if Text.sameFolded [r, e, f] "ref" then
      match s.dropWhile isBlank with
      | ':' :: s => do
        let (direction, s) ← Direction.read? (s.dropWhile isBlank)
        let (table, column) ← readTarget? (s.dropWhile isBlank)
        some ⟨localColumn, direction, table, column⟩
      | _ => none
    else none
  | _ => none

/-- Every direction has the same clause. -/
def clause (r : Reference) : Text :=
  "FOREIGN KEY (" ++ r.localColumn ++ ") REFERENCES " ++ r.remoteTable ++ "(" ++ r.remoteColumn ++ ")"

end Reference
end Schemata
