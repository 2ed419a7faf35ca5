import Schemata.Text.Basic

/-! Input that is left out of the compiled output, and why. -/

namespace Schemata

inductive SkipKind
  /-- Text outside every table block. -/
  | unrecognizedBlock
  /-- Body text that is no column. -/
  | malformedColumn
  /-- A constraint that has no meaning here. -/
  | unknownConstraint
  /-- A `ref:` token that names no remote column. -/
  | malformedReference
  /-- A table block without columns. -/
  | emptyTable
  deriving DecidableEq, Repr

/-- The kind in words. -/
def SkipKind.label : SkipKind → Text
  | unrecognizedBlock => "unrecognized block"
  | malformedColumn => "malformed column"
  | unknownConstraint => "unknown constraint"
  | malformedReference => "malformed reference"
  | emptyTable => "empty table"

/-- The kind as one word, for structured output. -/
def SkipKind.tag : SkipKind → Text
  | unrecognizedBlock => "unrecognized_block"
  | malformedColumn => "malformed_column"
  | unknownConstraint => "unknown_constraint"
  | malformedReference => "malformed_reference"
  | emptyTable => "empty_table"

/-- A stretch of input left out: its 1-based line, its trimmed text, and its table if it stands in a block. -/
structure Skip where
  kind : SkipKind
  line : Nat
  text : Text
  table : Option Text
  deriving DecidableEq, Repr

def Skip.display (s : Skip) : Text :=
  let place : Text := match s.table with
    | some table => " (" ++ table ++ ")"
    | none => []
  "line " ++ decimal s.line ++ place ++ ": " ++ s.kind.label ++ " `" ++ s.text ++ "`"

end Schemata
