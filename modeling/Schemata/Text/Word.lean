import Schemata.Text.Basic
import Schemata.Text.WordRanges
import Schemata.Text.UpperRuns

/-! Character classes beyond ASCII, and the upper case of a text. -/

namespace Schemata

/-- The characters names are made of. -/
def isWord (c : Char) : Bool :=
  if c.toNat < 0x80 then c.isAlphanum || c == '_' else CodeRange.holds wordRanges c.toNat

/-- Decimal digits of any script. -/
def isDigit (c : Char) : Bool :=
  if c.toNat < 0x80 then c.isDigit else CodeRange.holds digitRanges c.toNat

/-- The upper case of one character, which may be several. -/
def upperChar (c : Char) : Text :=
  if c.toNat < 0x80 then [c.toUpper]
  else match upperExpansions.lookup c.toNat with
    | some codes => codes.map Char.ofNat
    | none => [(upperRuns.findSome? (·.upper? c.toNat)).elim c Char.ofNat]

def Text.upper (s : Text) : Text := s.flatMap upperChar

end Schemata
