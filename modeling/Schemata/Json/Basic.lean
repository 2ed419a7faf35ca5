import Schemata.Text.Utf8

/-! JSON as data that is read: scalars, lists, and objects whose members keep their order and may repeat. -/

namespace Schemata.Json

/-- Why a text is not the document that is read. -/
inductive Fault
  /-- The text ends where more is needed. -/
  | cutShort
  /-- It is not JSON. -/
  | malformed
  /-- It is JSON of another shape. -/
  | mistyped
  deriving DecidableEq, Repr

/-- What a reader gives: a result with the text behind it. -/
abbrev Reading (α : Type) := Except Fault (α × Text)

/-- A number as written. -/
structure Numeral where
  negative : Bool
  whole : Text
  fraction : Text
  exponentNegative : Bool
  exponent : Text
  deriving DecidableEq, Repr

inductive Tree
  | null
  | bool (b : Bool)
  | number (n : Numeral)
  | text (s : Text)
  | list (items : List Tree)
  | object (members : List (Text × Tree))

/-- The white space of JSON. -/
def isSpace (c : Char) : Bool := c == ' ' || c == '\n' || c == '\t' || c == '\r'

def skipSpace (s : Text) : Text := s.dropWhile isSpace

/-- The number that decimal digits write. -/
def ofDigits (digits : Text) : Nat := digits.foldl (fun n c => n * 10 + (c.toNat - '0'.toNat)) 0

namespace Numeral

/-- The number, if it is written with digits only. -/
def natural? (n : Numeral) : Option Nat :=
  if !n.negative && n.fraction.isEmpty && n.exponent.isEmpty then some (ofDigits n.whole) else none

/-- The least number that is rounded to infinity in double precision. -/
def doubleBound : Nat := Nat.pow 2 1024 - Nat.pow 2 970

/-- Whether the number is finite in double precision. Its digits tell, but for numbers next to the bound. -/
def isFinite (n : Numeral) : Bool :=
  let digits := ofDigits (n.whole ++ n.fraction)
  let size : Int := (decimal digits).length
  let exponent : Int := if n.exponentNegative then -(ofDigits n.exponent : Int) else ofDigits n.exponent
  let shift := exponent - n.fraction.length
  digits == 0 || size + shift < 309 ||
    (size + shift == 309 && digits * Nat.pow 10 shift.toNat < doubleBound * Nat.pow 10 (-shift).toNat)

end Numeral
end Schemata.Json
