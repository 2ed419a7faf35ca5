import Schemata.Text.Basic

/-! Structured output before it is written: scalars, lists, and objects whose members have an order. -/

namespace Schemata

inductive Value
  | null
  | bool (b : Bool)
  | number (n : Nat)
  | text (s : Text)
  | list (items : List Value)
  | object (members : List (Text × Value))

namespace Value

/-- Absent values are null. -/
def ofOption {α : Type} (f : α → Value) : Option α → Value
  | some a => f a
  | none => null

mutual

/-- The value with the members of every object by key, compared by code points. -/
def sortKeys : Value → Value
  | list items => list (sortItems items)
  | object members => object ((sortMembers members).mergeSort fun a b => Text.upTo a.1 b.1)
  | v => v

def sortItems : List Value → List Value
  | [] => []
  | v :: rest => sortKeys v :: sortItems rest

def sortMembers : List (Text × Value) → List (Text × Value)
  | [] => []
  | (key, v) :: rest => (key, sortKeys v) :: sortMembers rest

end

end Value

/-- Blanks in front of a line, two for each level. -/
def indent (depth : Nat) : Text := List.replicate (2 * depth) ' '

end Schemata
