import Schemata.Output.Value
import Schemata.Text.Word

/-! Values written in the compact line format: members as `key: value`, nested members two spaces deeper, lists with
    their length in brackets, and lists of like objects as tables with one row for each object. -/

namespace Schemata.Toon

/-! ### Scalars -/

/-- The number of bits a number needs above the 53 that a double keeps. -/
def excessBits (n : Nat) : Nat := Nat.log2 n - 52

/-- The double nearest to a number, as a number; of two equally near the one with an even last digit. -/
def roundToDouble (n : Nat) : Nat :=
  let unit := Nat.pow 2 (excessBits n)
  let q := n / unit
  let up := 2 * (n % unit) > unit || (2 * (n % unit) == unit && q % 2 == 1)
  (if up then q + 1 else q) * unit

/-- Takes a fraction off the front, if digits follow its point. -/
def skipFraction (s : Text) : Text :=
  match s with
  | '.' :: r => if (r.takeWhile isDigit).isEmpty then s else r.dropWhile isDigit
  | _ => s

/-- Whether a text is empty or an exponent: `e`, a sign or none, and digits. -/
def isExponent (s : Text) : Bool :=
  match s with
  | [] => true
  | 'e' :: r =>
    let digits := match r with
      | '+' :: t | '-' :: t => t
      | t => t
    !digits.isEmpty && digits.all isDigit
  | _ => false

/-- Whether a text reads as a number: a sign, digits, a fraction and an exponent, of which the digits must be. -/
def looksNumeric (s : Text) : Bool :=
  let digits := match s with
    | '-' :: r => r
    | r => r
  !(digits.takeWhile isDigit).isEmpty && isExponent (skipFraction (digits.dropWhile isDigit))

/-- The characters a plain string does not hold. -/
def isStructural (c : Char) : Bool :=
  [':', '"', '\\', '[', ']', '{', '}', '\n', '\r', '\t', ','].contains c

/-- Whether a string would be read otherwise if it stood without quotes. -/
def needsQuotes (s : Text) : Bool :=
  s.isEmpty || Text.trim s != s || s == "true" || s == "false" || s == "null" || looksNumeric s ||
    s.any isStructural || List.isPrefixOf ("- " : Text) s

def escape (c : Char) : Text :=
  if c == '\\' then ['\\', '\\']
  else if c == '"' then ['\\', '"']
  else if c == '\n' then ['\\', 'n']
  else if c == '\r' then ['\\', 'r']
  else if c == '\t' then ['\\', 't']
  else [c]

def string (s : Text) : Text := if needsQuotes s then "\"" ++ s.flatMap escape ++ "\"" else s

/-- The text of a value without parts. -/
def scalar? : Value → Option Text
  | .null => some "null"
  | .bool b => some (if b then "true" else "false")
  | .number n => some (decimal (roundToDouble n))
  | .text s => some (string s)
  | .list _ | .object _ => none

/-! ### Lists of like objects -/

/-- The scalars of an object whose keys are the given ones, in their order. -/
def row? (keys : List Text) : Value → Option (List Text)
  | .object members => if members.map Prod.fst == keys then members.mapM fun m => scalar? m.2 else none
  | _ => none

/-- The keys and rows of a list of objects that share their keys and hold scalars only. -/
def table? : List Value → Option (List Text × List (List Text))
  | .object members :: rest => do
    let keys := members.map Prod.fst
    let rows ← (.object members :: rest).mapM (row? keys)
    some (keys, rows)
  | _ => none

/-! ### Lines -/

def commas (parts : List Text) : Text := Text.join "," parts

/-- The head of a list: its key and its length. -/
def listHead (key : Text) (items : List Value) : Text := key ++ "[" ++ decimal items.length ++ "]"

mutual

/-- The lines of a member. Lines below the first stand at the depths given for rows and for deeper members. -/
def memberLines (rowDepth depth : Nat) (key : Text) : Value → List Text
  | .object members => (key ++ ":") :: membersLines (depth + 1) members
  | .list items =>
    match items.mapM scalar?, table? items with
    | some [], _ => [listHead key items ++ ":"]
    | some scalars, _ => [listHead key items ++ ": " ++ commas scalars]
    | none, some (keys, rows) =>
      (listHead key items ++ "\x7b" ++ commas keys ++ "\x7d:") :: rows.map fun row => indent rowDepth ++ commas row
    | none, none => (listHead key items ++ ":") :: itemsLines (depth + 1) items
  | .null => [key ++ ": null"]
  | .bool b => [key ++ ": " ++ (scalar? (.bool b)).getD []]
  | .number n => [key ++ ": " ++ (scalar? (.number n)).getD []]
  | .text s => [key ++ ": " ++ string s]

/-- The lines of an object's members at the given depth. -/
def membersLines (depth : Nat) : List (Text × Value) → List Text
  | [] => []
  | (key, v) :: rest =>
    ((memberLines (depth + 1) depth key v).modifyHead (indent depth ++ ·)) ++ membersLines depth rest

/-- The lines of list items at the given depth. An object's first member stands behind its dash, with table rows
    one level below the dash. -/
def itemsLines (depth : Nat) : List Value → List Text
  | [] => []
  | .object [] :: rest => (indent depth ++ "-") :: itemsLines depth rest
  | .object ((key, v) :: members) :: rest =>
    (memberLines (depth + 1) (depth + 1) key v).modifyHead ((indent depth ++ "- ") ++ ·) ++
      membersLines (depth + 1) members ++ itemsLines depth rest
  | .list items :: rest =>
    (memberLines (depth + 1) (depth + 1) [] (.list items)).modifyHead ((indent depth ++ "- ") ++ ·) ++
      itemsLines depth rest
  | v :: rest => (indent depth ++ "- " ++ (scalar? v).getD []) :: itemsLines depth rest

end

/-- An object as lines, its members by key. -/
def encode (v : Value) : Text :=
  match v.sortKeys with
  | .object members => Text.join "\n" (membersLines 0 members)
  | .list items => Text.join "\n" (memberLines 1 0 [] (.list items))
  | v => (scalar? v).getD []

end Schemata.Toon
