import Schemata.Output.Value

/-! Values written as JSON over several lines, with two spaces for each level. -/

namespace Schemata

/-- A digit of a hexadecimal number, in lower case. -/
def hexDigit (n : Nat) : Char := Nat.digitChar n

/-- A character inside a JSON string: quotes, backslashes and control characters are escaped. -/
def jsonEscape (c : Char) : Text :=
  if c == '"' then ['\\', '"']
  else if c == '\\' then ['\\', '\\']
  else if c == '\n' then ['\\', 'n']
  else if c == '\r' then ['\\', 'r']
  else if c == '\t' then ['\\', 't']
  else if c.toNat == 0x08 then ['\\', 'b']
  else if c.toNat == 0x0C then ['\\', 'f']
  else if c.toNat < 0x20 then ['\\', 'u', '0', '0', hexDigit (c.toNat / 16), hexDigit (c.toNat % 16)]
  else [c]

def jsonString (s : Text) : Text := "\"" ++ s.flatMap jsonEscape ++ "\""

namespace Value

/-- Items between brackets, each on lines of its own; brackets without items stay together. -/
def block (depth : Nat) (opening closing : Text) (items : List Text) : Text :=
  if items.isEmpty then opening ++ closing
  else opening ++ "\n" ++ Text.join ",\n" (items.map (indent (depth + 1) ++ ·)) ++ "\n" ++ indent depth ++ closing

mutual

/-- The value as JSON; its further lines stand at the given depth. -/
def pretty (depth : Nat) : Value → Text
  | null => "null"
  | bool b => if b then "true" else "false"
  | number n => decimal n
  | text s => jsonString s
  | list items => block depth "[" "]" (prettyItems (depth + 1) items)
  | object members => block depth "\x7b" "\x7d" (prettyMembers (depth + 1) members)

def prettyItems (depth : Nat) : List Value → List Text
  | [] => []
  | v :: rest => pretty depth v :: prettyItems depth rest

def prettyMembers (depth : Nat) : List (Text × Value) → List Text
  | [] => []
  | (key, v) :: rest => (jsonString key ++ ": " ++ pretty depth v) :: prettyMembers depth rest

end

end Value
end Schemata
