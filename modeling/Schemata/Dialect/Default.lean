import Schemata.Text.Basic

/-! The value of a `default:` constraint, as written and as SQL. -/

namespace Schemata

inductive DefaultValue
  /-- A value in double or single quotes, without them. -/
  | quoted (value : Text)
  /-- A value in backticks, trimmed inside them: SQL as it is. -/
  | expression (value : Text)
  /-- Any other value. -/
  | bare (value : Text)
  deriving DecidableEq, Repr

/-- The first character and what it encloses, for a text of two or more characters that ends as it begins. -/
def Text.enclosed? : Text → Option (Char × Text)
  | [] => none
  | c :: s => if s.getLast? == some c then some (c, s.dropLast) else none

/-- An SQL string: single quotes around the value, each quote inside written twice. -/
def sqlLiteral (value : Text) : Text :=
  "'" ++ value.flatMap (fun c => if c == '\'' then ['\'', '\''] else [c]) ++ "'"

namespace DefaultValue

def parse (raw : Text) : DefaultValue :=
  let value := Text.trim raw
  match Text.enclosed? value with
  | some ('"', inner) => quoted inner
  | some ('\'', inner) => quoted inner
  | some ('`', inner) => expression (Text.trim inner)
  | _ => bare value

/-- The value in a `DEFAULT` clause. A bare value is a string on a column of a text type, and SQL on others. -/
def render (textLike : Bool) : DefaultValue → Text
  | quoted value => sqlLiteral value
  | expression value => value
  | bare value => if textLike then sqlLiteral value else value

end DefaultValue
end Schemata
