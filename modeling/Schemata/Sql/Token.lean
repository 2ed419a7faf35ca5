import Schemata.Text.Basic

/-! The tokens of SQL text. A text ends at its first NUL character. White space and comments separate tokens and
    are dropped. Characters above ASCII belong to names. -/

namespace Schemata.Sql

inductive TokenKind
  /-- A name or keyword without quotes. -/
  | word
  /-- A name in double quotes, backticks or brackets. -/
  | quotedName
  | string
  | blob
  | number
  /-- An operator, a bracket, a separator or a parameter. -/
  | symbol
  /-- White space or a comment. -/
  | blank
  /-- Characters that form no token. -/
  | bad
  deriving DecidableEq, Repr

/-- A token, its characters, and the number of characters before it. -/
structure Token where
  kind : TokenKind
  text : Text
  start : Nat
  deriving DecidableEq, Repr

/-! ### The extent of one token -/

/-- The characters that continue a name. -/
def isNameChar (c : Char) : Bool := c.isAlphanum || c == '_' || c == '$' || 0x80 ≤ c.toNat

def isSpace (c : Char) : Bool := c == ' ' || (9 ≤ c.toNat && c.toNat ≤ 13)

def isHexDigit (c : Char) : Bool := c.isDigit || ('a' ≤ c && c ≤ 'f') || ('A' ≤ c && c ≤ 'F')

/-- How many characters at the front satisfy `p`. -/
def spanLength (p : Char → Bool) (s : Text) : Nat := (s.takeWhile p).length

/-- How far a text reaches that ends in `q`, where a doubled `q` stands for one; none if it has no end. -/
def quotedLength? (q : Char) : Text → Option Nat
  | [] => none
  | [c] => if c == q then some 1 else none
  | c :: d :: s =>
    if c == q then (if d == q then (quotedLength? q s).map (· + 2) else some 1)
    else (quotedLength? q (d :: s)).map (· + 1)

/-- How far a text reaches that ends in the first `c`. -/
def closedLength? (c : Char) (s : Text) : Option Nat := (Text.cut? c s).map fun (a, _) => a.length + 1

/-- How far a fraction reaches, with its point. -/
def fractionLength (s : Text) : Nat :=
  match s with
  | '.' :: r => 1 + spanLength Char.isDigit r
  | _ => 0

/-- How far an exponent reaches, if it has digits. -/
def exponentLength (s : Text) : Nat :=
  match s with
  | e :: r =>
    let sign := match r with
      | '+' :: _ | '-' :: _ => 1
      | _ => 0
    let digits := spanLength Char.isDigit (r.drop sign)
    if (e == 'e' || e == 'E') && digits != 0 then 1 + sign + digits else 0
  | [] => 0

/-- How far a number reaches: hexadecimal, or decimal with a fraction and an exponent. -/
def numberLength (s : Text) : Nat :=
  match s with
  | '0' :: x :: d :: r =>
    if (x == 'x' || x == 'X') && isHexDigit d then 3 + spanLength isHexDigit r else decimalLength s
  | _ => decimalLength s
where
  decimalLength (s : Text) : Nat :=
    let whole := spanLength Char.isDigit s
    let point := fractionLength (s.drop whole)
    whole + point + exponentLength (s.drop (whole + point))

/-- A number, which no name may follow directly. -/
def number (s : Text) : TokenKind × Nat :=
  let n := numberLength s
  match spanLength isNameChar (s.drop n) with
  | 0 => (.number, n)
  | m => (.bad, n + m)

/-- Text between quotes; text without an end is no token. -/
def quoted (kind : TokenKind) (end? : Option Nat) (s : Text) : TokenKind × Nat :=
  match end? with
  | some n => (kind, n)
  | none => (.bad, s.length)

/-- A comment that ends in `*/` or with the text, read behind its `/*`. -/
def blockCommentLength (s : Text) : Nat := (Text.cutAt? "*/" s).elim s.length fun (a, _) => a.length + 2

/-- A blob behind its `x'`: pairs of hexadecimal digits. -/
def blob (s : Text) : TokenKind × Nat :=
  let n := spanLength isHexDigit s
  if s[n]? == some '\'' && n % 2 == 0 then (.blob, n + 1)
  else (.bad, (closedLength? '\'' s).getD s.length)

/-- The operators of two characters. -/
def isDouble (c d : Char) : Bool :=
  match c with
  | '=' => d == '='
  | '<' => d == '=' || d == '>' || d == '<'
  | '>' => d == '=' || d == '>'
  | '!' => d == '='
  | '|' => d == '|'
  | _ => false

/-- An operator or a single character. -/
def operator (c : Char) (s : Text) : TokenKind × Nat :=
  match s with
  | d :: _ => if isDouble c d then (.symbol, 1) else single
  | [] => single
where
  single : TokenKind × Nat :=
    if ['(', ')', ';', '+', '*', ',', '&', '~', '%', '=', '<', '>', '|'].contains c then (.symbol, 0) else (.bad, 0)

/-- The kind of the token that starts with `c`, and how many characters of `s` behind `c` belong to it. -/
def lexeme (c : Char) (s : Text) : TokenKind × Nat :=
  if isSpace c then (if c.toNat == 0x0B then (.bad, 0) else (.blank, spanLength isSpace s))
  else if c.toNat == 0xFEFF then (.blank, 0)
  else match c, s with
    | '-', '-' :: r => (.blank, 1 + spanLength (· != '\n') r)
    | '-', '>' :: '>' :: _ => (.symbol, 2)
    | '-', '>' :: _ => (.symbol, 1)
    | '-', _ => (.symbol, 0)
    | '/', '*' :: r => if r.isEmpty then (.symbol, 0) else (.blank, 1 + blockCommentLength r)
    | '/', _ => (.symbol, 0)
    | '\'', _ => quoted .string (quotedLength? '\'' s) s
    | '"', _ => quoted .quotedName (quotedLength? '"' s) s
    | '`', _ => quoted .quotedName (quotedLength? '`' s) s
    | '[', _ => quoted .quotedName (closedLength? ']' s) s
    | '?', _ => (.symbol, spanLength Char.isDigit s)
    | '.', d :: _ => if d.isDigit then behindFirst (number (c :: s)) else (.symbol, 0)
    | '.', [] => (.symbol, 0)
    | _, _ =>
      if c == '$' || c == '@' || c == '#' || c == ':' then
        (if spanLength isNameChar s == 0 then .bad else .symbol, spanLength isNameChar s)
      else if c.isDigit then behindFirst (number (c :: s))
      else if (c == 'x' || c == 'X') && s.head? == some '\'' then behindQuote (blob s.tail)
      else if isNameChar c then (.word, spanLength isNameChar s)
      else operator c s
where
  behindFirst (l : TokenKind × Nat) : TokenKind × Nat := (l.1, l.2 - 1)
  behindQuote (l : TokenKind × Nat) : TokenKind × Nat := (l.1, l.2 + 1)

/-! ### The tokens of a text -/

/-- All tokens, blank ones too, of a text that starts at the given place. -/
def lex (start : Nat) : Text → List Token
  | [] => []
  | c :: s =>
    let (kind, n) := lexeme c s
    ⟨kind, c :: s.take n, start⟩ :: lex (start + 1 + n) (s.drop n)
termination_by s => s.length
decreasing_by simp only [List.length_drop, List.length_cons]; omega

/-- The tokens that count, up to the first NUL character. -/
def tokens (s : Text) : List Token :=
  (lex 0 (s.takeWhile fun c => c.toNat != 0)).filter fun t => t.kind != .blank

namespace Token

/-- Whether the token is the given word, in any ASCII case. -/
def isWord (t : Token) (word : Text) : Bool := t.kind == .word && Text.sameFolded t.text word

/-- Whether the token is the given sign. -/
def isSign (t : Token) (sign : Text) : Bool := t.kind == .symbol && t.text == sign

end Token

/-! ### Names -/

/-- Words that are no names. -/
def reservedWords : List Text :=
  fromA ++ fromF ++ fromO
where
  fromA : List Text :=
    ["add", "all", "alter", "and", "as", "autoincrement", "between", "case", "check", "collate", "commit",
     "constraint", "create", "default", "deferrable", "delete", "distinct", "drop", "else", "escape", "except",
     "exists"]
  fromF : List Text :=
    ["foreign", "from", "group", "having", "in", "index", "insert", "intersect", "into", "is", "isnull", "join",
     "limit", "not", "nothing", "notnull", "null"]
  fromO : List Text :=
    ["on", "or", "order", "primary", "references", "returning", "select", "set", "table", "then", "to", "transaction",
     "union", "unique", "update", "using", "values", "when", "where"]

/-- Words that are names of tables and columns, but not of types. One of them is a value. -/
def joinWords : List Text := ["cross", "full", "indexed", "inner", "left", "natural", "outer", "right"]

/-- The text between quotes, with a doubled quote read as one. -/
def unquote (q : Char) : Text → Text
  | [] => []
  | [c] => if c == q then [] else [c]
  | c :: d :: s =>
    if c == q then (if d == q then q :: unquote q s else [])
    else c :: unquote q (d :: s)

namespace Token

def isReserved (t : Token) : Bool := reservedWords.contains (Text.lower t.text)

/-- The text inside the quotes of a quoted name or string. -/
def content (t : Token) : Text :=
  match t.text with
  | '[' :: s => s.dropLast
  | q :: s => unquote q s
  | [] => []

/-- The name that a token is of a table or column. -/
def name? (t : Token) : Option Text :=
  match t.kind with
  | .word => if t.isReserved then none else some t.text
  | .quotedName | .string => some t.content
  | _ => none

/-- The name that a token is of a type. -/
def typeName? (t : Token) : Option Text :=
  if t.kind == .word && joinWords.contains (Text.lower t.text) then none else t.name?

/-- Whether a token is a value as it stands. -/
def isLiteral (t : Token) : Bool :=
  t.kind == .number || t.kind == .string || t.kind == .blob || t.isWord "null"

end Token
end Schemata.Sql
