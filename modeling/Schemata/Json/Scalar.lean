import Schemata.Json.Basic

/-! Readers of JSON scalars. A value that is `kept` is read in full; in one that is not, the code units of strings and
    the size of numbers do not matter, and a number that is cut short is malformed. -/

namespace Schemata.Json

/-! ### Strings -/

def hexValue? (c : Char) : Option Nat :=
  if c.isDigit then some (c.toNat - '0'.toNat)
  else if 'a' ≤ c && c ≤ 'f' then some (c.toNat - 'a'.toNat + 10)
  else if 'A' ≤ c && c ≤ 'F' then some (c.toNat - 'A'.toNat + 10)
  else none

/-- The code unit of four hexadecimal digits, for which four bytes must be left. -/
def readUnit (s : Text) : Except Fault Nat :=
  if (Utf8.encode (s.take 4)).length < 4 then .error .cutShort
  else match (s.take 4).mapM hexValue? with
    | some digits => if digits.length = 4 then .ok (digits.foldl (fun n d => n * 16 + d) 0) else .error .malformed
    | none => .error .malformed

def isHighSurrogate (n : Nat) : Bool := 0xD800 ≤ n && n ≤ 0xDBFF

def isLowSurrogate (n : Nat) : Bool := 0xDC00 ≤ n && n ≤ 0xDFFF

/-- The character that a letter behind a backslash stands for. -/
def escapedChar? : Char → Option Char
  | '"' => some '"'
  | '\\' => some '\\'
  | '/' => some '/'
  | 'b' => some '\x08'
  | 'f' => some '\x0C'
  | 'n' => some '\n'
  | 'r' => some '\r'
  | 't' => some '\t'
  | _ => none

/-- The second half of a surrogate pair, written as an escape of its own. -/
def readLowSurrogate (s : Text) : Except Fault Nat :=
  match s with
  | [] | ['\\'] => .error .cutShort
  | '\\' :: 'u' :: r =>
    match readUnit r with
    | .ok n => if isLowSurrogate n then .ok n else .error .malformed
    | .error e => .error e
  | _ => .error .malformed

/-- The character of an escape behind its backslash, and how many characters the escape has there. -/
def readEscape (kept : Bool) (s : Text) : Except Fault (Char × Nat) :=
  match s with
  | [] => .error .cutShort
  | 'u' :: r =>
    match readUnit r with
    | .error e => .error e
    | .ok n =>
      if !kept then .ok ('\uFFFD', 5)
      else if isLowSurrogate n then .error .malformed
      else if isHighSurrogate n then
        match readLowSurrogate (r.drop 4) with
        | .ok low => .ok (Char.ofNat (0x10000 + (n - 0xD800) * 0x400 + (low - 0xDC00)), 11)
        | .error e => .error e
      else .ok (Char.ofNat n, 5)
  | c :: _ =>
    match escapedChar? c with
    | some d => .ok (d, 1)
    | none => .error .malformed

/-- The rest of a string behind its opening quote. -/
def readString (kept : Bool) : Text → Reading Text
  | [] => .error .cutShort
  | c :: s =>
    if c == '"' then .ok ([], s)
    else if c == '\\' then
      match readEscape kept s with
      | .error e => .error e
      | .ok (d, n) => (readString kept (s.drop n)).map fun (t, r) => (d :: t, r)
    else if c.toNat < 0x20 then .error .malformed
    else (readString kept s).map fun (t, r) => (c :: t, r)
termination_by s => s.length
decreasing_by all_goals (simp only [List.length_drop, List.length_cons]; omega)

/-! ### Numbers -/

/-- The digits at the front, of which there must be one. -/
def readDigits (kept : Bool) (s : Text) : Reading Text :=
  let digits := s.takeWhile Char.isDigit
  if !digits.isEmpty then .ok (digits, s.dropWhile Char.isDigit)
  else if kept && s.isEmpty then .error .cutShort
  else .error .malformed

/-- The digits before a point: a zero stands alone. -/
def readWhole (kept : Bool) (s : Text) : Reading Text :=
  match readDigits kept s with
  | .ok (digits, r) => if digits.head? == some '0' && 1 < digits.length then .error .malformed else .ok (digits, r)
  | .error e => .error e

def readFraction (kept : Bool) (s : Text) : Reading Text :=
  match s with
  | '.' :: r => readDigits kept r
  | _ => .ok ([], s)

/-- The exponent, and whether it is negative. -/
def readExponent (kept : Bool) (s : Text) : Reading (Bool × Text) :=
  match s with
  | c :: r =>
    if c == 'e' || c == 'E' then
      let signed := r.head? == some '-' || r.head? == some '+'
      (readDigits kept (if signed then r.tail else r)).map fun (digits, rest) => ((r.head? == some '-', digits), rest)
    else .ok ((false, []), s)
  | [] => .ok ((false, []), s)

def readNumber (kept : Bool) (s : Text) : Except Fault (Numeral × Text) := do
  let negative := s.head? == some '-'
  let (whole, s) ← readWhole kept (if negative then s.tail else s)
  let (fraction, s) ← readFraction kept s
  let ((exponentNegative, exponent), s) ← readExponent kept s
  let n : Numeral := ⟨negative, whole, fraction, exponentNegative, exponent⟩
  if kept && !n.isFinite then .error .malformed else .ok (n, s)

/-! ### Scalars -/

/-- The rest of a word, of which some letters are read. -/
def readWord (expected : Text) (s : Text) : Except Fault Text :=
  match Text.dropPrefix? expected s with
  | some r => .ok r
  | none => if s.isPrefixOf expected then .error .cutShort else .error .malformed

/-- The scalar at the front. -/
def readScalar (kept : Bool) (s : Text) : Reading Tree :=
  match s with
  | [] => .error .cutShort
  | 'n' :: r => (readWord "ull" r).map fun r => (.null, r)
  | 't' :: r => (readWord "rue" r).map fun r => (.bool true, r)
  | 'f' :: r => (readWord "alse" r).map fun r => (.bool false, r)
  | '"' :: r => (readString kept r).map fun (t, r) => (.text t, r)
  | c :: _ =>
    if c == '-' || c.isDigit then (readNumber kept s).map fun (n, r) => (.number n, r) else .error .malformed

end Schemata.Json
