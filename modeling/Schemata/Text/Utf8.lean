import Schemata.Text.Basic

/-! Bytes and the texts they encode in UTF-8. Bytes that encode nothing are replaced, one replacement character for
    each longest beginning of a character. -/

namespace Schemata

abbrev Bytes := List UInt8

namespace Utf8

def encode (s : Text) : Bytes := s.flatMap String.utf8EncodeChar

/-- What a first byte calls for: the number of further bytes, the range of the next one, and its own share of the
    code point. -/
structure Lead where
  further : Nat
  low : Nat
  high : Nat
  share : Nat

def lead? (b : Nat) : Option Lead :=
  if b < 0x80 then some ⟨0, 0, 0, b⟩
  else if 0xC2 ≤ b && b ≤ 0xDF then some ⟨1, 0x80, 0xBF, b - 0xC0⟩
  else if b == 0xE0 then some ⟨2, 0xA0, 0xBF, 0⟩
  else if b == 0xED then some ⟨2, 0x80, 0x9F, 0xD⟩
  else if 0xE1 ≤ b && b ≤ 0xEF then some ⟨2, 0x80, 0xBF, b - 0xE0⟩
  else if b == 0xF0 then some ⟨3, 0x90, 0xBF, 0⟩
  else if 0xF1 ≤ b && b ≤ 0xF3 then some ⟨3, 0x80, 0xBF, b - 0xF0⟩
  else if b == 0xF4 then some ⟨3, 0x80, 0x8F, 4⟩
  else none

/-- Reads the further bytes of a character: its code point if all are there, and how many bytes belong to it. -/
def further (code low high : Nat) : Nat → Bytes → Option Nat × Nat
  | 0, _ => (some code, 0)
  | _ + 1, [] => (none, 0)
  | n + 1, b :: s =>
    if low ≤ b.toNat && b.toNat ≤ high then
      let (code, m) := further (code * 64 + (b.toNat - 0x80)) 0x80 0xBF n s
      (code, m + 1)
    else (none, 0)

/-- The character that starts with byte `b`, if it is whole, and how many of the bytes behind belong to it. -/
def first (b : UInt8) (s : Bytes) : Option Char × Nat :=
  match lead? b.toNat with
  | none => (none, 0)
  | some l =>
    let (code, n) := further l.share l.low l.high l.further s
    (code.map Char.ofNat, n)

/-- The characters of some bytes, with none for each place where there is none. -/
def characters : Bytes → List (Option Char)
  | [] => []
  | b :: s => (first b s).1 :: characters (s.drop (first b s).2)
termination_by s => s.length
decreasing_by simp only [List.length_drop, List.length_cons]; omega

/-- The text of some bytes, with replacement characters. -/
def decodeLossy (s : Bytes) : Text := (characters s).map fun c => c.getD '\uFFFD'

/-- The text of some bytes that are UTF-8 throughout. -/
def decode? (s : Bytes) : Option Text := (characters s).mapM id

end Utf8
end Schemata
