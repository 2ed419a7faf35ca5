/-! Texts as lists of characters, and the cuts the rest of the library makes in them: trimming, lines,
    blank-separated words, and the two sides of the first separator. -/

namespace Schemata

abbrev Text := List Char

/-- A literal as a text. It unfolds only on demand, so that laws about `++` do not look into literals. -/
@[irreducible] def Text.ofString (s : String) : Text := s.toList

instance : Coe String Text := ⟨Text.ofString⟩

theorem Text.ofString_eq (s : String) : Text.ofString s = s.toList := by unfold Text.ofString; rfl

/-- Unicode White_Space. -/
def isBlank (c : Char) : Bool :=
  let n := c.toNat
  (9 ≤ n && n ≤ 13) || n == 0x20 || n == 0x85 || n == 0xA0 || n == 0x1680 || (0x2000 ≤ n && n ≤ 0x200A)
    || n == 0x2028 || n == 0x2029 || n == 0x202F || n == 0x205F || n == 0x3000

/-- The decimal digits of a number. -/
def decimal (n : Nat) : Text := Nat.toDigits 10 n

namespace Text

def trimStart (s : Text) : Text := s.dropWhile isBlank

def trimEnd (s : Text) : Text := (s.reverse.dropWhile isBlank).reverse

def trim (s : Text) : Text := trimEnd (trimStart s)

def allBlank (s : Text) : Bool := s.all isBlank

/-- ASCII letters in lower case; every other character as it is. -/
def lower (s : Text) : Text := s.map Char.toLower

/-- ASCII letters in upper case; every other character as it is. -/
def upperAscii (s : Text) : Text := s.map Char.toUpper

/-- Equal up to the case of ASCII letters. -/
def sameFolded (a b : Text) : Bool := lower a == lower b

/-- Whether the one text does not stand behind the other in the order by code points. -/
def upTo (a b : Text) : Bool := !List.lex b a fun x y => x.toNat < y.toNat

def join (sep : Text) (parts : List Text) : Text := List.intercalate sep parts

/-- The text without the given beginning. -/
def dropPrefix? (start s : Text) : Option Text := if start.isPrefixOf s then some (s.drop start.length) else none

theorem append_dropPrefix? {start s r : Text} (h : dropPrefix? start s = some r) : start ++ r = s := by
  unfold dropPrefix? at h
  split at h
  · rename_i hp
    cases h
    exact List.prefix_iff_eq_append.mp (List.isPrefixOf_iff_prefix.mp hp)
  · cases h

/-- Whether `part` stands somewhere in the text. -/
def contains (part : Text) : Text → Bool
  | [] => part.isEmpty
  | c :: s => part.isPrefixOf (c :: s) || contains part s

/-- What stands before and after the first `c`. -/
def cut? (c : Char) : Text → Option (Text × Text)
  | [] => none
  | x :: s => if x == c then some ([], s) else (cut? c s).map fun (a, b) => (x :: a, b)

theorem append_cut? {c : Char} {s a b : Text} (h : cut? c s = some (a, b)) : a ++ c :: b = s := by
  induction s generalizing a with
  | nil => simp [cut?] at h
  | cons x s ih =>
    unfold cut? at h
    split at h
    · rename_i hx
      cases h
      rw [beq_iff_eq.mp hx, List.nil_append]
    · obtain ⟨⟨a', b'⟩, hc, he⟩ := Option.map_eq_some_iff.mp h
      cases he
      rw [List.cons_append, ih hc]

/-- What stands before and after the first place where `sep` begins. -/
def cutAt? (sep : Text) : Text → Option (Text × Text)
  | [] => if sep.isEmpty then some ([], []) else none
  | x :: s =>
    match dropPrefix? sep (x :: s) with
    | some rest => some ([], rest)
    | none => (cutAt? sep s).map fun (a, b) => (x :: a, b)

theorem append_cutAt? {sep s a b : Text} (h : cutAt? sep s = some (a, b)) : a ++ (sep ++ b) = s := by
  induction s generalizing a with
  | nil =>
    unfold cutAt? at h
    split at h
    · rename_i he
      cases h
      simp [List.isEmpty_iff.mp he]
    · cases h
  | cons x s ih =>
    unfold cutAt? at h
    split at h
    · rename_i r hr
      cases h
      rw [List.nil_append]
      exact append_dropPrefix? hr
    · obtain ⟨⟨a', b'⟩, hc, he⟩ := Option.map_eq_some_iff.mp h
      cases he
      rw [List.cons_append, ih hc]

/-- The number of line feeds. -/
def newlines (s : Text) : Nat := s.count '\n'

def dropReturn (line : Text) : Text := if line.getLast? == some '\r' then line.dropLast else line

/-- Lines from the pieces between line feeds: every piece but the last was ended by one. -/
def endLines : List Text → List Text
  | [] => []
  | [final] => if final.isEmpty then [] else [final]
  | line :: rest => dropReturn line :: endLines rest

/-- The lines of a text, each without its line feed and one carriage return before that. A text that
    ends in a line feed has no empty last line. -/
def lines (s : Text) : List Text := endLines (s.splitOn '\n')

/-- The maximal stretches without blanks. -/
def words (s : Text) : List Text := (s.splitOnP isBlank).filter fun w => !w.isEmpty

end Text
end Schemata
