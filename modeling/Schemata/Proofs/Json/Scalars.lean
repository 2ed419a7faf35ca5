import Mathlib.Tactic.IntervalCases
import Schemata.Json.Scalar
import Schemata.Proofs.Json.Layout

/-! Scalars are read back as they were written: strings character by character through their escapes, numbers by their
    digits, and `null`. A number ends only where another character follows, so a reader is asked for its result where
    the text behind it starts like white space or like the end of an item. -/

namespace Schemata.Json

/-- Whether the character may stand behind a value. -/
def endsValue (c : Char) : Bool := isSpace c || c == ',' || c == ']' || c == '\x7d'

/-- The text ends, or starts with a character that may stand behind a value. -/
def Delimited (text : Text) : Prop := ∀ c ∈ text.head?, endsValue c = true

theorem mem_of_endsValue {c : Char} (h : endsValue c = true) : c ∈ [' ', '\n', '\t', '\r', ',', ']', '\x7d'] := by
  simpa [endsValue, isSpace, or_assoc] using h

/-- What holds of no character that may stand behind a value does not hold of the first one of a delimited text. -/
theorem Delimited.not {p : Char → Bool} {c : Char} {rest : Text} (h : Delimited (c :: rest))
    (hp : [' ', '\n', '\t', '\r', ',', ']', '\x7d'].all (!p ·) = true) : p c = false := by
  simpa using List.all_eq_true.mp hp c (mem_of_endsValue (h c rfl))

theorem delimited_of_space {rest : Text} (h : ∀ c ∈ rest, isSpace c = true) : Delimited rest := fun c hc => by
  rw [endsValue, h c (List.mem_of_mem_head? hc)]
  rfl

/-- The text is delimited in front of a token that may stand behind a value. -/
theorem Laid.delimited {c : Char} {token text rest : Text} {tokens : List Text}
    (h : Laid ((c :: token) :: tokens) text rest) (hc : endsValue c = true) : Delimited text := by
  cases h with
  | @cons gap _ _ _ _ space _ =>
    cases gap with
    | nil =>
      rintro d ⟨⟩
      exact hc
    | cons d gap =>
      rintro e ⟨⟩
      rw [endsValue, space d List.mem_cons_self]
      rfl

/-- The reader takes the tokens for the result, whatever white space is between them, if they are delimited. -/
def Takes {α : Type} (read : Text → Reading α) (tokens : List Text) (a : α) : Prop :=
  ∀ text rest, Laid tokens text rest → Delimited rest → read (skipSpace text) = .ok (a, rest)

/-! ### Strings -/

/-- A character is written by a letter behind a backslash, by its number if it is a control character, or by itself. -/
theorem jsonEscape_cases (c : Char) :
    (∃ letter, jsonEscape c = ['\\', letter] ∧ letter ≠ 'u' ∧ escapedChar? letter = some c) ∨
      (c.toNat < 0x20 ∧ jsonEscape c = ['\\', 'u', '0', '0', hexDigit (c.toNat / 16), hexDigit (c.toNat % 16)]) ∨
      (c ≠ '"' ∧ c ≠ '\\' ∧ ¬c.toNat < 0x20 ∧ jsonEscape c = [c]) := by
  have hchar : ∀ {n : Nat}, c.toNat = n → c = Char.ofNat n := fun h => by rw [← h, Char.ofNat_toNat]
  unfold jsonEscape
  split_ifs with hquote hbackslash hfeed hreturn htab hback hform hcontrol
  · exact .inl ⟨_, rfl, by decide, by rw [beq_iff_eq.mp hquote]; rfl⟩
  · exact .inl ⟨_, rfl, by decide, by rw [beq_iff_eq.mp hbackslash]; rfl⟩
  · exact .inl ⟨_, rfl, by decide, by rw [beq_iff_eq.mp hfeed]; rfl⟩
  · exact .inl ⟨_, rfl, by decide, by rw [beq_iff_eq.mp hreturn]; rfl⟩
  · exact .inl ⟨_, rfl, by decide, by rw [beq_iff_eq.mp htab]; rfl⟩
  · exact .inl ⟨_, rfl, by decide, by rw [hchar (beq_iff_eq.mp hback)]; rfl⟩
  · exact .inl ⟨_, rfl, by decide, by rw [hchar (beq_iff_eq.mp hform)]; rfl⟩
  · exact .inr (.inl ⟨hcontrol, rfl⟩)
  · exact .inr (.inr ⟨by simpa using hquote, by simpa using hbackslash, hcontrol, rfl⟩)

/-- The four digits of a control character's number are read back. -/
theorem readUnit_control {n : Nat} (hn : n < 0x20) (s : Text) :
    readUnit ('0' :: '0' :: hexDigit (n / 16) :: hexDigit (n % 16) :: s) = .ok n := by
  have hdigits : ∀ n < 0x20, (Utf8.encode ['0', '0', hexDigit (n / 16), hexDigit (n % 16)]).length = 4 ∧
      ['0', '0', hexDigit (n / 16), hexDigit (n % 16)].mapM hexValue? = some [0, 0, n / 16, n % 16] := by
    decide +kernel
  obtain ⟨hlength, hvalues⟩ := hdigits n hn
  have htake : ('0' :: '0' :: hexDigit (n / 16) :: hexDigit (n % 16) :: s).take 4 =
      ['0', '0', hexDigit (n / 16), hexDigit (n % 16)] := rfl
  rw [readUnit, htake, hlength, if_neg (Nat.lt_irrefl 4), hvalues]
  have hvalue : [0, 0, n / 16, n % 16].foldl (fun n d => n * 16 + d) 0 = n := by
    simp only [List.foldl_cons, List.foldl_nil]
    omega
  simp only [hvalue, List.length_cons, List.length_nil, if_pos]

theorem readString_escape {s : Text} {c : Char} {n : Nat} (h : readEscape true s = .ok (c, n)) :
    readString true ('\\' :: s) = (readString true (s.drop n)).map fun (t, r) => (c :: t, r) := by
  rw [readString, if_neg (by decide), if_pos (by decide), h]

theorem readString_plain {c : Char} (hquote : c ≠ '"') (hbackslash : c ≠ '\\') (hplain : ¬c.toNat < 0x20) (s : Text) :
    readString true (c :: s) = (readString true s).map fun (t, r) => (c :: t, r) := by
  rw [readString, if_neg (by simpa using hquote), if_neg (by simpa using hbackslash), if_neg hplain]

theorem readEscape_letter {letter c : Char} (hletter : letter ≠ 'u') (h : escapedChar? letter = some c) (s : Text) :
    readEscape true (letter :: s) = .ok (c, 1) := by
  rw [readEscape, h]
  rintro rfl
  exact hletter rfl

theorem readEscape_control {c : Char} (hc : c.toNat < 0x20) (s : Text) :
    readEscape true ('u' :: '0' :: '0' :: hexDigit (c.toNat / 16) :: hexDigit (c.toNat % 16) :: s) = .ok (c, 5) := by
  have hlow : isLowSurrogate c.toNat = false := by
    rw [isLowSurrogate, Bool.and_eq_false_iff]
    exact .inl (decide_eq_false (by omega))
  have hhigh : isHighSurrogate c.toNat = false := by
    rw [isHighSurrogate, Bool.and_eq_false_iff]
    exact .inl (decide_eq_false (by omega))
  simp only [readEscape, readUnit_control hc, hlow, hhigh, Bool.not_true, Bool.false_eq_true, if_false,
    Char.ofNat_toNat]

/-- An escaped character is read as that character. -/
theorem readString_jsonEscape (c : Char) (s : Text) :
    readString true (jsonEscape c ++ s) = (readString true s).map fun (t, r) => (c :: t, r) := by
  rcases jsonEscape_cases c with ⟨letter, hescape, hletter, hchar⟩ | ⟨hcontrol, hescape⟩ |
    ⟨hquote, hbackslash, hplain, hescape⟩
  · rw [hescape]
    exact readString_escape (readEscape_letter hletter hchar s)
  · rw [hescape]
    exact readString_escape (readEscape_control hcontrol s)
  · rw [hescape]
    exact readString_plain hquote hbackslash hplain s

/-- What is written inside a string is read back up to the closing quote. -/
theorem readString_escaped (s r : Text) : readString true (s.flatMap jsonEscape ++ '"' :: r) = .ok (s, r) := by
  induction s with
  | nil => simp [readString]
  | cons c s ih =>
    rw [List.flatMap_cons, List.append_assoc, readString_jsonEscape, ih]
    rfl

theorem jsonString_eq (s : Text) : jsonString s = '"' :: (s.flatMap jsonEscape ++ ['"']) := by
  simp [jsonString, Text.ofString_eq]

theorem Laid.null {text rest : Text} (h : Laid [("null" : Text)] text rest) :
    skipSpace text = 'n' :: ("ull" ++ rest) := by
  have hnull : ("null" : Text) = 'n' :: ("ull" : Text) := by simp [Text.ofString_eq]
  rw [hnull] at h
  exact h.skipSpace_single (by decide)

/-- Behind white space, a written string is its quote, then what is read back as the string. -/
theorem Laid.readString {s text rest : Text} {tokens : List Text} (h : Laid (jsonString s :: tokens) text rest) :
    ∃ inside behind, skipSpace text = '"' :: inside ∧ readString true inside = .ok (s, behind) ∧
      Laid tokens behind rest := by
  rw [jsonString_eq] at h
  obtain ⟨behind, htext, hlaid⟩ := h.skipSpace_eq (by decide)
  refine ⟨_, behind, htext, ?_, hlaid⟩
  rw [List.append_assoc]
  exact readString_escaped s behind

/-! ### Numbers -/

theorem ofDigits_decimal (n : Nat) : ofDigits (decimal n) = n := by
  have hdigits := @Nat.ofDigitChars_ten_toDigits n
  rw [Nat.ofDigitChars_eq_foldl] at hdigits
  simpa only [ofDigits, decimal, Nat.mul_comm] using hdigits

theorem decimal_ne_nil (n : Nat) : decimal n ≠ [] := Nat.toDigits_ne_nil

theorem isDigit_of_mem_decimal {n : Nat} {c : Char} (h : c ∈ decimal n) : c.isDigit = true :=
  Nat.isDigit_of_mem_toDigits (by decide) (by decide) h

theorem exists_digit (n : Nat) : ∃ c digits, decimal n = c :: digits ∧ c.isDigit = true := by
  obtain ⟨c, digits, h⟩ := List.exists_cons_of_ne_nil (decimal_ne_nil n)
  exact ⟨c, digits, h, isDigit_of_mem_decimal (h ▸ List.mem_cons_self)⟩

theorem ne_of_isDigit {c d : Char} (hc : c.isDigit = true) (hd : d.isDigit = false) : c ≠ d := by
  rintro rfl
  rw [hc] at hd
  cases hd

theorem isSpace_of_isDigit {c : Char} (hc : c.isDigit = true) : isSpace c = false := by
  simp only [isSpace, Bool.or_eq_false_iff, beq_eq_false_iff_ne]
  exact ⟨⟨⟨ne_of_isDigit hc rfl, ne_of_isDigit hc rfl⟩, ne_of_isDigit hc rfl⟩, ne_of_isDigit hc rfl⟩

/-- A written number has no leading zero, but for zero itself. -/
theorem head?_decimal {n : Nat} (hn : n ≠ 0) : (decimal n).head? ≠ some '0' := by
  induction n using Nat.strongRecOn with
  | ind n ih =>
    rcases Nat.lt_or_ge n 10 with hlt | hge
    · rw [decimal, Nat.toDigits_of_lt_base hlt]
      interval_cases n <;> first | exact absurd rfl hn | decide
    · have hhead := ih (n / 10) (by omega) (by omega)
      rw [decimal, Nat.toDigits_of_base_le (by decide) hge]
      rwa [List.head?_append_of_ne_nil _ Nat.toDigits_ne_nil]

theorem readDigits_decimal (n : Nat) {rest : Text} (hrest : Delimited rest) :
    readDigits true (decimal n ++ rest) = .ok (decimal n, rest) := by
  have hdigits : ∀ c ∈ decimal n, c.isDigit = true := fun c hc => isDigit_of_mem_decimal hc
  have hbehind : rest.takeWhile Char.isDigit = [] ∧ rest.dropWhile Char.isDigit = rest := by
    cases rest with
    | nil => exact ⟨rfl, rfl⟩
    | cons c rest =>
      have hc : c.isDigit = false := hrest.not (p := Char.isDigit) rfl
      exact ⟨List.takeWhile_cons_of_neg (by simp [hc]), List.dropWhile_cons_of_neg (by simp [hc])⟩
  have hne : (decimal n).isEmpty = false := List.isEmpty_eq_false_iff.mpr (decimal_ne_nil n)
  rw [readDigits, List.takeWhile_append_of_pos hdigits, List.dropWhile_append_of_pos hdigits, hbehind.1, hbehind.2,
    List.append_nil, hne]
  rfl

theorem readFraction_of_delimited {rest : Text} (hrest : Delimited rest) : readFraction true rest = .ok ([], rest) := by
  cases rest with
  | nil => rfl
  | cons c rest =>
    have hc : (c == '.') = false := hrest.not (p := (· == '.')) rfl
    rw [readFraction]
    rintro r ⟨⟩
    cases hc

theorem readExponent_of_delimited {rest : Text} (hrest : Delimited rest) :
    readExponent true rest = .ok ((false, []), rest) := by
  cases rest with
  | nil => rfl
  | cons c rest =>
    have hc : (c == 'e' || c == 'E') = false := hrest.not (p := fun c => c == 'e' || c == 'E') rfl
    rw [readExponent, hc, if_neg Bool.false_ne_true]

/-- The numeral that writes a natural number. -/
def Numeral.ofNat (n : Nat) : Numeral := ⟨false, decimal n, [], false, []⟩

theorem Numeral.natural?_ofNat (n : Nat) : (ofNat n).natural? = some n := by
  simp [natural?, ofNat, ofDigits_decimal]

/-- Numbers of up to 308 digits are finite in double precision. -/
theorem Numeral.isFinite_ofNat {n : Nat} (hn : (decimal n).length < 309) : (ofNat n).isFinite = true := by
  have hsize : ((decimal n).length : Int) + (0 - ([] : Text).length) < 309 := by
    rw [List.length_nil]
    omega
  simp only [isFinite, ofNat, List.append_nil, ofDigits_decimal]
  rw [Bool.or_eq_true, Bool.or_eq_true]
  exact .inl (.inr (decide_eq_true hsize))

/-- A written number is read back where it is delimited. -/
theorem readNumber_decimal {n : Nat} (hn : (Numeral.ofNat n).isFinite = true) {rest : Text} (hrest : Delimited rest) :
    readNumber true (decimal n ++ rest) = .ok (.ofNat n, rest) := by
  have hsign : ((decimal n ++ rest).head? == some '-') = false := by
    rw [List.head?_append_of_ne_nil _ (decimal_ne_nil n), Bool.eq_false_iff]
    intro h
    have hdigit := isDigit_of_mem_decimal (List.mem_of_head? (beq_iff_eq.mp h))
    cases hdigit
  have hzero : ((decimal n).head? == some '0' && 1 < (decimal n).length) = false := by
    by_cases hn : n = 0
    · subst hn
      rfl
    · rw [Bool.and_eq_false_iff]
      exact .inl (by simpa using head?_decimal hn)
  have hwhole : readWhole true (decimal n ++ rest) = .ok (decimal n, rest) := by
    rw [readWhole, readDigits_decimal n hrest]
    simp only [hzero]
    rfl
  rw [readNumber, hsign]
  have hfinite : (true && !(Numeral.ofNat n).isFinite) = false := by rw [hn]; rfl
  simp only [Bool.false_eq_true, if_false, hwhole, bind, Except.bind, readFraction_of_delimited hrest,
    readExponent_of_delimited hrest]
  rw [Numeral.ofNat] at hfinite ⊢
  rw [hfinite]
  rfl

end Schemata.Json
