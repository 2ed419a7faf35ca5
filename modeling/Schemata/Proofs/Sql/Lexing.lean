import Schemata.Proofs.Text.Basic
import Schemata.Dialect.Default
import Schemata.Sql.Token

/-! The tokens of texts that are put together. A name is one word, and a digit, a sign or a string one token, whatever
    follows it, as long as that does not continue it; a space is none. A string whose value holds a NUL character ends
    the text before it is closed, and is no token. -/

namespace Schemata

namespace Sql
open Text

/-! ### Characters of names -/

/-- The characters of names that mean nothing else at the front of a token. -/
def isBare (c : Char) : Bool := isNameChar c && c != '$' && c.toNat != 0xFEFF

theorem isNameChar_of_isBare {c : Char} (h : isBare c = true) : isNameChar c = true := by
  simp only [isBare, Bool.and_eq_true] at h
  exact h.1.1

theorem ne_of_isBare {c d : Char} (h : isBare c = true) (hd : isBare d = false) : c ≠ d := by
  rintro rfl
  rw [hd] at h
  cases h

theorem isBare_of_isWord {c : Char} (h : isWord c = true) : isBare c = true := by
  have hne : ∀ d, isWord d = false → c ≠ d := by
    rintro d hd rfl
    rw [hd] at h
    cases h
  have hname : isNameChar c = true := by
    unfold isWord at h
    unfold isNameChar
    split at h
    · rw [Bool.or_eq_true] at h
      rcases h with h | h <;> simp [h]
    · rename_i hascii
      simp [Nat.not_lt.mp hascii]
  have hmark : c.toNat ≠ 0xFEFF := fun hc =>
    hne (Char.ofNat 0xFEFF) (by decide +kernel) (by rw [← hc, Char.ofNat_toNat])
  simp [isBare, hname, hmark, hne '$' (by decide)]

theorem isBare_of_isName {name : Text} (h : IsName name) : ∀ c ∈ name, isBare c = true := fun c hc =>
  isBare_of_isWord (h.word c hc)

theorem toNat_ne_zero_of_isBare {c : Char} (h : isBare c = true) : (c.toNat != 0) = true := by
  rw [bne_iff_ne]
  intro hc
  exact ne_of_isBare (d := Char.ofNat 0) h (by decide) (by rw [← hc, Char.ofNat_toNat])

theorem isBare_of_isDigit {c : Char} (h : c.isDigit = true) : isBare c = true := by
  have hbounds : 48 ≤ c.toNat ∧ c.toNat ≤ 57 := by simpa [Char.isDigit, UInt32.le_iff_toNat_le] using h
  have hdollar : c ≠ '$' := by
    rintro rfl
    exact absurd h (by decide)
  simp only [isBare, isNameChar, Char.isAlphanum, h, Bool.or_true, Bool.true_or, Bool.true_and, Bool.and_eq_true,
    bne_iff_ne]
  exact ⟨hdollar, by omega⟩

theorem isSpace_of_isBare {c : Char} (h : isBare c = true) : isSpace c = false := by
  have hcodes : ∀ n ∈ [9, 10, 11, 12, 13, 0x20], isBare (Char.ofNat n) = false := by decide
  cases hspace : isSpace c with
  | false => rfl
  | true =>
    have hcode : c.toNat ∈ [9, 10, 11, 12, 13, 0x20] := by
      simp only [isSpace, Bool.or_eq_true, Bool.and_eq_true, decide_eq_true_eq, beq_iff_eq] at hspace
      rcases hspace with rfl | hspace
      · decide
      · simp only [List.mem_cons, List.not_mem_nil, or_false]
        omega
    rw [← h, ← hcodes c.toNat hcode, Char.ofNat_toNat]

/-! ### One token at the front -/

/-- The characters that a name, a number or a string at the end of a text would go on with. -/
def continues (c : Char) : Bool := isNameChar c || c == '\'' || c == '.'

theorem stops_imp {p q : Char → Bool} {r : Text} (h : Stops q r) (hpq : ∀ c, p c = true → q c = true) : Stops p r :=
  fun c hc => by
    cases hp : p c with
    | false => rfl
    | true =>
      rw [← h c hc, hpq c hp]

theorem stops_isNameChar {r : Text} (h : Stops continues r) : Stops isNameChar r :=
  stops_imp h fun c hc => by simp [continues, hc]

theorem head?_ne_of_stops {r : Text} (h : Stops continues r) {c : Char} (hc : continues c = true) : r.head? ≠ some c :=
  fun hr => by
    rw [h c hr] at hc
    cases hc

theorem spanLength_append {p : Char → Bool} {w r : Text} (hw : ∀ c ∈ w, p c = true) (hr : Stops p r) :
    spanLength p (w ++ r) = w.length := by
  rw [spanLength, takeWhile_run hw hr]

theorem lexeme_of_isBare {c : Char} (hc : isBare c = true) (s : Text) :
    lexeme c s =
      if c.isDigit then lexeme.behindFirst (number (c :: s))
      else if (c == 'x' || c == 'X') && s.head? == some '\'' then lexeme.behindQuote (blob s.tail)
      else (.word, spanLength isNameChar s) := by
  have hmark : (c.toNat == 0xFEFF) = false := by
    simp only [isBare, Bool.and_eq_true, bne_iff_ne] at hc
    exact beq_eq_false_iff_ne.mpr hc.2
  have hsign : ∀ {d}, isBare d = false → c ≠ d := ne_of_isBare hc
  have hrest : (c == '$' || c == '@' || c == '#' || c == ':') = false := by
    simp [hsign (d := '$') (by decide), hsign (d := '@') (by decide), hsign (d := '#') (by decide),
      hsign (d := ':') (by decide)]
  unfold lexeme
  rw [isSpace_of_isBare hc, if_neg Bool.false_ne_true, hmark, if_neg Bool.false_ne_true]
  -- Each other row of the table starts with one of the characters that `c` differs from.
  split
  all_goals try exact absurd rfl (hsign (by decide))
  rw [hrest, if_neg Bool.false_ne_true, isNameChar_of_isBare hc, if_pos rfl]

theorem lexeme_word {c : Char} {w r : Text} (hc : isBare c = true) (hdigit : c.isDigit = false)
    (hw : ∀ x ∈ w, isBare x = true) (hr : Stops continues r) : lexeme c (w ++ r) = (.word, w.length) := by
  have hblob : ((c == 'x' || c == 'X') && (w ++ r).head? == some '\'') = false := by
    rw [Bool.and_eq_false_iff, beq_eq_false_iff_ne]
    right
    cases w with
    | nil => exact head?_ne_of_stops hr (by decide)
    | cons x w => simpa using ne_of_isBare (d := '\'') (hw x List.mem_cons_self) (by decide)
  rw [lexeme_of_isBare hc, if_neg (by simp [hdigit]), hblob, if_neg Bool.false_ne_true,
    spanLength_append (fun x hx => isNameChar_of_isBare (hw x hx)) (stops_isNameChar hr)]

theorem kind_lexeme_digit {c : Char} (hdigit : c.isDigit = true) (s : Text) :
    (lexeme c s).1 = .number ∨ (lexeme c s).1 = .bad := by
  rw [lexeme_of_isBare (isBare_of_isDigit hdigit), if_pos hdigit, lexeme.behindFirst, number]
  split
  · exact Or.inl rfl
  · exact Or.inr rfl

theorem continues_of_isDigit {c : Char} (h : c.isDigit = true) : continues c = true := by
  simp [continues, isNameChar, Char.isAlphanum, h]

/-- A single sign is a token by itself, whatever follows. -/
theorem lexeme_sign {c : Char} (hc : c ∈ ['(', ')', ',']) (s : Text) : lexeme c s = (.symbol, 0) := by
  simp only [List.mem_cons, List.not_mem_nil, or_false] at hc
  rcases hc with rfl | rfl | rfl <;> cases s <;> rfl

/-! ### Strings -/

/-- The value of a string with each quote written twice. -/
def doubled (value : Text) : Text := value.flatMap fun c => if c == '\'' then ['\'', '\''] else [c]

theorem doubled_cons (c : Char) (value : Text) :
    doubled (c :: value) = (if c == '\'' then ['\'', '\''] else [c]) ++ doubled value := List.flatMap_cons

theorem sqlLiteral_eq (value : Text) : sqlLiteral value = '\'' :: (doubled value ++ ['\'']) := by
  rw [sqlLiteral, ofString_eq]
  rfl

theorem quotedLength?_cons {c : Char} (hc : c ≠ '\'') (s : Text) :
    quotedLength? '\'' (c :: s) = (quotedLength? '\'' s).map (· + 1) := by
  cases s with
  | nil => simp [quotedLength?, hc]
  | cons d s => simp [quotedLength?, hc]

/-- A quote written twice does not close a string. -/
theorem quotedLength?_doubled (value s : Text) :
    quotedLength? '\'' (doubled value ++ s) = (quotedLength? '\'' s).map (· + (doubled value).length) := by
  induction value with
  | nil => simp [doubled]
  | cons c value ih =>
    rw [doubled_cons]
    by_cases hc : c = '\''
    · subst hc
      show quotedLength? '\'' ('\'' :: '\'' :: (doubled value ++ s)) = _
      simp [quotedLength?, ih, Function.comp_def, Nat.add_assoc]
    · rw [if_neg (by simpa using hc), List.append_assoc, List.singleton_append, quotedLength?_cons hc, ih,
        Option.map_map]
      simp [Function.comp_def, Nat.add_assoc]

theorem quotedLength?_close {r : Text} (hr : Stops continues r) : quotedLength? '\'' ('\'' :: r) = some 1 := by
  cases r with
  | nil => rfl
  | cons d r =>
    have hd : d ≠ '\'' := fun h => head?_ne_of_stops hr (c := '\'') (by decide) (congrArg some h)
    simp [quotedLength?, hd]

theorem lexeme_string (value : Text) {r : Text} (hr : Stops continues r) :
    lexeme '\'' (doubled value ++ '\'' :: r) = (.string, (doubled value).length + 1) := by
  have hlength : quotedLength? '\'' (doubled value ++ '\'' :: r) = some ((doubled value).length + 1) := by
    rw [quotedLength?_doubled, quotedLength?_close hr, Option.map_some, Nat.add_comm]
  show quoted .string (quotedLength? '\'' (doubled value ++ '\'' :: r)) _ = _
  rw [hlength, quoted]

theorem lexeme_open_string (value : Text) : lexeme '\'' (doubled value) = (.bad, (doubled value).length) := by
  have hlength : quotedLength? '\'' (doubled value) = none := by
    rw [← List.append_nil (doubled value), quotedLength?_doubled]
    rfl
  show quoted .string (quotedLength? '\'' (doubled value)) _ = _
  rw [hlength, quoted]

/-! ### The tokens of a text from its front on -/

/-- What is read of a text: it ends at its first NUL character. -/
def untilNul (s : Text) : Text := s.takeWhile fun c => c.toNat != 0

/-- The tokens of a text that starts at the given place. -/
def tokensFrom (start : Nat) (s : Text) : List Token := (lex start (untilNul s)).filter fun t => t.kind != .blank

theorem tokensFrom_nil (n : Nat) : tokensFrom n [] = [] := by
  rw [tokensFrom, untilNul, List.takeWhile_nil, lex, List.filter_nil]

theorem tokens_eq (s : Text) : tokens s = tokensFrom 0 s := rfl

theorem untilNul_append {a : Text} (ha : ∀ c ∈ a, (c.toNat != 0) = true) (r : Text) :
    untilNul (a ++ r) = a ++ untilNul r := List.takeWhile_append_of_pos ha

theorem untilNul_cons {c : Char} (hc : (c.toNat != 0) = true) (r : Text) : untilNul (c :: r) = c :: untilNul r :=
  List.takeWhile_cons_of_pos hc

theorem stops_untilNul {p : Char → Bool} {r : Text} (hr : Stops p r) : Stops p (untilNul r) := by
  cases r with
  | nil => exact hr
  | cons c r =>
    unfold untilNul
    rw [List.takeWhile_cons]
    split
    · exact stops_cons.mpr (stops_cons.mp hr)
    · exact Stops.nil

/-- The first token of a text, which the given characters make up. -/
theorem tokensFrom_token {kind : TokenKind} {c : Char} {w : Text} (hnul : ∀ x ∈ c :: w, (x.toNat != 0) = true)
    (hkind : kind ≠ .blank) {r : Text} (h : lexeme c (w ++ untilNul r) = (kind, w.length)) (n : Nat) :
    tokensFrom n (c :: w ++ r) = ⟨kind, c :: w, n⟩ :: tokensFrom (n + 1 + w.length) r := by
  rw [tokensFrom, untilNul_append hnul, List.cons_append, lex, h]
  dsimp only
  rw [List.filter_cons_of_pos (by simpa using hkind), List.take_left, List.drop_left]
  rfl

/-- A name that starts with no digit is one word. -/
theorem tokensFrom_word {c : Char} {w r : Text} (hw : ∀ x ∈ c :: w, isBare x = true) (hdigit : c.isDigit = false)
    (hr : Stops continues r) (n : Nat) :
    tokensFrom n (c :: w ++ r) = ⟨.word, c :: w, n⟩ :: tokensFrom (n + 1 + w.length) r := by
  obtain ⟨hc, hrest⟩ := List.forall_mem_cons.mp hw
  exact tokensFrom_token (fun x hx => toNat_ne_zero_of_isBare (hw x hx)) (by decide)
    (lexeme_word hc hdigit hrest (stops_untilNul hr)) n

/-- Whether a text is a word by itself, whatever follows. -/
def isPlain (w : Text) : Bool := w.all isBare && w.head?.any fun c => !c.isDigit

theorem isPlain_cons {c : Char} {w : Text} :
    isPlain (c :: w) = true ↔ (∀ x ∈ c :: w, isBare x = true) ∧ c.isDigit = false := by
  simp [isPlain]

theorem tokensFrom_plain {w r : Text} (hw : isPlain w = true) (hr : Stops continues r) (n : Nat) :
    tokensFrom n (w ++ r) = ⟨.word, w, n⟩ :: tokensFrom (n + w.length) r := by
  cases w with
  | nil => cases hw
  | cons c w =>
    obtain ⟨hbare, hdigit⟩ := isPlain_cons.mp hw
    rw [tokensFrom_word hbare hdigit hr, List.length_cons, Nat.add_assoc, Nat.add_comm 1]

theorem tokensFrom_cons {c : Char} (hnul : (c.toNat != 0) = true) (s : Text) (n : Nat) :
    tokensFrom n (c :: s) =
      (⟨(lexeme c (untilNul s)).1, c :: (untilNul s).take (lexeme c (untilNul s)).2, n⟩ ::
        lex (n + 1 + (lexeme c (untilNul s)).2) ((untilNul s).drop (lexeme c (untilNul s)).2)).filter
          fun t => t.kind != .blank := by
  rw [tokensFrom, untilNul_cons hnul, lex]

theorem tokensFrom_digit {c : Char} (hdigit : c.isDigit = true) (s : Text) (n : Nat) :
    ∃ t rest, tokensFrom n (c :: s) = t :: rest ∧ (t.kind = .number ∨ t.kind = .bad) := by
  have hkind := kind_lexeme_digit hdigit (untilNul s)
  rw [tokensFrom_cons (toNat_ne_zero_of_isBare (isBare_of_isDigit hdigit)),
    List.filter_cons_of_pos (by rcases hkind with h | h <;> simp [h])]
  exact ⟨_, _, rfl, hkind⟩

theorem tokensFrom_sign {c : Char} (hc : c ∈ ['(', ')', ',']) (r : Text) (n : Nat) :
    tokensFrom n (c :: r) = ⟨.symbol, [c], n⟩ :: tokensFrom (n + 1) r :=
  tokensFrom_token (w := []) (List.forall_mem_singleton.mpr (by
    simp only [List.mem_cons, List.not_mem_nil, or_false] at hc
    rcases hc with rfl | rfl | rfl <;> rfl)) (by decide) (lexeme_sign hc _) n

theorem tokensFrom_spaces {w r : Text} (hw : ∀ x ∈ w, x = ' ') (hr : Stops isSpace r) (n : Nat) :
    tokensFrom n (w ++ r) = tokensFrom (n + w.length) r := by
  cases w with
  | nil => rfl
  | cons c w =>
    obtain ⟨rfl, hrest⟩ := List.forall_mem_cons.mp hw
    have hlexeme : lexeme ' ' (w ++ untilNul r) = (.blank, w.length) := by
      have hspaces : ∀ x ∈ w, isSpace x = true := fun x hx => by
        rw [hrest x hx]
        rfl
      show (TokenKind.blank, spanLength isSpace (w ++ untilNul r)) = _
      rw [spanLength_append hspaces (stops_untilNul hr)]
    have hnul : ∀ x ∈ w, (x.toNat != 0) = true := fun x hx => by
      rw [hrest x hx]
      rfl
    rw [List.cons_append, tokensFrom_cons (by decide), untilNul_append hnul, hlexeme]
    dsimp only
    rw [List.filter_cons_of_neg (by simp), List.drop_left, List.length_cons, Nat.add_comm w.length, ← Nat.add_assoc]
    rfl

theorem tokensFrom_space {r : Text} (hr : Stops isSpace r) (n : Nat) : tokensFrom n (' ' :: r) = tokensFrom (n + 1) r :=
  tokensFrom_spaces (w := [' ']) (by simp) hr n

theorem tokensFrom_plain_space {w r : Text} (hw : isPlain w = true) (hr : Stops isSpace r) (n : Nat) :
    tokensFrom n (w ++ ' ' :: r) = ⟨.word, w, n⟩ :: tokensFrom (n + w.length + 1) r := by
  rw [tokensFrom_plain hw (stops_cons.mpr (by decide)), tokensFrom_space hr]

theorem stops_isSpace_of_isBare {w r : Text} (hne : w ≠ []) (hw : ∀ x ∈ w, isBare x = true) :
    Stops isSpace (w ++ r) := by
  cases w with
  | nil => exact absurd rfl hne
  | cons c w => exact stops_cons.mpr (isSpace_of_isBare (hw c List.mem_cons_self))

/-- What is made of a name's characters is a word by itself unless it starts with a digit. -/
theorem isPlain_or_digit {w : Text} (hne : w ≠ []) (hw : ∀ x ∈ w, isBare x = true) :
    isPlain w = true ∨ ∃ c s, w = c :: s ∧ c.isDigit = true := by
  cases w with
  | nil => exact absurd rfl hne
  | cons c s =>
    cases hdigit : c.isDigit with
    | false => exact .inl (isPlain_cons.mpr ⟨hw, hdigit⟩)
    | true => exact .inr ⟨c, s, rfl, hdigit⟩

theorem mem_doubled {value : Text} {c : Char} : c ∈ doubled value ↔ c ∈ value := by
  induction value with
  | nil => rfl
  | cons d value ih =>
    rw [doubled_cons, List.mem_append, ih, List.mem_cons]
    split <;> simp_all

theorem untilNul_doubled (value : Text) : untilNul (doubled value) = doubled (untilNul value) := by
  induction value with
  | nil => rfl
  | cons c value ih =>
    by_cases hc : (c.toNat != 0) = true
    · have hfront : ∀ x ∈ (if c == '\'' then ['\'', '\''] else [c]), (x.toNat != 0) = true := by
        split <;> simp_all
      rw [doubled_cons, untilNul_append hfront, ih, untilNul_cons hc, doubled_cons]
    · have hquote : (c == '\'') = false := by
        rw [beq_eq_false_iff_ne]
        rintro rfl
        exact hc (by decide)
      have hnil : ∀ s, untilNul (c :: s) = [] := fun s => List.takeWhile_cons_of_neg hc
      rw [doubled_cons, hquote, if_neg Bool.false_ne_true, List.singleton_append, hnil, hnil]
      rfl

/-- A string is one token, unless its value holds a NUL character: then the text ends inside it. -/
theorem tokensFrom_string (value : Text) {r : Text} (hr : Stops continues r) (n : Nat) :
    (∃ t m, t.kind = .string ∧ tokensFrom n (sqlLiteral value ++ r) = t :: tokensFrom m r) ∨
      ∃ t, t.kind = .bad ∧ tokensFrom n (sqlLiteral value ++ r) = [t] := by
  rw [sqlLiteral_eq]
  by_cases hnul : ∀ c ∈ value, (c.toNat != 0) = true
  · left
    have htext : ∀ c ∈ '\'' :: (doubled value ++ ['\'']), (c.toNat != 0) = true := by
      rintro c hc
      rw [List.mem_cons, List.mem_append, List.mem_singleton, mem_doubled] at hc
      rcases hc with rfl | hc | rfl
      · rfl
      · exact hnul c hc
      · rfl
    have hlexeme := lexeme_string value (stops_untilNul hr)
    rw [List.append_cons, show (doubled value).length + 1 = (doubled value ++ ['\'']).length by simp] at hlexeme
    exact ⟨_, _, rfl, tokensFrom_token htext (by decide) hlexeme n⟩
  · right
    have hdoubled : ¬∀ c ∈ doubled value, (c.toNat != 0) = true := fun h => hnul fun c hc => h c (mem_doubled.mpr hc)
    have htext : untilNul (doubled value ++ ['\''] ++ r) = doubled (untilNul value) := by
      rw [← untilNul_doubled, List.append_assoc]
      exact takeWhile_append_of_not_all hdoubled
    rw [List.cons_append, tokensFrom_cons (by decide), htext, lexeme_open_string]
    dsimp only
    rw [List.drop_length, List.filter_cons_of_pos rfl, lex, List.filter_nil]
    exact ⟨_, rfl, rfl⟩

end Sql
end Schemata
