import Schemata.Proofs.Sql.Definitions
import Schemata.Proofs.Sql.Lexing
import Schemata.Proofs.Text.Upper

/-! The tokens of texts that are put together from names, signs, numbers and strings. Each part is read as tokens of
    its own where the text behind it ends or goes on with a character that stands between words, or else some of its
    characters form no token: those of a name like `1a`, or of a string that is not closed before a NUL character. -/

namespace Schemata.Sql
open Text

variable {a b w rest : Text} {n : Nat} {t : Token} {ts ts' : List Token}

/-! ### What stands between words -/

def separates (c : Char) : Bool := c == ' ' || c == '(' || c == ')' || c == ','

/-- The text ends, or goes on with a character that stands between words. -/
def Breaks (s : Text) : Prop := Stops (fun c => !separates c) s

theorem breaks_cons {c : Char} : Breaks (c :: rest) ↔ separates c = true := by
  rw [Breaks, stops_cons, Bool.not_eq_false']

theorem separates_cases {c : Char} (h : separates c = true) : c = ' ' ∨ c = '(' ∨ c = ')' ∨ c = ',' := by
  simpa [separates, or_assoc] using h

theorem Breaks.stops (h : Breaks rest) : Stops continues rest := fun c hc => by
  rcases separates_cases (by simpa using h c hc) with rfl | rfl | rfl | rfl <;> decide

theorem Breaks.untilNul (h : Breaks rest) : Breaks (untilNul rest) := stops_untilNul h

theorem breaks_spaced (parts : List Text) (hrest : Breaks rest) : Breaks (parts.flatMap (' ' :: ·) ++ rest) := by
  cases parts with
  | nil => exact hrest
  | cons part parts => exact breaks_cons.mpr (by decide)

/-! ### Words that start with a digit -/

theorem spanLength_append_stops {p : Char → Bool} (w : Text) (hr : Stops p rest) :
    spanLength p (w ++ rest) = spanLength p w := by
  unfold spanLength
  rw [List.takeWhile_append]
  split
  · rename_i hall
    rw [takeWhile_of_stops hr, List.append_nil, hall]
  · rfl

theorem spanLength_le {p : Char → Bool} (w : Text) : spanLength p w ≤ w.length :=
  (List.takeWhile_prefix p).length_le

theorem fractionLength_eq_zero (hw : ∀ c ∈ w, isBare c = true) (hrest : Breaks rest) :
    fractionLength (w ++ rest) = 0 := by
  have hpoint : ∀ s, w ++ rest ≠ '.' :: s := fun s hs => by
    cases w with
    | nil => exact head?_ne_of_stops hrest.stops (c := '.') (by decide) (by rw [show rest = _ from hs]; rfl)
    | cons c w => exact ne_of_isBare (d := '.') (hw c List.mem_cons_self) (by decide) (List.cons.inj hs).1
  unfold fractionLength
  split
  · rename_i s hs
    exact absurd hs (hpoint s)
  · rfl

theorem exponentLength_le (hw : ∀ c ∈ w, isBare c = true) (hrest : Breaks rest) :
    exponentLength (w ++ rest) ≤ w.length := by
  cases w with
  | nil =>
    cases rest with
    | nil => exact Nat.le_refl _
    | cons c rest =>
      rcases separates_cases (breaks_cons.mp hrest) with rfl | rfl | rfl | rfl <;> exact Nat.le_refl _
  | cons c w =>
    obtain ⟨-, hw⟩ := List.forall_mem_cons.mp hw
    have hhead : ∀ d s, isBare d = false → separates d = false → w ++ rest ≠ d :: s := fun d s hd hsep hs => by
      cases w with
      | nil =>
        rw [List.nil_append] at hs
        rw [hs] at hrest
        rw [breaks_cons.mp hrest] at hsep
        cases hsep
      | cons x w => exact ne_of_isBare (hw x List.mem_cons_self) hd (List.cons.inj hs).1
    have hdigits : spanLength Char.isDigit (w ++ rest) ≤ w.length := by
      rw [spanLength_append_stops w (stops_imp hrest.stops fun _ => continues_of_isDigit)]
      exact spanLength_le w
    unfold exponentLength
    rw [List.cons_append]
    dsimp only
    split
    · rename_i hs
      exact absurd hs (hhead '+' _ (by decide) (by decide))
    · rename_i hs
      exact absurd hs (hhead '-' _ (by decide) (by decide))
    · rw [List.drop_zero, List.length_cons]
      split <;> omega

theorem decimalLength_le (hw : ∀ c ∈ w, isBare c = true) (hrest : Breaks rest) :
    numberLength.decimalLength (w ++ rest) ≤ w.length := by
  have hwhole : spanLength Char.isDigit (w ++ rest) = spanLength Char.isDigit w :=
    spanLength_append_stops w (stops_imp hrest.stops fun _ => continues_of_isDigit)
  have hle := spanLength_le (p := Char.isDigit) w
  have hdrop : ∀ c ∈ w.drop (spanLength Char.isDigit w), isBare c = true := fun c hc => hw c (List.mem_of_mem_drop hc)
  have hexponent := exponentLength_le hdrop hrest
  rw [List.length_drop] at hexponent
  rw [numberLength.decimalLength, hwhole, List.drop_append_of_le_length hle, fractionLength_eq_zero hdrop hrest, Nat.add_zero,
    List.drop_append_of_le_length hle]
  omega

theorem continues_of_isHexDigit {c : Char} (h : isHexDigit c = true) : continues c = true := by
  have hcode : c.toNat < 0x80 := by
    simp only [isHexDigit, Char.isDigit, Bool.or_eq_true, Bool.and_eq_true, decide_eq_true_eq] at h
    rcases h with (⟨-, h⟩ | ⟨-, h⟩) | ⟨-, h⟩
    · exact Nat.lt_of_le_of_lt h (by decide)
    · exact Nat.lt_of_le_of_lt h (by decide)
    · exact Nat.lt_of_le_of_lt h (by decide)
  exact forall_ascii (P := fun c => isHexDigit c = true → continues c = true) (by decide) hcode h

/-- A number goes no further than a name does. -/
theorem numberLength_le (hw : ∀ c ∈ w, isBare c = true) (hrest : Breaks rest) :
    numberLength (w ++ rest) ≤ w.length := by
  unfold numberLength
  split
  · rename_i x d s hs
    split
    · rename_i hhex
      rw [Bool.and_eq_true, Bool.or_eq_true, beq_iff_eq, beq_iff_eq] at hhex
      have hx : separates x = false := by rcases hhex.1 with rfl | rfl <;> decide
      have hd : separates d = false := by
        cases hsep : separates d with
        | false => rfl
        | true => rcases separates_cases hsep with rfl | rfl | rfl | rfl <;> exact absurd hhex.2 (by decide)
      -- The prefix of a hexadecimal number and its first digit belong to the word.
      have hword : ∃ w', w = '0' :: x :: d :: w' ∧ s = w' ++ rest := by
        match w, hs with
        | [], hs =>
          rw [show rest = _ from hs] at hrest
          exact absurd (breaks_cons.mp hrest) (by decide)
        | [_], hs =>
          rw [show rest = _ from (List.cons.inj hs).2] at hrest
          rw [breaks_cons.mp hrest] at hx
          cases hx
        | [_, _], hs =>
          rw [show rest = _ from (List.cons.inj (List.cons.inj hs).2).2] at hrest
          rw [breaks_cons.mp hrest] at hd
          cases hd
        | c :: x' :: d' :: w', hs =>
          simp only [List.cons_append, List.cons.injEq] at hs
          obtain ⟨rfl, rfl, rfl, rfl⟩ := hs
          exact ⟨w', rfl, rfl⟩
      obtain ⟨w', rfl, rfl⟩ := hword
      rw [spanLength_append_stops (p := isHexDigit) w' (stops_imp hrest.stops fun _ => continues_of_isHexDigit)]
      have := spanLength_le (p := isHexDigit) w'
      simp only [List.length_cons]
      omega
    · exact decimalLength_le hw hrest
  · exact decimalLength_le hw hrest

/-- What starts with a digit and goes on as a name does is one number, or it is no token. -/
theorem lexeme_digit {c : Char} (hw : ∀ x ∈ c :: w, isBare x = true) (hdigit : c.isDigit = true)
    (hrest : Breaks rest) : (lexeme c (w ++ rest)).1 = .bad ∨ lexeme c (w ++ rest) = (.number, w.length) := by
  have hle := numberLength_le hw hrest
  rw [lexeme_of_isBare (hw c List.mem_cons_self), if_pos hdigit, ← List.cons_append, number]
  generalize numberLength (c :: w ++ rest) = n at hle
  split
  · rename_i hspan
    -- No character of the word is left behind the number.
    have hall : n = (c :: w).length := by
      refine Nat.le_antisymm hle (Nat.le_of_not_lt fun hlt => ?_)
      rw [List.drop_append_of_le_length hle, List.drop_eq_getElem_cons hlt, List.cons_append, spanLength,
        List.takeWhile_cons_of_pos (isNameChar_of_isBare (hw _ (List.getElem_mem hlt)))] at hspan
      cases hspan
    right
    rw [hall]
    rfl
  · exact .inl rfl

/-! ### Statements with characters that form no token -/

/-- Some characters of the first statement form no token. -/
def Broken (ts : List Token) : Prop := ∃ t ∈ ts.takeWhile fun t => !t.isSign ";", t.kind = .bad

theorem broken_cons (ht : t.kind = .bad) (ts : List Token) : Broken (t :: ts) := by
  have hsign : t.isSign ";" = false := Token.isSign_of_kind (by simp [ht]) _
  refine ⟨t, ?_, ht⟩
  rw [List.takeWhile_cons_of_pos (by rw [hsign]; rfl)]
  exact List.mem_cons_self

theorem Broken.append (h : Broken ts') (hts : ∀ t ∈ ts, t.isSign ";" = false) : Broken (ts ++ ts') := by
  obtain ⟨t, ht, hkind⟩ := h
  have hall : ∀ t ∈ ts, (!t.isSign ";") = true := fun t ht => by
    rw [hts t ht]
    rfl
  refine ⟨t, ?_, hkind⟩
  rw [List.takeWhile_append_of_pos hall]
  exact List.mem_append_right _ ht

/-! ### Texts that are read as tokens of their own -/

/-- What tokens are, one by one. -/
def Forms (forms : List (Token → Prop)) (ts : List Token) : Prop := List.Forall₂ (fun fits t => fits t) forms ts

/-- Whatever stands behind the text, it is read as tokens of its own with a property, none of which ends the statement,
    or some characters form no token. -/
def Reads (P : List Token → Prop) (a : Text) : Prop :=
  ∀ n rest, Breaks rest → Broken (tokensFrom n (a ++ rest)) ∨
    ∃ ts m, P ts ∧ (∀ t ∈ ts, t.isSign ";" = false) ∧ tokensFrom n (a ++ rest) = ts ++ tokensFrom m rest

section Reads
variable {P Q R : List Token → Prop} {fs gs : List (Token → Prop)}

theorem Reads.imp (h : Reads P a) (hpq : ∀ ts, P ts → Q ts) : Reads Q a := fun n rest hrest => by
  rcases h n rest hrest with hbroken | ⟨ts, m, hts, hrun⟩
  · exact .inl hbroken
  · exact .inr ⟨ts, m, hpq ts hts, hrun⟩

theorem reads_nil (h : P []) : Reads P [] := fun n _ _ => .inr ⟨[], n, h, List.forall_mem_nil _, rfl⟩

theorem Reads.append (ha : Reads P a) (hb : Reads Q b) (hbreaks : ∀ rest, Breaks rest → Breaks (b ++ rest))
    (hjoin : ∀ ts ts', P ts → Q ts' → R (ts ++ ts')) : Reads R (a ++ b) := fun n rest hrest => by
  rw [List.append_assoc]
  rcases ha n (b ++ rest) (hbreaks rest hrest) with hbroken | ⟨ts, m, hts, hcalm, htokens⟩
  · exact .inl hbroken
  · rw [htokens]
    rcases hb m rest hrest with hbroken | ⟨ts', m', hts', hcalm', htokens'⟩
    · exact .inl (hbroken.append hcalm)
    · refine .inr ⟨ts ++ ts', m', hjoin ts ts' hts hts', List.forall_mem_append.mpr ⟨hcalm, hcalm'⟩, ?_⟩
      rw [htokens', List.append_assoc]

theorem Reads.spaces (h : Reads P a) (hw : ∀ c ∈ w, c = ' ') (hsolid : ∀ rest, Breaks rest → Stops isSpace (a ++ rest)) :
    Reads P (w ++ a) := fun n rest hrest => by
  rw [List.append_assoc, tokensFrom_spaces hw (hsolid rest hrest)]
  exact h _ rest hrest

theorem Reads.space (h : Reads P a) (hsolid : ∀ rest, Stops isSpace (a ++ rest)) : Reads P (' ' :: a) :=
  h.spaces (w := [' ']) (by simp) fun rest _ => hsolid rest

theorem Reads.sign {c : Char} (hc : c ∈ ['(', ')', ',']) (h : Reads P a)
    (hjoin : ∀ t ts, t.isSign [c] = true → P ts → R (t :: ts)) : Reads R (c :: a) := fun n rest hrest => by
  have hsign : ∀ t : Token, t.isSign [c] = true → t.isSign ";" = false := fun t ht =>
    Token.isSign_of_isSign ht (by
      simp only [List.mem_cons, List.not_mem_nil, or_false] at hc
      rcases hc with rfl | rfl | rfl <;> decide +kernel)
  have hthis : Token.isSign ⟨.symbol, [c], n⟩ [c] = true := by simp [Token.isSign]
  have hcalm : ∀ t ∈ [(⟨.symbol, [c], n⟩ : Token)], t.isSign ";" = false :=
    List.forall_mem_singleton.mpr (hsign _ hthis)
  rw [List.cons_append, tokensFrom_sign hc]
  rcases h (n + 1) rest hrest with hbroken | ⟨ts, m, hts, hrest, htokens⟩
  · exact .inl (hbroken.append hcalm)
  · rw [htokens]
    exact .inr ⟨_ :: ts, m, hjoin _ ts hthis hts, List.forall_mem_append.mpr ⟨hcalm, hrest⟩, rfl⟩

theorem Reads.forms (ha : Reads (Forms fs) a) (hb : Reads (Forms gs) b) (hbreaks : ∀ rest, Breaks rest → Breaks (b ++ rest)) :
    Reads (Forms (fs ++ gs)) (a ++ b) :=
  ha.append hb hbreaks fun _ _ hts hts' => List.rel_append hts hts'

theorem Reads.formsSign {c : Char} (hc : c ∈ ['(', ')', ',']) (h : Reads (Forms fs) a) :
    Reads (Forms ((fun t => t.isSign [c] = true) :: fs)) (c :: a) :=
  h.sign hc fun _ _ ht hts => .cons ht hts

/-! ### Words, numbers and strings -/

/-- The token of a name. It is a number if the name starts with a digit. -/
structure Names (w : Text) (t : Token) : Prop where
  text : t.text = w
  kind : t.kind = if w.head?.any Char.isDigit then .number else .word

theorem Names.kind_cases (h : Names w t) : t.kind = .word ∨ t.kind = .number := by
  rw [h.kind]
  split
  · exact .inr rfl
  · exact .inl rfl

theorem Names.label (h : Names w t) : t.label = w := by
  rcases h.kind_cases with hkind | hkind <;> rw [Token.label, hkind] <;> exact h.text

/-- Two tokens of one name are the same name in SQL, or both are none. -/
theorem Names.name?_eq {u : Token} (h : Names w t) (hu : Names w u) : t.name? = u.name? := by
  rw [Token.name?, Token.name?, h.kind, hu.kind, Token.isReserved, Token.isReserved, h.text, hu.text]
  cases w.head?.any Char.isDigit <;> rfl

theorem Names.isSign (h : Names w t) (sign : Text) : t.isSign sign = false :=
  Token.isSign_of_kind (by rcases h.kind_cases with hkind | hkind <;> simp [hkind]) sign

theorem reads_token (hsign : ∀ t, P [t] → t.isSign ";" = false)
    (h : ∀ n rest, Breaks rest → (∃ t ts, t.kind = .bad ∧ tokensFrom n (a ++ rest) = t :: ts) ∨
      ∃ t m, P [t] ∧ tokensFrom n (a ++ rest) = t :: tokensFrom m rest) : Reads P a := fun n rest hrest => by
  rcases h n rest hrest with ⟨t, ts, hkind, htokens⟩ | ⟨t, m, ht, htokens⟩
  · exact .inl (htokens ▸ broken_cons hkind ts)
  · exact .inr ⟨[t], m, ht, List.forall_mem_singleton.mpr (hsign t ht), htokens⟩

theorem reads_name (hne : w ≠ []) (hw : ∀ c ∈ w, isBare c = true) : Reads (Forms [Names w]) w := by
  refine reads_token (fun t ht => (List.forall₂_cons.mp ht).1.isSign _) fun n rest hrest => ?_
  obtain ⟨c, w, rfl⟩ := List.exists_cons_of_ne_nil hne
  cases hdigit : c.isDigit with
  | false =>
    refine .inr ⟨_, _, .cons ⟨rfl, ?_⟩ .nil, tokensFrom_word hw hdigit hrest.stops n⟩
    simp [hdigit]
  | true =>
    rcases lexeme_digit hw hdigit hrest.untilNul with hbad | hnumber
    · left
      have hfirst := tokensFrom_cons (toNat_ne_zero_of_isBare (hw c List.mem_cons_self)) (w ++ rest) n
      rw [untilNul_append fun x hx => toNat_ne_zero_of_isBare (hw x (List.mem_cons_of_mem c hx)),
        List.filter_cons_of_pos (by simp [hbad])] at hfirst
      exact ⟨_, _, hbad, hfirst⟩
    · refine .inr ⟨_, _, .cons ⟨rfl, ?_⟩ .nil,
        tokensFrom_token (fun x hx => toNat_ne_zero_of_isBare (hw x hx)) (by decide) hnumber n⟩
      simp [hdigit]

theorem reads_word (hw : isPlain w = true) : Reads (Forms [fun t => t.kind = .word ∧ t.text = w]) w :=
  reads_token (fun t ht => Token.isSign_of_kind (by simp [(List.forall₂_cons.mp ht).1.1]) _) fun n rest hrest =>
    .inr ⟨_, _, .cons ⟨rfl, rfl⟩ .nil, tokensFrom_plain hw hrest.stops n⟩

theorem reads_string (value : Text) : Reads (Forms [fun t => t.kind = .string]) (sqlLiteral value) := by
  refine reads_token (fun t ht => Token.isSign_of_kind (by simp [(List.forall₂_cons.mp ht).1]) _)
    fun n rest hrest => ?_
  rcases tokensFrom_string value hrest.stops n with ⟨t, m, hkind, htokens⟩ | ⟨t, hkind, htokens⟩
  · exact .inr ⟨t, m, .cons hkind .nil, htokens⟩
  · exact .inl ⟨t, [], hkind, htokens⟩

end Reads

end Schemata.Sql
