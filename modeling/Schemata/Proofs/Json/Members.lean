import Schemata.Json.Read
import Schemata.Proofs.Json.Scalars

/-! Lists and objects are read back from the tokens of their items and members. The reader of the items is only asked to
    take each item where it is delimited, and the reader of the members to go from state to state. -/

namespace Schemata.Json

/-- The first character of tokens. -/
def firstChar? (tokens : List Text) : Option Char := tokens.head?.bind List.head?

/-- The tokens start with the character, which is neither white space nor a sign between items or behind them. -/
structure Starts (c : Char) (tokens : List Text) : Prop where
  first : firstChar? tokens = some c
  value : endsValue c = false

theorem isSpace_of_endsValue {c : Char} (h : endsValue c = false) : isSpace c = false := by
  simp only [endsValue, Bool.or_eq_false_iff] at h
  exact h.1.1.1

namespace Laid
variable {c : Char} {text rest : Text} {tokens : List Text}

theorem skipSpace_starts (h : Laid tokens text rest) (hstarts : Starts c tokens) :
    (∃ behind, skipSpace text = c :: behind) ∧ rest.length < text.length := by
  rcases tokens with _ | ⟨_ | ⟨d, token⟩, tokens⟩
  · cases hstarts.first
  · cases hstarts.first
  · obtain rfl : d = c := Option.some.inj hstarts.first
    obtain ⟨behind, htext, -⟩ := h.skipSpace_eq (isSpace_of_endsValue hstarts.value)
    exact ⟨⟨_, htext⟩, h.length_lt⟩

theorem readColon (h : Laid (colon :: tokens) text rest) :
    ∃ behind, Json.readColon text = .ok (skipSpace behind) ∧ Laid tokens behind rest := by
  obtain ⟨behind, htext, hlaid⟩ := h.skipSpace_eq (by decide)
  exact ⟨behind, by rw [Json.readColon, htext]; rfl, hlaid⟩

end Laid

/-! ### Items -/

/-- The reader takes the tokens of an item, which start like a value. -/
structure TakesItem {α : Type} (read : Text → Reading α) (tokens : List Text) (a : α) : Prop where
  takes : Takes read tokens a
  starts : ∃ c, Starts c tokens

variable {α σ : Type}

theorem nextItem_end {first : Bool} {text rest : Text} (h : Laid [[']']] text rest) :
    nextItem first text = .ok (false, ']' :: rest) := by
  rw [nextItem, h.skipSpace_single (by decide)]
  rfl

theorem nextItem_first {c : Char} {tokens : List Text} {text rest : Text} (hstarts : Starts c tokens)
    (h : Laid tokens text rest) : nextItem true text = .ok (true, skipSpace text) := by
  obtain ⟨⟨behind, htext⟩, -⟩ := h.skipSpace_starts hstarts
  have hvalue := hstarts.value
  rw [nextItem, htext]
  split
  · contradiction
  · rename_i heq
    cases heq
    cases hvalue
  · rename_i heq
    cases heq
    cases hvalue
  · rfl

theorem nextItem_later {c : Char} {tokens : List Text} {text rest : Text} (hstarts : Starts c tokens)
    (h : Laid (comma :: tokens) text rest) :
    ∃ behind, nextItem false text = .ok (true, skipSpace behind) ∧ Laid tokens behind rest := by
  obtain ⟨behind, htext, hlaid⟩ := h.skipSpace_eq (by decide)
  obtain ⟨⟨inside, hbehind⟩, -⟩ := hlaid.skipSpace_starts hstarts
  have hvalue := hstarts.value
  refine ⟨behind, ?_, hlaid⟩
  rw [nextItem, htext, List.nil_append]
  simp only [Bool.false_eq_true, if_false]
  rw [hbehind]
  split
  · contradiction
  · rename_i heq
    cases heq
    cases hvalue
  · rfl

/-- A further part is delimited by the comma of the next one or by the end. -/
theorem delimited_continued {parts : List (List Text)} {close : Char} {text rest : Text}
    (hclose : endsValue close = true) (h : Laid (continued parts ++ [[close]]) text rest) : Delimited text := by
  cases parts with
  | nil => exact h.delimited hclose
  | cons part parts => exact h.delimited (c := ',') rfl

/-- Items are read from the tokens behind them, each with its comma. -/
theorem readItems_continued {read : Text → Reading α} {parts : List (List Text)} {items : List α}
    (h : List.Forall₂ (TakesItem read) parts items) {n : Nat} {text rest : Text}
    (hlaid : Laid (continued parts ++ [[']']]) text rest) (hn : text.length < n) :
    readItems read n false text = .ok (items, rest) := by
  induction h generalizing n text with
  | nil =>
    obtain ⟨n, rfl⟩ := Nat.exists_eq_succ_of_ne_zero (Nat.ne_zero_of_lt hn)
    rw [readItems, nextItem_end hlaid]
    rfl
  | @cons part item parts items hitem _ ih =>
    obtain ⟨n, rfl⟩ := Nat.exists_eq_succ_of_ne_zero (Nat.ne_zero_of_lt hn)
    rw [continued_cons, List.append_assoc] at hlaid
    obtain ⟨middle, hpart, hparts⟩ := hlaid.split
    obtain ⟨c, hstarts⟩ := hitem.starts
    obtain ⟨behind, hnext, hbehind⟩ := nextItem_later hstarts hpart
    have hread := hitem.takes behind middle hbehind (delimited_continued rfl hparts)
    have hlater := ih hparts (Nat.lt_of_lt_of_le hpart.length_lt (Nat.le_of_lt_succ hn))
    rw [readItems, hnext]
    simp only [bind, Except.bind, if_true, hread, hlater]

theorem readItems_separated {read : Text → Reading α} {parts : List (List Text)} {items : List α}
    (h : List.Forall₂ (TakesItem read) parts items) {n : Nat} {text rest : Text}
    (hlaid : Laid (separated parts ++ [[']']]) text rest) (hn : text.length < n) :
    readItems read n true text = .ok (items, rest) := by
  obtain ⟨n, rfl⟩ := Nat.exists_eq_succ_of_ne_zero (Nat.ne_zero_of_lt hn)
  cases h with
  | nil =>
    rw [readItems, nextItem_end hlaid]
    rfl
  | @cons part item parts items hitem hitems =>
    rw [separated, List.append_assoc] at hlaid
    obtain ⟨middle, hpart, hparts⟩ := hlaid.split
    obtain ⟨c, hstarts⟩ := hitem.starts
    have hread := hitem.takes text middle hpart (delimited_continued rfl hparts)
    have hlater := readItems_continued hitems hparts
      (Nat.lt_of_lt_of_le (hpart.skipSpace_starts hstarts).2 (Nat.le_of_lt_succ hn))
    rw [readItems, nextItem_first hstarts hpart]
    simp only [bind, Except.bind, if_true, hread, hlater]

/-! ### Members -/

/-- The reader goes from one state to another over the tokens of members. -/
inductive Steps (read : σ → Text → Text → Reading σ) : σ → List (List Text) → σ → Prop
  | nil (state : σ) : Steps read state [] state
  | cons {state next final : σ} {key : Text} {tokens : List Text} {parts : List (List Text)}
    (step : ∀ text rest, Laid (colon :: tokens) text rest → Delimited rest → read state key text = .ok (next, rest))
    (later : Steps read next parts final) : Steps read state ((jsonString key :: colon :: tokens) :: parts) final

theorem nextKey_end {first : Bool} {text rest : Text} (h : Laid [['\x7d']] text rest) :
    nextKey true first text = .ok (none, rest) := by
  rw [nextKey, h.skipSpace_single (by decide)]
  rfl

theorem nextKey_first {key : Text} {tokens : List Text} {text rest : Text}
    (h : Laid (jsonString key :: tokens) text rest) :
    ∃ behind, nextKey true true text = .ok (some key, behind) ∧ Laid tokens behind rest := by
  obtain ⟨inside, behind, htext, hread, hlaid⟩ := h.readString
  have hnext : nextKey true true text = (readKey true ('"' :: inside)).map fun x => (some x.1, x.2) := by
    rw [nextKey, htext]
    rfl
  exact ⟨behind, by rw [hnext, readKey, hread]; rfl, hlaid⟩

theorem nextKey_later {key : Text} {tokens : List Text} {text rest : Text}
    (h : Laid (comma :: jsonString key :: tokens) text rest) :
    ∃ behind, nextKey true false text = .ok (some key, behind) ∧ Laid tokens behind rest := by
  obtain ⟨first, htext, hfirst⟩ := h.skipSpace_eq (by decide)
  obtain ⟨inside, behind, hkey, hread, hlaid⟩ := hfirst.readString
  refine ⟨behind, ?_, hlaid⟩
  rw [nextKey, htext, List.nil_append]
  simp only [Bool.false_eq_true, if_false, hkey, readKey, hread]
  rfl

/-- Members are read from the tokens behind them, each with its comma. -/
theorem readMembers_continued {read : σ → Text → Text → Reading σ} {state final : σ} {parts : List (List Text)}
    (h : Steps read state parts final) {n : Nat} {text rest : Text}
    (hlaid : Laid (continued parts ++ [['\x7d']]) text rest) (hn : text.length < n) :
    readMembers true read n false state text = .ok (final, rest) := by
  induction h generalizing n text with
  | nil state =>
    obtain ⟨n, rfl⟩ := Nat.exists_eq_succ_of_ne_zero (Nat.ne_zero_of_lt hn)
    rw [readMembers, nextKey_end hlaid]
    rfl
  | @cons state next final key tokens parts step _ ih =>
    obtain ⟨n, rfl⟩ := Nat.exists_eq_succ_of_ne_zero (Nat.ne_zero_of_lt hn)
    rw [continued_cons, List.append_assoc] at hlaid
    obtain ⟨middle, hpart, hparts⟩ := hlaid.split
    obtain ⟨behind, hkey, hbehind⟩ := nextKey_later hpart
    have hstep := step behind middle hbehind (delimited_continued rfl hparts)
    have hlater := ih hparts (Nat.lt_of_lt_of_le hpart.length_lt (Nat.le_of_lt_succ hn))
    rw [readMembers, hkey]
    simp only [bind, Except.bind, hstep, hlater]

theorem readMembers_separated {read : σ → Text → Text → Reading σ} {state final : σ} {parts : List (List Text)}
    (h : Steps read state parts final) {n : Nat} {text rest : Text}
    (hlaid : Laid (separated parts ++ [['\x7d']]) text rest) (hn : text.length < n) :
    readMembers true read n true state text = .ok (final, rest) := by
  obtain ⟨n, rfl⟩ := Nat.exists_eq_succ_of_ne_zero (Nat.ne_zero_of_lt hn)
  cases h with
  | nil =>
    rw [readMembers, nextKey_end hlaid]
    rfl
  | @cons _ next _ key tokens parts step later =>
    rw [separated, List.append_assoc] at hlaid
    obtain ⟨middle, hpart, hparts⟩ := hlaid.split
    obtain ⟨behind, hkey, hbehind⟩ := nextKey_first hpart
    have hstep := step behind middle hbehind (delimited_continued rfl hparts)
    have hlength : middle.length < text.length := by
      rw [jsonString_eq] at hpart
      exact hpart.length_lt
    have hlater := readMembers_continued later hparts (Nat.lt_of_lt_of_le hlength (Nat.le_of_lt_succ hn))
    rw [readMembers, hkey]
    simp only [bind, Except.bind, hstep, hlater]

/-! ### Typed values -/

theorem readWord_append (word rest : Text) : readWord word (word ++ rest) = .ok rest := by
  rw [readWord, Text.dropPrefix?_append]

theorem takesItem_readText (s : Text) : TakesItem readText [jsonString s] s where
  takes text rest h _ := by
    obtain ⟨inside, behind, htext, hread, hlaid⟩ := h.readString
    cases hlaid
    rw [readText, skipSpace_skipSpace, htext]
    exact hread
  starts := ⟨'"', by rw [firstChar?, jsonString_eq]; rfl, rfl⟩

theorem takes_readTexts (texts : List Text) :
    Takes readTexts (['['] :: (separated (texts.map fun s => [jsonString s]) ++ [[']']])) texts := by
  intro text rest h _
  obtain ⟨behind, htext, hlaid⟩ := h.skipSpace_eq (by decide)
  have hitems : List.Forall₂ (TakesItem readText) (texts.map fun s => [jsonString s]) texts := by
    rw [List.forall₂_map_left_iff]
    exact List.forall₂_same.mpr fun s _ => takesItem_readText s
  rw [readTexts, skipSpace_skipSpace, htext]
  exact readItems_separated hitems hlaid (Nat.lt_succ_self _)

theorem Takes.map {α β : Type} {read : Text → Reading α} {tokens : List Text} {a : α} (h : Takes read tokens a)
    (f : α → β) : Takes (fun s => (read s).map fun (x, r) => (f x, r)) tokens (f a) := fun text rest hlaid hrest => by
  dsimp only
  rw [h text rest hlaid hrest]
  rfl

theorem takes_readOptional_none (read : Text → Reading α) : Takes (readOptional read) ["null"] none := by
  intro text rest h _
  rw [readOptional, skipSpace_skipSpace, h.null]
  exact congrArg (Except.map fun r => (none, r)) (readWord_append "ull" rest)

theorem takes_readOptional_some {read : Text → Reading α} {tokens : List Text} {a : α} {c : Char}
    (h : Takes read tokens a) (hstarts : Starts c tokens) (hc : c ≠ 'n') :
    Takes (readOptional read) tokens (some a) := by
  intro text rest hlaid hrest
  have hread := h text rest hlaid hrest
  obtain ⟨⟨behind, htext⟩, -⟩ := hlaid.skipSpace_starts hstarts
  rw [readOptional, skipSpace_skipSpace]
  rw [htext] at hread ⊢
  split
  · rename_i heq
    cases heq
    exact absurd rfl hc
  · rw [hread]
    rfl

/-- An absent value is written as null. -/
theorem takes_ofOption {read : Text → Reading α} {write : α → Value} {c : Char} {o : Option α} (hc : c ≠ 'n')
    (hstarts : ∀ a, Starts c (write a).tokens) (h : ∀ a ∈ o, Takes read (write a).tokens a) :
    Takes (readOptional read) (Value.ofOption write o).tokens o := by
  cases o with
  | none => exact takes_readOptional_none read
  | some a => exact takes_readOptional_some (h a rfl) (hstarts a) hc

/-! ### Records -/

namespace Fields
variable {fields : Fields σ}

/-- A field that was not met is read from its member. -/
theorem steps_cons {seen : List Text} {value next : σ} {final : List Text × σ} {key : Text} {tokens : List Text}
    {parts : List (List Text)} {read : σ → Text → Reading σ} (hread : fields.lookup key = some read)
    (hseen : seen.contains key = false) (htakes : Takes (read value) tokens next)
    (later : Steps fields.readMember (key :: seen, next) parts final) :
    Steps fields.readMember (seen, value) ((jsonString key :: colon :: tokens) :: parts) final := by
  refine .cons (fun text rest hlaid hrest => ?_) later
  obtain ⟨behind, hcolon, hbehind⟩ := hlaid.readColon
  rw [readMember, hread]
  simp only [hseen, Bool.false_eq_true, if_false, hcolon, bind, Except.bind, htakes behind rest hbehind hrest]

theorem takes_read {start value : σ} {seen : List Text} {parts : List (List Text)}
    (h : Steps fields.readMember ([], start) parts (seen, value)) :
    Takes (fields.read start) (['\x7b'] :: (separated parts ++ [['\x7d']])) value := by
  intro text rest hlaid _
  obtain ⟨behind, htext, hbehind⟩ := hlaid.skipSpace_eq (by decide)
  have hmembers := readMembers_separated h hbehind (Nat.lt_succ_self _)
  rw [read, skipSpace_skipSpace, htext]
  exact congrArg (Except.map fun x => (x.1.2, x.2)) hmembers

end Fields

end Schemata.Json
