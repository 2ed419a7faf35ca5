import Schemata.Proofs.Text.Basic

/-! Scripts cut at semicolons. A run in quotes goes from a quote to the next one of its kind, and a quote of the other
    kind is text there. A semicolon stands outside quotes if the runs of the text in front of it are closed, so a run
    that stays open keeps all semicolons behind it. The first semicolon outside quotes is where a script is cut first,
    and behind it the rest is cut like a script of its own: that leaves one way to cut. -/

namespace Schemata
namespace Script

/-! ### Runs in quotes -/

/-- A character that opens a run. -/
def isQuote (c : Char) : Bool := c == '\'' || c == '"'

/-- A text whose runs in quotes are closed. A quote that is written twice closes one run and opens the next. -/
inductive Closed : Text → Prop
  | nil : Closed []
  | plain {c : Char} {s : Text} (plain : isQuote c = false) (rest : Closed s) : Closed (c :: s)
  | run {q : Char} {body s : Text} (quote : isQuote q = true) (inside : q ∉ body) (rest : Closed s) :
    Closed (q :: (body ++ q :: s))

/-- The quote whose run is open behind a character, given the one that is open in front of it. -/
def nextQuote : Option Char → Char → Option Char
  | some q, c => if c == q then none else some q
  | none, c => if isQuote c then some c else none

/-- The quote whose run is open behind a text. -/
def openQuote (quote : Option Char) (s : Text) : Option Char := s.foldl nextQuote quote

theorem openQuote_append (quote : Option Char) (a b : Text) :
    openQuote quote (a ++ b) = openQuote (openQuote quote a) b := List.foldl_append

theorem openQuote_inside {q : Char} {body : Text} (h : q ∉ body) : openQuote (some q) body = some q := by
  induction body with
  | nil => rfl
  | cons c body ih =>
    obtain ⟨hc, hbody⟩ := List.ne_and_not_mem_of_not_mem_cons h
    have hnext : nextQuote (some q) c = some q := if_neg (by simpa using hc.symm)
    rw [openQuote, List.foldl_cons, hnext]
    exact ih hbody

theorem openQuote_run {q : Char} {body : Text} (h : q ∉ body) (s : Text) :
    openQuote (some q) (body ++ q :: s) = openQuote none s := by
  have hnext : nextQuote (some q) q = none := if_pos (beq_self_eq_true q)
  rw [openQuote_append, openQuote_inside h, openQuote, List.foldl_cons, hnext]
  rfl

theorem openQuote_of_quote {q : Char} (hq : isQuote q = true) (s : Text) :
    openQuote none (q :: s) = openQuote (some q) s :=
  congrArg (List.foldl nextQuote · s) (if_pos hq)

theorem openQuote_of_plain {c : Char} (hc : isQuote c = false) (s : Text) :
    openQuote none (c :: s) = openQuote none s :=
  congrArg (List.foldl nextQuote · s) (if_neg (Bool.eq_false_iff.mp hc))

theorem Closed.openQuote_eq_none {s : Text} (h : Closed s) : openQuote none s = none := by
  induction h with
  | nil => rfl
  | plain hc _ ih => rw [openQuote_of_plain hc, ih]
  | run hq hbody _ ih => rw [openQuote_of_quote hq, openQuote_run hbody, ih]

theorem closed_of_openQuote : ∀ {s : Text}, openQuote none s = none → Closed s
  | [], _ => .nil
  | c :: s, h => by
    cases hc : isQuote c with
    | false =>
      rw [openQuote_of_plain hc] at h
      exact .plain hc (closed_of_openQuote h)
    | true =>
      rw [openQuote_of_quote hc] at h
      by_cases hmem : c ∈ s
      · obtain ⟨body, rest, rfl, hbody⟩ := List.eq_append_cons_of_mem hmem
        rw [openQuote_run hbody] at h
        exact .run hc hbody (closed_of_openQuote h)
      -- The run that the first character opens is never closed.
      · rw [openQuote_inside hmem] at h
        cases h
termination_by s => s.length

theorem closed_iff {s : Text} : Closed s ↔ openQuote none s = none := ⟨Closed.openQuote_eq_none, closed_of_openQuote⟩

instance (s : Text) : Decidable (Closed s) := decidable_of_iff (openQuote none s = none) closed_iff.symm

theorem Closed.append_iff {a : Text} (h : Closed a) {b : Text} : Closed (a ++ b) ↔ Closed b := by
  rw [closed_iff, openQuote_append, closed_iff.mp h, closed_iff]

/-! ### Cuts -/

/-- A text without a semicolon outside quotes. -/
def Uncut (s : Text) : Prop := ∀ a b, s = a ++ ';' :: b → ¬Closed a

instance (s : Text) : Decidable (Uncut s) :=
  decidable_of_iff (∀ n < s.length, s[n]? = some ';' → ¬Closed (s.take n)) <| by
    constructor
    · rintro h a b rfl
      simpa using h a.length
    · intro h n hn hsemicolon
      obtain ⟨_, hget⟩ := List.getElem?_eq_some_iff.mp hsemicolon
      exact h _ (s.drop (n + 1)) (by rw [← hget, List.getElem_cons_drop, List.take_append_drop])

/-- A script is cut into pieces at its semicolons outside quotes. -/
inductive CutInto : Text → List Text → Prop
  | last {piece : Text} (uncut : Uncut piece) : CutInto piece [piece]
  | cons {piece script : Text} {pieces : List Text} (closed : Closed piece) (uncut : Uncut piece)
    (rest : CutInto script pieces) : CutInto (piece ++ ';' :: script) (piece :: pieces)

/-- Where there is a semicolon outside quotes, there is a first one. -/
theorem exists_first_cut {s : Text} (h : ¬Uncut s) :
    ∃ piece rest, s = piece ++ ';' :: rest ∧ Closed piece ∧ Uncut piece := by
  simp only [Uncut, not_forall, not_not] at h
  obtain ⟨a, b, hs, ha⟩ := h
  by_cases huncut : Uncut a
  · exact ⟨a, b, hs, ha, huncut⟩
  -- A semicolon further in front is outside quotes in `a` already.
  · have hlength : a.length < s.length := by
      rw [hs, List.length_append, List.length_cons]
      omega
    obtain ⟨piece, rest, heq, hpiece⟩ := exists_first_cut huncut
    exact ⟨piece, rest ++ ';' :: b, by rw [hs, heq, List.append_assoc, List.cons_append], hpiece⟩
termination_by s.length
decreasing_by exact hlength

theorem exists_cutInto (script : Text) : ∃ pieces, CutInto script pieces := by
  by_cases huncut : Uncut script
  · exact ⟨[script], .last huncut⟩
  · obtain ⟨piece, rest, heq, hclosed, hpiece⟩ := exists_first_cut huncut
    have hlength : rest.length < script.length := by
      rw [heq, List.length_append, List.length_cons]
      omega
    obtain ⟨pieces, hpieces⟩ := exists_cutInto rest
    exact ⟨piece :: pieces, heq ▸ .cons hclosed hpiece hpieces⟩
termination_by script.length
decreasing_by exact hlength

/-- Behind a closed text that is followed by a semicolon no piece goes on. -/
theorem eq_nil_of_uncut {a t b b' : Text} (ha : Closed a) (huncut : Uncut (a ++ t))
    (h : ';' :: b = t ++ ';' :: b') : t = [] := by
  cases t with
  | nil => rfl
  | cons c t =>
    obtain ⟨rfl, -⟩ := List.cons.inj h
    exact absurd ha (huncut a t rfl)

theorem first_cut_unique {piece piece' rest rest' : Text} (hclosed : Closed piece) (huncut : Uncut piece)
    (hclosed' : Closed piece') (huncut' : Uncut piece') (h : piece ++ ';' :: rest = piece' ++ ';' :: rest') :
    piece = piece' ∧ rest = rest' := by
  have hpiece : piece = piece' := by
    rcases List.append_eq_append_iff.mp h with ⟨t, rfl, ht⟩ | ⟨t, rfl, ht⟩
    · rw [eq_nil_of_uncut hclosed huncut' ht, List.append_nil]
    · rw [eq_nil_of_uncut hclosed' huncut ht, List.append_nil]
  subst hpiece
  exact ⟨rfl, (List.cons.inj (List.append_cancel_left h)).2⟩

/-- There is one way to cut a script. -/
theorem CutInto.unique {script : Text} {pieces pieces' : List Text} (h : CutInto script pieces)
    (h' : CutInto script pieces') : pieces = pieces' := by
  induction h generalizing pieces' with
  | last huncut =>
    cases h' with
    | last => rfl
    | cons hclosed _ _ => exact absurd hclosed (huncut _ _ rfl)
  | cons hclosed huncut hrest ih =>
    generalize hscript : _ ++ ';' :: _ = script at h'
    cases h' with
    | last huncut' => exact absurd hclosed (huncut' _ _ hscript.symm)
    | cons hclosed' huncut' hrest' =>
      obtain ⟨rfl, rfl⟩ := first_cut_unique hclosed huncut hclosed' huncut' hscript
      rw [ih hrest']

/-- A script is cut at a semicolon outside quotes, and the texts on both sides like scripts of their own. -/
theorem CutInto.append {a b : Text} {pieces pieces' : List Text} (h : CutInto a pieces) (ha : Closed a)
    (hb : CutInto b pieces') : CutInto (a ++ ';' :: b) (pieces ++ pieces') := by
  induction h with
  | last huncut => exact .cons ha huncut hb
  | cons hclosed huncut hrest ih =>
    have hsemicolon : Closed [';'] := by decide
    have hscript := hsemicolon.append_iff.mp (hclosed.append_iff.mp ha)
    rw [List.append_assoc]
    exact .cons hclosed huncut (ih hscript)

-- A quote that is written twice keeps the semicolon inside, and one that is never closed keeps all behind it.
example : CutInto "a 'b;''; \";' ;; 'c;".toList ["a 'b;''; \";' ".toList, [], " 'c;".toList] :=
  show CutInto ("a 'b;''; \";' ".toList ++ ';' :: ([] ++ ';' :: " 'c;".toList)) _ from
    .cons (by decide) (by decide) (.cons (by decide) (by decide) (.last (by decide)))

end Script
end Schemata
