import Mathlib.Data.List.TakeWhile
import Schemata.Text.Word

/-! Laws of the cuts in a text. Blanks and word characters exclude each other, so a run of the one ends where the
    other begins; a cut at a character gives back the two sides that were joined by it; trimming does not see blanks
    at the ends. -/

namespace Schemata

/-! ### Character classes -/

/-- The code points of White_Space. -/
def blankCodes : List Nat :=
  [9, 10, 11, 12, 13, 0x20, 0x85, 0xA0, 0x1680, 0x2000, 0x2001, 0x2002, 0x2003, 0x2004, 0x2005, 0x2006, 0x2007,
    0x2008, 0x2009, 0x200A, 0x2028, 0x2029, 0x202F, 0x205F, 0x3000]

theorem toNat_mem_blankCodes {c : Char} (h : isBlank c = true) : c.toNat ∈ blankCodes := by
  simp only [isBlank, Bool.or_eq_true, Bool.and_eq_true, decide_eq_true_eq, beq_iff_eq] at h
  simp only [blankCodes, List.mem_cons, List.not_mem_nil, or_false]
  omega

theorem isWord_ofNat_blankCodes : ∀ n ∈ blankCodes, isWord (Char.ofNat n) = false := by
  decide +kernel

theorem isWord_of_isBlank {c : Char} (h : isBlank c = true) : isWord c = false := by
  have hc := isWord_ofNat_blankCodes c.toNat (toNat_mem_blankCodes h)
  rwa [Char.ofNat_toNat] at hc

theorem isBlank_of_isWord {c : Char} (h : isWord c = true) : isBlank c = false := by
  cases hb : isBlank c
  · rfl
  · rw [isWord_of_isBlank hb] at h
    cases h

/-- A non-empty text of word characters, as names are. -/
structure IsName (s : Text) : Prop where
  ne_nil : s ≠ []
  word : ∀ c ∈ s, isWord c = true

instance (s : Text) : Decidable (IsName s) :=
  decidable_of_iff (s ≠ [] ∧ s.all isWord = true)
    ⟨fun h => ⟨h.1, List.all_eq_true.mp h.2⟩, fun h => ⟨h.ne_nil, List.all_eq_true.mpr h.word⟩⟩

/-- A text of blanks only. -/
def IsBlank (s : Text) : Prop := ∀ c ∈ s, isBlank c = true

instance (s : Text) : Decidable (IsBlank s) := decidable_of_iff (s.all isBlank = true) List.all_eq_true

namespace IsBlank

theorem nil : IsBlank [] := fun _ h => by cases h

theorem cons {c : Char} {s : Text} : IsBlank (c :: s) ↔ isBlank c = true ∧ IsBlank s := List.forall_mem_cons

theorem append {a b : Text} : IsBlank (a ++ b) ↔ IsBlank a ∧ IsBlank b := List.forall_mem_append

end IsBlank

namespace Text

theorem allBlank_iff {s : Text} : allBlank s = true ↔ IsBlank s := List.all_eq_true

/-- A text that holds none of the given characters. -/
def Avoids (chars : List Char) (s : Text) : Prop := ∀ c ∈ s, c ∉ chars

instance (chars : List Char) (s : Text) : Decidable (Avoids chars s) :=
  decidable_of_iff (s.all (!chars.contains ·) = true) (by simp [Avoids])

/-! ### Runs -/

/-- A text that does not go on with a character of the class. -/
def Stops (p : Char → Bool) (s : Text) : Prop := ∀ c ∈ s.head?, p c = false

section Runs
variable {p : Char → Bool} {a r : Text}

theorem Stops.nil : Stops p [] := fun _ h => by cases h

theorem stops_cons {c : Char} : Stops p (c :: r) ↔ p c = false := by
  simp [Stops]

theorem Stops.dropWhile (s : Text) : Stops p (s.dropWhile p) := by
  induction s with
  | nil => exact Stops.nil
  | cons c s ih =>
    rw [List.dropWhile_cons]
    split
    · exact ih
    · rename_i hc
      exact stops_cons.mpr (by simpa using hc)

/-- A text stops as a beginning of it does. -/
theorem Stops.of_isPrefix {s : Text} (ha : Stops p a) (hne : a ≠ []) (h : a <+: s) : Stops p s := by
  obtain ⟨c, a, rfl⟩ := List.exists_cons_of_ne_nil hne
  obtain ⟨r, rfl⟩ := h
  exact stops_cons.mpr (stops_cons.mp ha)

theorem takeWhile_of_stops (h : Stops p r) : r.takeWhile p = [] := by
  cases r with
  | nil => rfl
  | cons c r => rw [List.takeWhile_cons_of_neg (by simp [stops_cons.mp h])]

theorem dropWhile_of_stops (h : Stops p r) : r.dropWhile p = r := by
  cases r with
  | nil => rfl
  | cons c r => rw [List.dropWhile_cons_of_neg (by simp [stops_cons.mp h])]

theorem takeWhile_run (ha : ∀ c ∈ a, p c = true) (hr : Stops p r) : (a ++ r).takeWhile p = a := by
  rw [List.takeWhile_append_of_pos ha, takeWhile_of_stops hr, List.append_nil]

theorem dropWhile_run (ha : ∀ c ∈ a, p c = true) (hr : Stops p r) : (a ++ r).dropWhile p = r := by
  rw [List.dropWhile_append_of_pos ha, dropWhile_of_stops hr]

theorem takeWhile_snoc {c : Char} (hc : p c = false) : (a ++ [c]).takeWhile p = a.takeWhile p := by
  induction a with
  | nil => simp [hc]
  | cons x a ih => cases hx : p x <;> simp [hx, ih]

theorem dropWhile_snoc {c : Char} (hc : p c = false) : (a ++ [c]).dropWhile p = a.dropWhile p ++ [c] := by
  induction a with
  | nil => simp [hc]
  | cons x a ih => cases hx : p x <;> simp [hx, ih]

/-- A text that is not one run is cut the same before more text. -/
theorem takeWhile_append_of_not_all (h : ¬∀ c ∈ a, p c = true) : (a ++ r).takeWhile p = a.takeWhile p := by
  rw [List.takeWhile_append, if_neg]
  intro hl
  exact h (List.takeWhile_eq_self_iff.mp ((List.takeWhile_prefix p).eq_of_length hl))

theorem dropWhile_append_of_not_all (h : ¬∀ c ∈ a, p c = true) : (a ++ r).dropWhile p = a.dropWhile p ++ r := by
  rw [List.dropWhile_append, if_neg]
  intro he
  exact h (List.dropWhile_eq_nil_iff.mp (List.isEmpty_iff.mp he))

section Mem
variable {c : Char} (hc : p c = false) (h : c ∈ a)
include hc h

theorem takeWhile_append_of_mem : (a ++ r).takeWhile p = a.takeWhile p :=
  takeWhile_append_of_not_all fun ha => by simp [ha c h] at hc

theorem dropWhile_append_of_mem : (a ++ r).dropWhile p = a.dropWhile p ++ r :=
  dropWhile_append_of_not_all fun ha => by simp [ha c h] at hc

/-- A character outside the class is not dropped. -/
theorem mem_dropWhile : c ∈ a.dropWhile p := by
  have hmem : c ∈ a.takeWhile p ++ a.dropWhile p := by rwa [List.takeWhile_append_dropWhile]
  rcases List.mem_append.mp hmem with hmem | hmem
  · rw [List.mem_takeWhile_imp hmem] at hc
    cases hc
  · exact hmem

end Mem

/-- A character outside the class ends what is taken, whatever follows. -/
theorem takeWhile_append_cons {c : Char} (hc : p c = false) : (a ++ c :: r).takeWhile p = a.takeWhile p := by
  rw [List.append_cons, takeWhile_append_of_mem hc (by simp), takeWhile_snoc hc]

theorem dropWhile_append_cons {c : Char} (hc : p c = false) :
    (a ++ c :: r).dropWhile p = a.dropWhile p ++ c :: r := by
  rw [List.append_cons, dropWhile_append_of_mem hc (by simp), dropWhile_snoc hc, ← List.append_cons]

end Runs

/-- A text that stands before a name does not go on with a blank. -/
theorem stops_blank_name {s r : Text} (h : IsName s) : Stops isBlank (s ++ r) := by
  cases s with
  | nil => exact absurd rfl h.ne_nil
  | cons c s => exact stops_cons.mpr (isBlank_of_isWord (h.word c List.mem_cons_self))

/-- Blanks end a word. -/
theorem stops_word_blank {s r : Text} (h : IsBlank s) (hr : Stops isWord r) : Stops isWord (s ++ r) := by
  cases s with
  | nil => exact hr
  | cons c s => exact stops_cons.mpr (isWord_of_isBlank (h c List.mem_cons_self))

theorem stops_word_of_blank_ne_nil {s r : Text} (h : IsBlank s) (hne : s ≠ []) : Stops isWord (s ++ r) := by
  cases s with
  | nil => exact absurd rfl hne
  | cons c s => exact stops_cons.mpr (isWord_of_isBlank (h c List.mem_cons_self))

/-! ### Cuts -/

theorem dropPrefix?_append (start r : Text) : dropPrefix? start (start ++ r) = some r := by
  simp [dropPrefix?]

theorem dropPrefix?_cons {c x : Char} {start r : Text} :
    dropPrefix? (c :: start) (x :: r) = if x = c then dropPrefix? start r else none := by
  by_cases h : x = c
  · subst h
    simp [dropPrefix?]
  · simp [dropPrefix?, h, Ne.symm h]

theorem dropPrefix?_eq_none {c : Char} {s : Text} (h : Stops (· == c) s) (start : Text) :
    dropPrefix? (c :: start) s = none := by
  cases s with
  | nil => simp [dropPrefix?]
  | cons x s => rw [dropPrefix?_cons, if_neg (by simpa using stops_cons.mp h)]

theorem dropPrefix?_eq_none_iff {start s : Text} : dropPrefix? start s = none ↔ ¬start <+: s := by
  simp [dropPrefix?]

theorem dropPrefix?_snoc {c : Char} {start : Text} (h : c ∉ start) (s : Text) :
    dropPrefix? start (s ++ [c]) = (dropPrefix? start s).map (· ++ [c]) := by
  induction start generalizing s with
  | nil => simp [dropPrefix?]
  | cons x start ih =>
    obtain ⟨hx, hstart⟩ := List.ne_and_not_mem_of_not_mem_cons h
    cases s with
    | nil =>
      rw [List.nil_append, dropPrefix?_cons, if_neg hx]
      rfl
    | cons y s =>
      rw [List.cons_append, dropPrefix?_cons, dropPrefix?_cons, ih hstart]
      split <;> rfl

/-- A beginning is told by the text up to a character that it does not hold. -/
theorem dropPrefix?_append_of_mem {c : Char} {start s : Text} (hc : c ∉ start) (h : c ∈ s) (t : Text) :
    dropPrefix? start (s ++ t) = (dropPrefix? start s).map (· ++ t) := by
  induction start generalizing s with
  | nil => simp [dropPrefix?]
  | cons x start ih =>
    obtain ⟨hx, hstart⟩ := List.ne_and_not_mem_of_not_mem_cons hc
    cases s with
    | nil => cases h
    | cons y s =>
      rw [List.cons_append, dropPrefix?_cons, dropPrefix?_cons]
      split
      · rename_i hy
        exact ih hstart ((List.mem_cons.mp h).resolve_left (hy ▸ hx))
      · rfl

theorem cut?_append {c : Char} {a : Text} (h : c ∉ a) (b : Text) : cut? c (a ++ c :: b) = some (a, b) := by
  induction a with
  | nil => simp [cut?]
  | cons x a ih =>
    obtain ⟨hx, ha⟩ := List.ne_and_not_mem_of_not_mem_cons h
    rw [List.cons_append, cut?, if_neg (by simpa using Ne.symm hx), ih ha]
    rfl

theorem cut?_eq_none {c : Char} {s : Text} : cut? c s = none ↔ c ∉ s := by
  induction s with
  | nil => simp [cut?]
  | cons x s ih =>
    rw [cut?]
    split
    · rename_i hx
      simp [beq_iff_eq.mp hx]
    · rename_i hx
      have hx : c ≠ x := fun h => hx (beq_iff_eq.mpr h.symm)
      simp [ih, hx]

theorem not_mem_of_cut? {c : Char} {s a b : Text} (h : cut? c s = some (a, b)) : c ∉ a := by
  induction s generalizing a with
  | nil => simp [cut?] at h
  | cons x s ih =>
    unfold cut? at h
    split at h
    · cases h
      exact List.not_mem_nil
    · rename_i hx
      obtain ⟨⟨a', b'⟩, hc, he⟩ := Option.map_eq_some_iff.mp h
      cases he
      exact List.not_mem_cons_of_ne_of_not_mem (fun h => hx (beq_iff_eq.mpr h.symm)) (ih hc)

/-- What is cut at a character stays so with more text behind. -/
theorem cut?_append_of_some {c : Char} {s a b : Text} (h : cut? c s = some (a, b)) (r : Text) :
    cut? c (s ++ r) = some (a, b ++ r) := by
  rw [← append_cut? h, List.append_assoc, List.cons_append]
  exact cut?_append (not_mem_of_cut? h) _

theorem cut?_snoc {c x : Char} (h : x ≠ c) (s : Text) :
    cut? c (s ++ [x]) = (cut? c s).map fun cut => (cut.1, cut.2 ++ [x]) := by
  rcases hs : cut? c s with _ | ⟨a, b⟩
  · rw [Option.map_none, cut?_eq_none]
    simpa [Ne.symm h] using cut?_eq_none.mp hs
  · rw [cut?_append_of_some hs]
    rfl

/-- A part without a character stands on one side of it. -/
theorem isInfix_append_cons {part a b : Text} {c : Char} (hc : c ∉ part) (h : part <:+: a ++ c :: b) :
    part <:+: a ∨ part <:+: b := by
  have hstart : ∀ {a : Text}, part <+: a ++ c :: b → part <+: a := by
    intro a hfront
    rw [List.append_cons] at hfront
    rcases List.prefix_or_prefix_of_prefix hfront (List.prefix_append (a ++ [c]) b) with hpart | hlong
    · rcases List.prefix_concat_iff.mp hpart with rfl | hpart
      · simp at hc
      · exact hpart
    · exact absurd (hlong.subset (by simp)) hc
  induction a with
  | nil =>
    rcases List.infix_cons_iff.mp h with hfront | hinside
    · exact .inl (hstart (a := []) hfront).isInfix
    · exact .inr hinside
  | cons x a ih =>
    rcases List.infix_cons_iff.mp h with hfront | hinside
    · exact .inl (hstart (a := x :: a) hfront).isInfix
    · rcases ih hinside with hpart | hpart
      · exact .inl (List.infix_cons hpart)
      · exact .inr hpart

/-- The first place of a separator is the one before which none begins, not even one that reaches into it. -/
theorem cutAt?_eq_some_iff {sep s a b : Text} (hne : sep ≠ []) :
    cutAt? sep s = some (a, b) ↔ a ++ (sep ++ b) = s ∧ ¬sep <:+: a ++ sep.dropLast := by
  have hshort : sep.dropLast.length < sep.length := by
    have hlength := List.length_pos_iff.mpr hne
    rw [List.length_dropLast]
    omega
  constructor
  · intro h
    refine ⟨append_cutAt? h, ?_⟩
    induction s generalizing a with
    | nil => simp [cutAt?, hne] at h
    | cons x s ih =>
      unfold cutAt? at h
      split at h
      · cases h
        rw [List.nil_append]
        exact fun hinfix => absurd hinfix.length_le (Nat.not_le.mpr hshort)
      · rename_i hfirst
        obtain ⟨⟨a', b'⟩, hcut, heq⟩ := Option.map_eq_some_iff.mp h
        cases heq
        rw [List.cons_append]
        intro hinfix
        rcases List.infix_cons_iff.mp hinfix with hfront | hinside
        · refine dropPrefix?_eq_none_iff.mp hfirst (hfront.trans ?_)
          rw [← append_cutAt? hcut, ← List.cons_append, ← List.cons_append]
          exact (List.prefix_append_right_inj _).mpr ((List.dropLast_prefix sep).trans (List.prefix_append sep b))
        · exact ih hcut hinside
  · rintro ⟨rfl, h⟩
    induction a with
    | nil =>
      obtain ⟨x, sep, rfl⟩ := List.exists_cons_of_ne_nil hne
      rw [List.nil_append, List.cons_append, cutAt?, ← List.cons_append, dropPrefix?_append]
    | cons x a ih =>
      have hfirst : dropPrefix? sep (x :: (a ++ (sep ++ b))) = none := by
        refine dropPrefix?_eq_none_iff.mpr fun hfront => h (List.IsPrefix.isInfix ?_)
        refine List.prefix_of_prefix_length_le hfront ?_ ?_
        · rw [← List.cons_append]
          exact (List.prefix_append_right_inj _).mpr ((List.dropLast_prefix sep).trans (List.prefix_append sep b))
        · rw [List.length_append, List.length_cons, List.length_dropLast]
          omega
      rw [List.cons_append, cutAt?, hfirst, ih fun hinfix => h (List.infix_cons hinfix)]
      rfl

theorem cutAt?_eq_none_iff {sep s : Text} (hne : sep ≠ []) : cutAt? sep s = none ↔ ¬sep <:+: s := by
  induction s with
  | nil => simp [cutAt?, hne]
  | cons x s ih =>
    rw [cutAt?, List.infix_cons_iff, not_or, ← dropPrefix?_eq_none_iff, ← ih]
    rcases dropPrefix? sep (x :: s) with _ | rest <;> simp

theorem cutAt?_of_not_mem {c : Char} {a : Text} (h : c ∉ a) (sep b : Text) :
    cutAt? (c :: sep) (a ++ (c :: sep ++ b)) = some (a, b) := by
  induction a with
  | nil =>
    rw [List.nil_append, List.cons_append, cutAt?, ← List.cons_append, dropPrefix?_append]
  | cons x a ih =>
    obtain ⟨hx, ha⟩ := List.ne_and_not_mem_of_not_mem_cons h
    have hfirst : Stops (· == c) (x :: (a ++ (c :: sep ++ b))) := stops_cons.mpr (by simpa using Ne.symm hx)
    rw [List.cons_append, cutAt?, dropPrefix?_eq_none hfirst, ih ha]
    rfl

theorem contains_iff {part s : Text} : contains part s = true ↔ part <:+: s := by
  induction s with
  | nil => rw [contains, List.isEmpty_iff, List.infix_nil]
  | cons c s ih => rw [contains, Bool.or_eq_true, List.isPrefixOf_iff_prefix, ih, List.infix_cons_iff]

/-! ### Trimming -/

theorem trimStart_blank {a : Text} (h : IsBlank a) (s : Text) : trimStart (a ++ s) = trimStart s :=
  List.dropWhile_append_of_pos h

theorem trimEnd_blank {b : Text} (h : IsBlank b) (s : Text) : trimEnd (s ++ b) = trimEnd s := by
  unfold trimEnd
  rw [List.reverse_append, List.dropWhile_append_of_pos fun c hc => h c (List.mem_reverse.mp hc)]

theorem trimEnd_cons {c : Char} (hc : isBlank c = false) (s : Text) : trimEnd (c :: s) = c :: trimEnd s := by
  rw [trimEnd, List.reverse_cons, dropWhile_snoc hc, List.reverse_append]
  rfl

theorem trim_blank_append {a : Text} (h : IsBlank a) (s : Text) : trim (a ++ s) = trim s := by
  unfold trim
  rw [trimStart_blank h]

theorem trim_eq_nil_iff {s : Text} : trim s = [] ↔ IsBlank s := by
  simp only [trim, trimEnd, List.reverse_eq_nil_iff, List.dropWhile_eq_nil_iff, List.mem_reverse]
  constructor
  · intro h c hc
    by_contra hb
    have hs : trimStart s = [] := by
      have hstop : Stops isBlank (trimStart s) := Stops.dropWhile s
      rcases hd : trimStart s with _ | ⟨x, t⟩
      · rfl
      · rw [hd] at h hstop
        have hx := h x List.mem_cons_self
        rw [stops_cons.mp hstop] at hx
        cases hx
    exact hb (List.dropWhile_eq_nil_iff.mp hs c hc)
  · intro h c hc
    exact h c (List.dropWhile_sublist _ |>.mem hc)

theorem trim_append_blank {b : Text} (h : IsBlank b) (s : Text) : trim (s ++ b) = trim s := by
  by_cases hs : IsBlank s
  · rw [trim_eq_nil_iff.mpr hs, trim_eq_nil_iff.mpr (IsBlank.append.mpr ⟨hs, h⟩)]
  · unfold trim trimStart
    rw [dropWhile_append_of_not_all hs, trimEnd_blank h]

/-! ### Lines -/

theorem newlines_append (a b : Text) : newlines (a ++ b) = newlines a + newlines b := List.count_append

theorem newlines_eq_zero {s : Text} (h : '\n' ∉ s) : newlines s = 0 := List.count_eq_zero.mpr h

/-- What stands on the first line of a text stays at the front of the first of its lines. -/
theorem splitOn_append_of_not_mem {c : Char} {a : Text} (h : c ∉ a) (s : Text) :
    (a ++ s).splitOn c = (s.splitOn c).modifyHead (a ++ ·) := by
  induction a with
  | nil =>
    rcases hs : s.splitOn c with _ | ⟨x, l⟩ <;> simp [hs]
  | cons x a ih =>
    obtain ⟨hx, ha⟩ := List.ne_and_not_mem_of_not_mem_cons h
    rw [List.cons_append, List.splitOn_cons_eq_if_modifyHead, if_neg (by simpa using Ne.symm hx), ih ha,
      List.modifyHead_modifyHead]
    rfl

theorem splitOn_of_not_mem {c : Char} {a : Text} (h : c ∉ a) : a.splitOn c = [a] := by
  have hsplit := splitOn_append_of_not_mem h []
  rwa [List.append_nil, List.splitOn_nil, List.modifyHead_cons, List.append_nil] at hsplit

/-- A cut character parts the pieces before it from those behind it. -/
theorem splitOn_append_cons (c : Char) (a b : Text) : (a ++ c :: b).splitOn c = a.splitOn c ++ b.splitOn c := by
  induction a with
  | nil => simp [List.splitOn_cons_eq_if_modifyHead]
  | cons x a ih =>
    rw [List.cons_append, List.splitOn_cons_eq_if_modifyHead, List.splitOn_cons_eq_if_modifyHead, ih]
    split
    · rfl
    · rcases ha : a.splitOn c with _ | ⟨first, rest⟩
      · exact absurd ha (List.splitOn_ne_nil _ _)
      · rfl

/-- A text has one line more than it has line feeds. -/
theorem length_splitOn (s : Text) : (s.splitOn '\n').length = newlines s + 1 := by
  induction s with
  | nil => rfl
  | cons c s ih =>
    rw [List.splitOn_cons_eq_if_modifyHead, newlines, List.count_cons]
    split
    · rw [List.length_cons, ih, newlines]
    · rw [List.length_modifyHead, ih, newlines]

/-- What stands on a line stands in the text. -/
theorem mem_of_mem_splitOn {c x : Char} {s part : Text} (hp : part ∈ s.splitOn c) (hx : x ∈ part) : x ∈ s := by
  induction s generalizing part with
  | nil =>
    rw [List.splitOn_nil, List.mem_singleton] at hp
    exact hp ▸ hx
  | cons y s ih =>
    rw [List.splitOn_cons_eq_if_modifyHead] at hp
    split at hp
    · rcases List.mem_cons.mp hp with rfl | hp
      · cases hx
      · exact List.mem_cons_of_mem y (ih hp hx)
    · rcases hs : s.splitOn c with _ | ⟨first, rest⟩
      · exact absurd hs (List.splitOn_ne_nil _ _)
      · rw [hs, List.modifyHead_cons] at hp
        rcases List.mem_cons.mp hp with rfl | hp
        · rcases List.mem_cons.mp hx with rfl | hx
          · exact List.mem_cons_self
          · exact List.mem_cons_of_mem y (ih (hs ▸ List.mem_cons_self) hx)
        · exact List.mem_cons_of_mem y (ih (hs ▸ List.mem_cons_of_mem _ hp) hx)

/-- The parts of a text hold none of the characters it is split at. -/
theorem false_of_mem_splitOnP {p : Char → Bool} {s part : Text} (h : part ∈ s.splitOnP p) :
    ∀ c ∈ part, p c = false := by
  induction s generalizing part with
  | nil =>
    rw [List.splitOnP_nil, List.mem_singleton] at h
    exact h ▸ List.forall_mem_nil _
  | cons x s ih =>
    rw [List.splitOnP_cons_eq_if_modifyHead] at h
    split at h
    · rcases List.mem_cons.mp h with rfl | h
      · exact List.forall_mem_nil _
      · exact ih h
    · rename_i hx
      obtain ⟨first, rest, hs⟩ := List.exists_cons_of_ne_nil (List.splitOnP_ne_nil p s)
      rw [hs, List.modifyHead_cons] at h
      rcases List.mem_cons.mp h with rfl | h
      · exact List.forall_mem_cons.mpr ⟨Bool.eq_false_iff.mpr hx, ih (hs ▸ List.mem_cons_self)⟩
      · exact ih (hs ▸ List.mem_cons_of_mem first h)

theorem not_mem_of_mem_splitOn {c : Char} {s part : Text} (h : part ∈ s.splitOn c) : c ∉ part := fun hc => by
  have hfalse := false_of_mem_splitOnP h c hc
  simp at hfalse

/-! ### Letter case -/

theorem sameFolded_of_sameFolded {a b c : Text} (ha : sameFolded a c = true) (hb : sameFolded b c = true) :
    sameFolded a b = true := by
  rw [sameFolded, beq_iff_eq] at ha hb ⊢
  exact ha.trans hb.symm

/-! ### Joining -/

theorem join_cons (sep part : Text) (parts : List Text) :
    join sep (part :: parts) = part ++ parts.flatMap (sep ++ ·) := by
  induction parts generalizing part with
  | nil => rw [join, List.intercalate_singleton, List.flatMap_nil, List.append_nil]
  | cons part' parts ih =>
    unfold join at ih ⊢
    rw [List.intercalate_cons_cons, ih, List.flatMap_cons, List.append_assoc, List.append_assoc]

end Text
end Schemata
