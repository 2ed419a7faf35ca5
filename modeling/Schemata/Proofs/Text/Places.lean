import Schemata.Proofs.Text.Basic

/-! Where parts of a text stand. A text that begins on a known line holds each of its parts from some line on: the one
    before which as many line feeds stand as lines have ended. That line of the text then goes on with the first line
    of the part. What is trimmed from a text are blanks at its ends. -/

namespace Schemata
namespace Text

/-! ### What trimming cuts off -/

theorem exists_append_trimEnd (s : Text) : ∃ behind, IsBlank behind ∧ trimEnd s ++ behind = s := by
  refine ⟨(s.reverse.takeWhile isBlank).reverse, ?_, ?_⟩
  · intro c hc
    exact List.mem_takeWhile_imp (List.mem_reverse.mp hc)
  · rw [trimEnd, ← List.reverse_append, List.takeWhile_append_dropWhile, List.reverse_reverse]

theorem exists_append_trim (s : Text) :
    ∃ behind, IsBlank behind ∧ s.takeWhile isBlank ++ (trim s ++ behind) = s := by
  obtain ⟨behind, hblank, hs⟩ := exists_append_trimEnd (trimStart s)
  refine ⟨behind, hblank, ?_⟩
  rw [trim, hs]
  exact List.takeWhile_append_dropWhile

theorem isBlank_takeWhile (s : Text) : IsBlank (s.takeWhile isBlank) := fun _ => List.mem_takeWhile_imp

theorem trim_trim (s : Text) : trim (trim s) = trim s := by
  obtain ⟨behind, hblank, hs⟩ := exists_append_trim s
  have htrim := congrArg trim hs
  rwa [trim_blank_append (isBlank_takeWhile s), trim_append_blank hblank] at htrim

/-- Trimming keeps a text with no blank at either end. -/
theorem trim_eq_self {s : Text} (hstart : Stops isBlank s) (hend : Stops isBlank s.reverse) : trim s = s := by
  rw [trim, trimStart, dropWhile_of_stops hstart, trimEnd, dropWhile_of_stops hend, List.reverse_reverse]

theorem stops_trim (s : Text) : Stops isBlank (trim s) := by
  obtain ⟨behind, -, hs⟩ := exists_append_trimEnd (trimStart s)
  have hstart : Stops isBlank (trimEnd (trimStart s) ++ behind) := by
    rw [hs]
    exact Stops.dropWhile s
  intro c hc
  exact hstart c (by rw [List.head?_append, show (trimEnd (trimStart s)).head? = some c from hc]; rfl)

theorem stops_reverse_trim (s : Text) : Stops isBlank (trim s).reverse := by
  rw [trim, trimEnd, List.reverse_reverse]
  exact Stops.dropWhile _

theorem trim_isInfix (s : Text) : trim s <:+: s := by
  obtain ⟨behind, -, hs⟩ := exists_append_trim s
  exact ⟨_, behind, by rw [List.append_assoc, hs]⟩

theorem count_blank {s : Text} (h : IsBlank s) {x : Char} (hx : isBlank x = false) : s.count x = 0 :=
  List.count_eq_zero.mpr fun hm => by
    rw [h x hm] at hx
    cases hx

/-- Trimming takes away blanks only. -/
theorem count_trim (s : Text) {x : Char} (hx : isBlank x = false) : (trim s).count x = s.count x := by
  obtain ⟨behind, hbehind, hs⟩ := exists_append_trim s
  conv => rhs; rw [← hs]
  rw [List.count_append, List.count_append, count_blank (isBlank_takeWhile s) hx, count_blank hbehind hx]
  omega

/-! ### Lines -/

/-- The line with the given number, counted from 1. -/
def line? (s : Text) : Nat → Option Text
  | 0 => none
  | n + 1 => (s.splitOn '\n')[n]?

/-- A text up to its first line feed. -/
def firstLine (s : Text) : Text := s.takeWhile (· != '\n')

/-- A text behind its last line feed. -/
def lastLine (s : Text) : Text := (s.reverse.takeWhile (· != '\n')).reverse

theorem firstLine_append {a : Text} (h : '\n' ∉ a) (b : Text) : firstLine (a ++ b) = a ++ firstLine b := by
  refine List.takeWhile_append_of_pos fun c hc => ?_
  rw [bne_iff_ne]
  rintro rfl
  exact h hc

theorem firstLine_eq_self {s : Text} (h : '\n' ∉ s) : firstLine s = s := by
  have happend := firstLine_append h []
  rw [List.append_nil] at happend
  exact happend.trans (List.append_nil s)

theorem firstLine_isPrefix (a b : Text) : firstLine a <+: firstLine (a ++ b) := by
  rw [firstLine, firstLine, List.takeWhile_append]
  split
  · rename_i hall
    rw [(List.takeWhile_prefix _).eq_of_length hall]
    exact List.prefix_append _ _
  · exact List.prefix_refl _

/-- A text ends in its last line, alone or behind a line feed. -/
theorem lastLine_cases (s : Text) :
    '\n' ∉ lastLine s ∧ (s = lastLine s ∨ ∃ before, s = before ++ '\n' :: lastLine s) := by
  have hfree : '\n' ∉ lastLine s := by
    intro hm
    have hne := List.mem_takeWhile_imp (List.mem_reverse.mp hm)
    exact absurd hne (by decide)
  refine ⟨hfree, ?_⟩
  have hsplit : (s.reverse.dropWhile (· != '\n')).reverse ++ lastLine s = s := by
    rw [lastLine, ← List.reverse_append, List.takeWhile_append_dropWhile, List.reverse_reverse]
  have hstop : Stops (· != '\n') (s.reverse.dropWhile (· != '\n')) := Stops.dropWhile _
  rcases hd : s.reverse.dropWhile (· != '\n') with _ | ⟨c, rest⟩
  · rw [hd, List.reverse_nil, List.nil_append] at hsplit
    exact Or.inl hsplit.symm
  · rw [hd, stops_cons, bne_eq_false_iff_eq] at hstop
    rw [hd, hstop, List.reverse_cons, List.append_assoc] at hsplit
    exact Or.inr ⟨rest.reverse, hsplit.symm⟩

/-- A character behind a text goes on with its last line, unless it is a line feed. -/
theorem splitOn_snoc {c : Char} (hc : c ≠ '\n') (s : Text) :
    ∃ lines, s.splitOn '\n' = lines ++ [lastLine s] ∧ (s ++ [c]).splitOn '\n' = lines ++ [lastLine s ++ [c]] := by
  have hsnoc : ∀ {line : Text}, '\n' ∉ line → '\n' ∉ line ++ [c] := fun h => by simp [h, Ne.symm hc]
  obtain ⟨hfree, hlast | ⟨before, hlast⟩⟩ := lastLine_cases s
  · refine ⟨[], ?_, ?_⟩
    · rw [List.nil_append, ← hlast, splitOn_of_not_mem (hlast ▸ hfree)]
    · rw [List.nil_append, ← hlast, splitOn_of_not_mem (hsnoc (hlast ▸ hfree))]
  · refine ⟨before.splitOn '\n', ?_, ?_⟩
    · rw [← splitOn_of_not_mem hfree, ← splitOn_append_cons, ← hlast]
    · rw [← splitOn_of_not_mem (hsnoc hfree), ← splitOn_append_cons, ← List.cons_append, ← List.append_assoc, ← hlast]

theorem head?_splitOn (s : Text) : (s.splitOn '\n').head? = some (firstLine s) := by
  induction s with
  | nil => rfl
  | cons c s ih =>
    rw [List.splitOn_cons_eq_if_modifyHead]
    by_cases hc : c = '\n'
    · rw [if_pos (by simpa using hc), hc]
      rfl
    · rw [if_neg (by simpa using hc), List.head?_modifyHead, ih, ← List.singleton_append,
        firstLine_append (by simpa using Ne.symm hc)]
      rfl

/-- The line on which one text ends and another one goes on. -/
theorem line?_append (a b : Text) : line? (a ++ b) (newlines a + 1) = some (lastLine a ++ firstLine b) := by
  obtain ⟨hfree, hlast | ⟨before, hlast⟩⟩ := lastLine_cases a
  · have hzero : newlines a = 0 := newlines_eq_zero (hlast ▸ hfree)
    rw [hzero, line?, ← List.head?_eq_getElem?, head?_splitOn, ← hlast, firstLine_append (hlast ▸ hfree)]
  · have hlines : newlines a = (before.splitOn '\n').length := by
      rw [length_splitOn, hlast, newlines_append, newlines, newlines, List.count_cons_self,
        List.count_eq_zero.mpr hfree]
    have htext : a ++ b = before ++ '\n' :: (lastLine a ++ b) := by
      rw [← List.cons_append, ← List.append_assoc, ← hlast]
    rw [hlines, line?, htext, splitOn_append_cons, List.getElem?_append_right (Nat.le_refl _), Nat.sub_self,
      ← List.head?_eq_getElem?, head?_splitOn, firstLine_append hfree]

theorem line?_le {s line : Text} {n : Nat} (h : line? s n = some line) : 1 ≤ n ∧ n ≤ (s.splitOn '\n').length := by
  cases n with
  | zero => cases h
  | succ n =>
    obtain ⟨hlt, -⟩ := List.getElem?_eq_some_iff.mp h
    exact ⟨Nat.succ_le_succ (Nat.zero_le n), hlt⟩

/-! ### Parts -/

/-- That a text which begins on line `n` holds a part from line `m` on. -/
def Holds (n : Nat) (s : Text) (m : Nat) (part : Text) : Prop :=
  ∃ before behind, before ++ (part ++ behind) = s ∧ n + newlines before = m

namespace Holds
variable {n m l : Nat} {s part sub : Text}

theorem self (n : Nat) (s : Text) : Holds n s n s := ⟨[], [], List.append_nil s, rfl⟩

theorem trans (h : Holds n s m part) (hsub : Holds m part l sub) : Holds n s l sub := by
  obtain ⟨before, behind, rfl, rfl⟩ := h
  obtain ⟨before', behind', rfl, rfl⟩ := hsub
  refine ⟨before ++ before', behind' ++ behind, ?_, ?_⟩
  · simp only [List.append_assoc]
  · rw [newlines_append, Nat.add_assoc]

/-- The rest of a text, behind a beginning of it. -/
theorem behind (n : Nat) (a b : Text) : Holds n (a ++ b) (n + newlines a) b :=
  ⟨a, [], by rw [List.append_nil], rfl⟩

theorem of_isPrefix (h : part <+: s) (n : Nat) : Holds n s n part := by
  obtain ⟨behind, rfl⟩ := h
  exact ⟨[], behind, rfl, rfl⟩

/-- On a single line all parts begin on that line. -/
theorem of_isInfix (h : part <:+: s) (hs : '\n' ∉ s) (n : Nat) : Holds n s n part := by
  obtain ⟨before, behind, rfl⟩ := h
  rw [List.append_assoc, List.mem_append, not_or] at hs
  exact ⟨before, behind, (List.append_assoc _ _ _).symm, by rw [newlines_eq_zero hs.1]; rfl⟩

/-- A part leaves its first line on the line from which on it is held. -/
theorem exists_line (h : Holds 1 s m part) : ∃ line, line? s m = some line ∧ firstLine part <:+: line := by
  obtain ⟨before, behind, rfl, rfl⟩ := h
  refine ⟨_, by rw [Nat.add_comm]; exact line?_append before (part ++ behind), ?_⟩
  obtain ⟨rest, hrest⟩ := firstLine_isPrefix part behind
  exact ⟨lastLine before, rest, by rw [← hrest, List.append_assoc]⟩

end Holds

theorem isPrefix_intercalate (sep first : Text) (rest : List Text) : first <+: sep.intercalate (first :: rest) := by
  cases rest with
  | nil => exact ⟨[], by rw [List.append_nil, List.intercalate_singleton]⟩
  | cons second rest =>
    rw [List.intercalate_cons_cons, List.append_assoc]
    exact List.prefix_append _ _

theorem isSuffix_intercalate (sep last : Text) (front : List Text) : last <:+ sep.intercalate (front ++ [last]) := by
  induction front with
  | nil => simp
  | cons first front ih =>
    obtain ⟨second, rest, hrest⟩ := List.exists_cons_of_ne_nil
      (List.append_ne_nil_of_right_ne_nil front (List.cons_ne_nil last []))
    rw [List.cons_append, hrest, List.intercalate_cons_cons, ← hrest]
    exact ih.trans (List.suffix_append _ _)

theorem isInfix_intercalate {sep part : Text} {parts : List Text} (h : part ∈ parts) :
    part <:+: sep.intercalate parts := by
  induction parts with
  | nil => cases h
  | cons first rest ih =>
    rcases List.mem_cons.mp h with rfl | h
    · exact (isPrefix_intercalate sep part rest).isInfix
    · obtain ⟨second, rest, rfl⟩ := List.exists_cons_of_ne_nil (List.ne_nil_of_mem h)
      rw [List.intercalate_cons_cons]
      exact (ih h).trans (List.suffix_append _ _).isInfix

/-- Texts without blanks at their ends have none there when they are joined. -/
theorem trim_join {sep : Text} {parts : List Text} (h : ∀ t ∈ parts, t ≠ [] ∧ trim t = t) :
    trim (join sep parts) = join sep parts := by
  rcases List.eq_nil_or_concat parts with rfl | ⟨front, last, rfl⟩
  · rfl
  · rw [List.concat_eq_append] at h ⊢
    obtain ⟨first, rest, hparts⟩ := List.exists_cons_of_ne_nil
      (List.append_ne_nil_of_right_ne_nil front (List.cons_ne_nil last []))
    obtain ⟨hfirst, htrim⟩ := h first (hparts ▸ List.mem_cons_self)
    obtain ⟨hlast, htrim'⟩ := h last (by simp)
    refine trim_eq_self ?_ ?_
    · have hstart : Stops isBlank first := htrim ▸ stops_trim first
      rw [hparts]
      exact hstart.of_isPrefix hfirst (isPrefix_intercalate sep first rest)
    · have hend : Stops isBlank last.reverse := htrim' ▸ stops_reverse_trim last
      refine hend.of_isPrefix (by simpa using hlast) ?_
      exact List.reverse_prefix.mpr (isSuffix_intercalate sep last front)

theorem firstLine_intercalate {first : Text} (h : '\n' ∉ first) (rest : List Text) :
    firstLine (['\n'].intercalate (first :: rest)) = first := by
  cases rest with
  | nil => rw [List.intercalate_singleton, firstLine_eq_self h]
  | cons second rest =>
    rw [List.intercalate_cons_cons, List.append_assoc, firstLine_append h]
    exact List.append_nil first

/-- Behind its first lines a text goes on with the others. -/
theorem holds_intercalate {first rest : List Text} (hfree : ∀ line ∈ first, '\n' ∉ line) (hrest : rest ≠ []) (n : Nat) :
    Holds n (['\n'].intercalate (first ++ rest)) (n + first.length) (['\n'].intercalate rest) := by
  induction first generalizing n with
  | nil => exact Holds.self n _
  | cons line first ih =>
    obtain ⟨hline, hfirst⟩ := List.forall_mem_cons.mp hfree
    obtain ⟨next, others, hcons⟩ := List.exists_cons_of_ne_nil (List.append_ne_nil_of_right_ne_nil first hrest)
    have hlines : newlines (line ++ ['\n']) = 1 := by
      rw [newlines_append, newlines_eq_zero hline]
      rfl
    have hbehind := Holds.behind n (line ++ ['\n']) (['\n'].intercalate (first ++ rest))
    rw [List.cons_append, hcons, List.intercalate_cons_cons, ← hcons, List.length_cons, Nat.add_comm first.length,
      ← Nat.add_assoc, ← hlines]
    exact hbehind.trans (ih hfirst _)

/-- Each line of a text stands in it, behind the lines before. -/
theorem holds_of_splitOn {s line : Text} {k : Nat} (h : (s.splitOn '\n')[k]? = some line) (n : Nat) :
    Holds n s (n + k) line := by
  obtain ⟨hk, hline⟩ := List.getElem?_eq_some_iff.mp h
  have hdrop : (s.splitOn '\n').drop k = line :: (s.splitOn '\n').drop (k + 1) := by
    rw [List.drop_eq_getElem_cons hk, hline]
  have hfree : ∀ line ∈ (s.splitOn '\n').take k, '\n' ∉ line := fun line hm =>
    not_mem_of_mem_splitOn (List.mem_of_mem_take hm)
  have hne : (s.splitOn '\n').drop k ≠ [] := by
    rw [hdrop]
    exact List.cons_ne_nil _ _
  have hholds := holds_intercalate hfree hne n
  rw [List.take_append_drop, List.length_take_of_le (Nat.le_of_lt hk), List.intercalate_splitOn, hdrop] at hholds
  exact hholds.trans (Holds.of_isPrefix (isPrefix_intercalate _ _ _) _)

/-! ### Lines between their ends -/

/-- What stands around a line: line ends, or the ends of the text. -/
structure AroundLine (above below : Text) : Prop where
  above : above = [] ∨ ∃ a, above = a ++ ['\n']
  below : below = [] ∨ ∃ b, below = '\n' :: b ∨ below = '\r' :: '\n' :: b

theorem AroundLine.exists_splitOn {above below : Text} (h : AroundLine above below) :
    ∃ front ending back, (ending = [] ∨ ending = ['\r']) ∧ ∀ line : Text, '\n' ∉ line →
      (above ++ (line ++ below)).splitOn '\n' = front ++ (line ++ ending) :: back := by
  obtain ⟨ending, back, hending, hback⟩ : ∃ ending back, (ending = [] ∨ ending = ['\r']) ∧
      ∀ line : Text, '\n' ∉ line → (line ++ below).splitOn '\n' = (line ++ ending) :: back := by
    rcases h.below with rfl | ⟨b, rfl | rfl⟩
    · refine ⟨[], [], .inl rfl, fun line hline => ?_⟩
      rw [List.append_nil, splitOn_of_not_mem hline]
    · refine ⟨[], b.splitOn '\n', .inl rfl, fun line hline => ?_⟩
      rw [splitOn_append_cons, splitOn_of_not_mem hline, List.append_nil]
      rfl
    · refine ⟨['\r'], b.splitOn '\n', .inr rfl, fun line hline => ?_⟩
      rw [List.append_cons, splitOn_append_cons, splitOn_of_not_mem (by simp [hline])]
      rfl
  rcases h.above with rfl | ⟨a, rfl⟩
  · exact ⟨[], ending, back, hending, hback⟩
  · refine ⟨a.splitOn '\n', ending, back, hending, fun line hline => ?_⟩
    rw [List.append_assoc, List.singleton_append, splitOn_append_cons, hback line hline]

/-- A line, given without its end, is a part but for a carriage return before a line feed. -/
theorem eq_or_of_dropReturn (part : Text) : part = dropReturn part ∨ part = dropReturn part ++ ['\r'] := by
  unfold dropReturn
  split
  · rename_i h
    obtain ⟨front, rfl⟩ := List.getLast?_eq_some_iff.mp (beq_iff_eq.mp h)
    exact .inr (by simp)
  · exact .inl rfl

/-- A line more above. -/
theorem AroundLine.behind {above below : Text} (h : AroundLine above below) (first : Text) :
    AroundLine (first ++ '\n' :: above) below := by
  refine ⟨.inr ?_, h.below⟩
  rcases h.above with rfl | ⟨a, rfl⟩
  · exact ⟨first, rfl⟩
  · exact ⟨first ++ '\n' :: a, by simp⟩

theorem exists_aroundLine_of_parts {parts : List Text} (hfree : ∀ part ∈ parts, '\n' ∉ part) {k : Nat} {line : Text}
    (h : (endLines parts)[k]? = some line) :
    ∃ above below, ['\n'].intercalate parts = above ++ (line ++ below) ∧ newlines above = k ∧
      AroundLine above below ∧ '\n' ∉ line := by
  induction parts generalizing k with
  | nil => cases h
  | cons first rest ih =>
    obtain ⟨hfirst, hrest⟩ := List.forall_mem_cons.mp hfree
    cases rest with
    | nil =>
      rw [endLines] at h
      split at h
      · cases h
      · cases k with
        | zero =>
          cases h
          exact ⟨[], [], by simp, rfl, ⟨.inl rfl, .inl rfl⟩, hfirst⟩
        | succ k => cases h
    | cons second rest =>
      have hlines : endLines (first :: second :: rest) = dropReturn first :: endLines (second :: rest) := by
        rw [endLines]
        simp
      rw [hlines] at h
      rw [List.intercalate_cons_cons, List.append_assoc, List.singleton_append]
      cases k with
      | zero =>
        cases h
        generalize ['\n'].intercalate (second :: rest) = others
        -- The line ends before its line feed, or before a carriage return in front of that.
        rcases eq_or_of_dropReturn first with heq | heq
        · exact ⟨[], '\n' :: others, by rw [← heq]; rfl, rfl, ⟨.inl rfl, .inr ⟨others, .inl rfl⟩⟩, heq ▸ hfirst⟩
        · refine ⟨[], '\r' :: '\n' :: others, ?_, rfl, ⟨.inl rfl, .inr ⟨others, .inr rfl⟩⟩, fun hm => ?_⟩
          · conv => lhs; rw [heq]
            simp
          · exact hfirst (heq ▸ List.mem_append_left _ hm)
      | succ k =>
        obtain ⟨above, below, hjoin, hcount, haround, hline⟩ := ih hrest h
        refine ⟨first ++ '\n' :: above, below, by rw [hjoin]; simp, ?_, haround.behind first, hline⟩
        rw [newlines_append, newlines_eq_zero hfirst, newlines, List.count_cons_self, ← newlines, hcount, Nat.zero_add]

/-- Each line of a text stands in it between line ends. -/
theorem exists_aroundLine {s line : Text} {k : Nat} (h : (lines s)[k]? = some line) :
    ∃ above below, s = above ++ (line ++ below) ∧ newlines above = k ∧ AroundLine above below ∧ '\n' ∉ line := by
  obtain ⟨above, below, hjoin, hplace⟩ := exists_aroundLine_of_parts (fun _ => not_mem_of_mem_splitOn) h
  rw [List.intercalate_splitOn] at hjoin
  exact ⟨above, below, hjoin, hplace⟩

end Text
end Schemata
