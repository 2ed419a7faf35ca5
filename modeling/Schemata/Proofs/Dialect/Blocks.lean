import Mathlib.Data.List.Forall2
import Schemata.Proofs.Dialect.Gaps
import Schemata.Proofs.Dialect.Grammar
import Schemata.Proofs.Text.Places

/-! The outline of a text by its grammar. A text is in one way a sequence of blocks and gaps in which no block begins.
    These are the blocks of its outline, on the lines counted from the front of the text. Each gap with a line that is
    neither blank nor a comment is skipped from its first such line on, and no other gap is. -/

namespace Schemata

namespace Grammar
variable {α : Type} (g : Grammar α)

/-- The shapes of a text, each with all that stands before it. -/
def shapes (before : Text) : List (Text × α) → List (Text × α)
  | [] => []
  | (gap, a) :: hits => (before ++ gap, a) :: shapes (before ++ gap ++ g.render a) hits

/-- The gaps of a text, each with all that stands before it. -/
def gaps (before : Text) : List (Text × α) → Text → List (Text × Text)
  | [], tail => [(before, tail)]
  | (gap, a) :: hits, tail => (before, gap) :: gaps (before ++ gap ++ g.render a) hits tail

end Grammar

/-! ### What gaps leave unread -/

/-- A line that says nothing: a blank one, or a comment. -/
def IsSilent (line : Text) : Prop := IsBlank line ∨ ['/', '/'] <+: Text.trim line

/-- What a gap leaves unread: nothing if all its lines are silent, and else everything from its first line on that is
    not, trimmed. -/
inductive LeftUnread (before : Text) : Text → Option Skip → Prop
  | nothing {gap : Text} (silent : ∀ line ∈ gap.splitOn '\n', IsSilent line) : LeftUnread before gap none
  | rest {above rest : Text} (start : above = [] ∨ ∃ a, above = a ++ ['\n'])
    (silent : ∀ line ∈ above.splitOn '\n', IsSilent line) (first : ¬IsSilent (Text.firstLine rest)) :
    LeftUnread before (above ++ rest)
      (some ⟨.unrecognizedBlock, 1 + Text.newlines (before ++ above), Text.trim rest, none⟩)

theorem passesOutside_iff {line : Text} : passesOutside line = true ↔ IsSilent line := by
  rw [passesOutside, Text.ofString_eq, Bool.or_eq_true, List.isEmpty_iff, Text.trim_eq_nil_iff,
    List.isPrefixOf_iff_prefix]
  rfl

/-- Lines are silent, or go on behind silent ones with one that is not. -/
theorem silent_or_exists_rest {lines : List Text} (hfree : ∀ line ∈ lines, '\n' ∉ line) :
    (∀ line ∈ lines, IsSilent line) ∨
      ∃ above rest, ['\n'].intercalate lines = above ++ rest ∧ (above = [] ∨ ∃ a, above = a ++ ['\n']) ∧
        (∀ line ∈ above.splitOn '\n', IsSilent line) ∧ ¬IsSilent (Text.firstLine rest) := by
  induction lines with
  | nil => exact .inl (List.forall_mem_nil _)
  | cons line lines ih =>
    obtain ⟨hline, hlines⟩ := List.forall_mem_cons.mp hfree
    by_cases hsilent : IsSilent line
    · rcases ih hlines with hall | ⟨above, rest, htext, hstart, habove, hfirst⟩
      · exact .inl (List.forall_mem_cons.mpr ⟨hsilent, hall⟩)
      · cases lines with
        | nil => exact .inl (List.forall_mem_singleton.mpr hsilent)
        | cons second lines =>
          refine .inr ⟨line ++ '\n' :: above, rest, ?_, .inr ?_, ?_, hfirst⟩
          · rw [List.intercalate_cons_cons, htext]
            simp
          · rcases hstart with rfl | ⟨a, rfl⟩
            · exact ⟨line, rfl⟩
            · exact ⟨line ++ '\n' :: a, by simp⟩
          · rw [Text.splitOn_append_cons, Text.splitOn_of_not_mem hline]
            exact List.forall_mem_cons.mpr ⟨hsilent, habove⟩
    · refine .inr ⟨[], ['\n'].intercalate (line :: lines), rfl, .inl rfl, ?_, ?_⟩
      · exact List.forall_mem_singleton.mpr (.inl IsBlank.nil)
      · rwa [Text.firstLine_intercalate hline]

theorem LeftUnread.total (before gap : Text) : ∃ skip?, LeftUnread before gap skip? := by
  rcases silent_or_exists_rest (fun _ => Text.not_mem_of_mem_splitOn) with
    hsilent | ⟨above, rest, htext, hstart, hsilent, hfirst⟩
  · exact ⟨none, .nothing hsilent⟩
  · rw [List.intercalate_splitOn] at htext
    exact htext ▸ ⟨_, .rest hstart hsilent hfirst⟩

/-- What does not begin with a silent line is skipped as a whole. -/
theorem gapSkip?_of_first {s : Text} (h : ¬IsSilent (Text.firstLine s)) (n : Nat) :
    gapSkip? n s = some ⟨.unrecognizedBlock, n, Text.trim s, none⟩ := by
  obtain ⟨first, rest, hsplit⟩ := List.exists_cons_of_ne_nil (List.splitOn_ne_nil '\n' s)
  have hfirst : Text.firstLine s = first := by
    have hhead := Text.head?_splitOn s
    rw [hsplit] at hhead
    exact (Option.some.inj hhead).symm
  have hjoin : Text.join "\n" (first :: rest) = s := by
    rw [← hsplit, Text.join, Text.ofString_eq]
    exact List.intercalate_splitOn '\n'
  rw [hfirst, ← passesOutside_iff] at h
  rw [gapSkip?_eq_linesSkip?, hsplit, linesSkip?, if_neg h, hjoin]

/-- What a gap leaves unread is what is skipped of it. -/
theorem LeftUnread.gapSkip?_eq {before gap : Text} {skip? : Option Skip} (h : LeftUnread before gap skip?) :
    gapSkip? (1 + Text.newlines before) gap = skip? := by
  have hpasses : ∀ {s : Text}, (∀ line ∈ s.splitOn '\n', IsSilent line) →
      ∀ line ∈ s.splitOn '\n', passesOutside line = true := fun hs line hline => passesOutside_iff.mpr (hs line hline)
  cases h with
  | nothing hsilent => exact gapSkip?_eq_none (hpasses hsilent) _
  | @rest above rest hstart hsilent hfirst =>
    rcases hstart with rfl | ⟨a, rfl⟩
    · rw [List.append_nil]
      exact gapSkip?_of_first hfirst _
    · have hlines : ∀ line ∈ a.splitOn '\n', passesOutside line = true := fun line hline =>
        hpasses hsilent line (by
          rw [Text.splitOn_append_cons]
          exact List.mem_append_left _ hline)
      have hcount : Text.newlines (before ++ (a ++ ['\n'])) = Text.newlines before + (Text.newlines a + 1) := by
        rw [Text.newlines_append, Text.newlines_append]
        rfl
      rw [hcount, ← Nat.add_assoc 1, List.append_assoc, List.singleton_append, gapSkip?_behind hlines]
      exact gapSkip?_of_first hfirst _

theorem leftUnread_gapSkip? (before gap : Text) : LeftUnread before gap (gapSkip? (1 + Text.newlines before) gap) := by
  obtain ⟨skip?, h⟩ := LeftUnread.total before gap
  rwa [h.gapSkip?_eq]

/-! ### Blocks and gaps on their lines -/

namespace Outline
open BlockShape (grammar)

/-- The block of a shape and all that stands before it, on the lines counted from the front. -/
def blockBehind (found : Text × BlockShape) : TableBlock where
  name := found.2.name
  body := found.2.body
  line := 1 + Text.newlines found.1
  bodyLine := 1 + Text.newlines (found.1 ++ found.2.header)

theorem place_shapes (before : Text) (hits : List (Text × BlockShape)) (tail : Text) :
    place (1 + Text.newlines before) hits tail =
      ⟨(grammar.shapes before hits).map blockBehind,
        (grammar.gaps before hits tail).filterMap fun part => gapSkip? (1 + Text.newlines part.1) part.2⟩ := by
  induction hits generalizing before with
  | nil =>
    rw [place, Grammar.gaps, filterMap_eq_flatMap, List.flatMap_singleton]
    rfl
  | cons hit hits ih =>
    obtain ⟨gap, b⟩ := hit
    have hrest : 1 + Text.newlines before + Text.newlines gap + Text.newlines b.render =
        1 + Text.newlines (before ++ gap ++ b.render) := by
      rw [Text.newlines_append, Text.newlines_append, Nat.add_assoc, Nat.add_assoc, Nat.add_assoc]
    have hline : 1 + Text.newlines before + Text.newlines gap = 1 + Text.newlines (before ++ gap) := by
      rw [Text.newlines_append, Nat.add_assoc]
    have hbody : 1 + Text.newlines (before ++ gap) + Text.newlines b.header =
        1 + Text.newlines (before ++ gap ++ b.header) := by
      rw [Text.newlines_append (before ++ gap), Nat.add_assoc]
    rw [place, hrest, ih, hline, hbody, Grammar.shapes, Grammar.gaps, filterMap_eq_flatMap, filterMap_eq_flatMap,
      List.flatMap_cons, List.map_cons]
    rfl

/-- A text has exactly one factorisation into blocks and gaps in which no block begins. Its outline has one block for
    each of these blocks, on its line, and one skip for each gap that leaves something unread. -/
theorem read_factors (s : Text) :
    ∃ f : Scan BlockShape, (∀ f', grammar.Factors s f' ↔ f' = f) ∧
      (read s).blocks = (grammar.shapes [] f.hits).map blockBehind ∧
      ∃ unread : List (Option Skip), (read s).skipped = unread.reduceOption ∧
        List.Forall₂ (fun part skip? => LeftUnread part.1 part.2 skip?) (grammar.gaps [] f.hits f.tail) unread := by
  let found := BlockShape.pattern.scan false s
  have hplace : read s = _ := place_shapes [] found.hits found.tail
  refine ⟨found, fun f => BlockShape.pattern_reads.factors_iff.trans eq_comm, congrArg blocks hplace,
    (grammar.gaps [] found.hits found.tail).map fun part => gapSkip? (1 + Text.newlines part.1) part.2, ?_, ?_⟩
  · show (read s).skipped = List.filterMap id (List.map _ _)
    rw [List.filterMap_map]
    exact congrArg skipped hplace
  · rw [List.forall₂_map_right_iff, List.forall₂_same]
    exact fun part _ => leftUnread_gapSkip? part.1 part.2

end Outline
end Schemata
