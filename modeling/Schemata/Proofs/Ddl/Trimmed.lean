import Schemata.Proofs.Ddl.Joined

/-! Blanks around a schema text. Those in front of it only move it down, and those behind it change nothing: no block
    begins in them or ends in them, and a gap is read from its first line that is not blank to its last one. So a text
    and the text trimmed give the same statements, and leave out the same. -/

namespace Schemata
namespace Outline

theorem read_blank_append {g : Text} (hg : IsBlank g) (s : Text) : read (g ++ s) = (read s).down (Text.newlines g) := by
  have hscan := BlockShape.pattern_skipsBlanks.scan_append hg false s
  rw [endsInWord_blank hg] at hscan
  unfold read
  rw [hscan, place_behind (gapSkip?_blank_append hg), place_down]

/-- Only the last gap grows. -/
theorem place_append_blank {e : Text} (he : IsBlank e) (n : Nat) (hits : List (Text × BlockShape)) (tail : Text) :
    place n hits (tail ++ e) = place n hits tail := by
  induction hits generalizing n with
  | nil => rw [place, place, gapSkip?_append_blank he]
  | cons hit hits ih =>
    obtain ⟨gap, shape⟩ := hit
    rw [place, place, ih]

theorem read_append_blank {e : Text} (he : IsBlank e) (s : Text) : read (s ++ e) = read s := by
  have hignored : ∀ c ∈ e, BlockShape.pattern.Ignores c := fun c hc => by
    refine BlockShape.pattern_closedBy.ignores ?_
    rintro rfl
    exact absurd (he _ hc) (by decide)
  unfold read
  rw [Pattern.Ignores.scan_append hignored, place_append_blank he]

/-- What trimming cuts off from the front of a text moves it down. -/
theorem read_eq_trim (s : Text) : read s = (read (Text.trim s)).down (Text.newlines (s.takeWhile isBlank)) := by
  obtain ⟨behind, hblank, hs⟩ := Text.exists_append_trim s
  have hread := read_blank_append (Text.isBlank_takeWhile s) (Text.trim s ++ behind)
  rwa [hs, read_append_blank hblank] at hread

end Outline

/-- A text is compiled as it is trimmed, further down. -/
theorem compile_eq_trim (s : Text) :
    compile s =
      ⟨(compile (Text.trim s)).statements,
        (compile (Text.trim s)).skipped.map (·.down (Text.newlines (s.takeWhile isBlank)))⟩ := by
  unfold compile
  rw [Outline.read_eq_trim]
  dsimp only
  rw [Outline.statements_down, Outline.allSkipped_down]

end Schemata
