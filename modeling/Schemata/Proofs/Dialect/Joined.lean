import Schemata.Proofs.Dialect.Down
import Schemata.Proofs.Dialect.Gaps

/-! Schema texts one after the other. Where only blanks stand behind the last block of a text, another text that begins
    on a new line is read as it is on its own, further down. The same holds behind a line that passes without notice and
    in which no block begins. -/

namespace Schemata

/-- What stands behind the last block of a text: all of it if there is none. -/
def behindBlocks (s : Text) : Text := (BlockShape.pattern.scan false s).tail

namespace Outline

/-- An outline with another one behind it. -/
def append (o o' : Outline) : Outline := ⟨o.blocks ++ o'.blocks, o.skipped ++ o'.skipped⟩

theorem place_append {tail : Text} (htail : IsBlank tail) (n : Nat) (hits hits' : List (Text × BlockShape))
    (tail' : Text) :
    place n (hits ++ hits') tail' =
      (place n hits tail).append
        (place (n + Text.newlines (hits.flatMap fun (gap, shape) => gap ++ shape.render)) hits' tail') := by
  induction hits generalizing n with
  | nil =>
    rw [place, gapSkip?_blank htail]
    rfl
  | cons hit hits ih =>
    obtain ⟨gap, shape⟩ := hit
    rw [List.cons_append, place, place, ih, List.flatMap_cons, Text.newlines_append, Text.newlines_append,
      ← Nat.add_assoc, ← Nat.add_assoc, append, append, List.cons_append, List.append_assoc]

/-- What leaves nothing unread in front of a text moves what follows it down. -/
theorem place_behind {g : Text} (h : ∀ n t, gapSkip? n (g ++ t) = gapSkip? (n + Text.newlines g) t) (n : Nat)
    (s : Scan BlockShape) :
    place n (s.behind g).hits (s.behind g).tail = place (n + Text.newlines g) s.hits s.tail := by
  obtain ⟨_ | ⟨⟨gap, shape⟩, hits⟩, tail⟩ := s
  · simp only [Scan.behind, place, h]
  · simp only [Scan.behind, place, h, Text.newlines_append, Nat.add_assoc]

/-- A line that passes, and in which no block begins, is read over. -/
theorem read_line {line b : Text} (hline : '\n' ∉ line) (hpass : passesOutside line = true)
    (hblock : BlockShape.pattern.passes false line ('\n' :: b) = true) :
    read (line ++ '\n' :: b) = (read b).down 1 := by
  have hcount : Text.newlines (line ++ ['\n']) = 1 := by
    rw [Text.newlines_append, Text.newlines_eq_zero hline]
    rfl
  have hgap : ∀ n t, gapSkip? n (line ++ ['\n'] ++ t) = gapSkip? (n + Text.newlines (line ++ ['\n'])) t := fun n t => by
    have hlines : ∀ part ∈ line.splitOn '\n', passesOutside part = true := by
      rw [Text.splitOn_of_not_mem hline]
      exact List.forall_mem_singleton.mpr hpass
    rw [hcount, List.append_assoc]
    exact (gapSkip?_behind hlines n t).trans (by rw [Text.newlines_eq_zero hline])
  have hpasses : BlockShape.pattern.passes false (line ++ ['\n']) b = true := by
    refine Pattern.passes_append.mpr ⟨hblock, ?_⟩
    exact BlockShape.pattern_skipsBlanks.passes (IsBlank.cons.mpr ⟨by decide, IsBlank.nil⟩) _ _
  have hscan : BlockShape.pattern.scan false (line ++ '\n' :: b) =
      (BlockShape.pattern.scan false b).behind (line ++ ['\n']) := by
    have h := Pattern.scan_of_passes hpasses
    rw [endsInWord_snoc, List.append_assoc] at h
    exact h
  unfold read
  rw [hscan, place_behind hgap, hcount, place_down]

theorem passesOutside_comment (c : Text) : passesOutside ('/' :: '/' :: c) = true := by
  have htrim : Text.trim ('/' :: '/' :: c) = '/' :: '/' :: Text.trimEnd c := by
    rw [Text.trim, Text.trimStart, List.dropWhile_cons_of_neg (by decide), Text.trimEnd_cons (by decide),
      Text.trimEnd_cons (by decide)]
  rw [passesOutside, htrim, Text.ofString_eq]
  rfl

theorem read_comment {b c : Text} (hc : '\n' ∉ c) (hblock : BlockShape.pattern.passes false c ('\n' :: b) = true) :
    read ('/' :: '/' :: c ++ '\n' :: b) = (read b).down 1 := by
  have hslash : ∀ b s, BlockShape.pattern.read? b ('/' :: s) = none := BlockShape.read?_eq_none (by decide)
  refine read_line (by simp [hc]) (passesOutside_comment c) ?_
  rw [Pattern.passes, Pattern.passes, List.cons_append, List.cons_append, hslash, hslash]
  exact hblock

/-- Another text behind a line feed is read on its own. -/
theorem read_append {a : Text} (ha : IsBlank (behindBlocks a)) (b : Text) :
    read (a ++ '\n' :: b) = (read a).append ((read b).down (Text.newlines a + 1)) := by
  have hblank : IsBlank (behindBlocks a ++ ['\n']) :=
    IsBlank.append.mpr ⟨ha, IsBlank.cons.mpr ⟨by decide, IsBlank.nil⟩⟩
  have hscan := BlockShape.pattern_closedBy.scan_append_append (b := false) (s := a) (v := ['\n']) (t := b)
    (fun b' => BlockShape.pattern_skipsBlanks.passes hblank b' b) fun b' => endsInWord_snoc b' _ '\n'
  let before := (BlockShape.pattern.scan false a).hits.flatMap fun (gap, shape) => gap ++ shape.render
  have hlines : 1 + Text.newlines before + Text.newlines (behindBlocks a ++ ['\n']) = 1 + (Text.newlines a + 1) := by
    have htext : before ++ behindBlocks a = a := BlockShape.pattern.hits_append_tail false a
    have hlast : Text.newlines (behindBlocks a ++ ['\n']) = Text.newlines (behindBlocks a) + 1 :=
      Text.newlines_append _ ['\n']
    rw [hlast, ← congrArg Text.newlines htext, Text.newlines_append]
    omega
  have hrest := place_behind (gapSkip?_blank_append hblank) (1 + Text.newlines before) (BlockShape.pattern.scan false b)
  rw [hlines, place_down (Text.newlines a + 1)] at hrest
  unfold read
  rw [← List.singleton_append, hscan, Scan.append, Scan.behind_behind, place_append ha]
  exact congrArg (append _) hrest

end Outline
end Schemata
