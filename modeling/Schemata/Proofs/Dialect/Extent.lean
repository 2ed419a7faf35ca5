import Schemata.Proofs.Dialect.Findings
import Schemata.Ddl.Compilation

/-! On which lines things stand. A block stands on the lines of the text it is read from, a column on a line of its
    block's body, and whatever is left out is given a line of that text. -/

namespace Schemata

/-! ### Between two lines -/

def Skip.Within (lo hi : Nat) (s : Skip) : Prop := lo ≤ s.line ∧ s.line ≤ hi

/-- A block all of whose lines stand between two lines. -/
structure TableBlock.Within (lo hi : Nat) (b : TableBlock) : Prop where
  start : lo ≤ b.line
  body : b.line ≤ b.bodyLine
  stop : b.bodyLine + Text.newlines b.body ≤ hi

structure Outline.Within (lo hi : Nat) (o : Outline) : Prop where
  blocks : ∀ b ∈ o.blocks, b.Within lo hi
  skipped : ∀ skip ∈ o.skipped, skip.Within lo hi

section Mono
variable {lo lo' hi hi' : Nat} (hlo : lo' ≤ lo) (hhi : hi ≤ hi')
include hlo hhi

theorem Skip.Within.mono {s : Skip} (h : s.Within lo hi) : s.Within lo' hi' :=
  ⟨Nat.le_trans hlo h.1, Nat.le_trans h.2 hhi⟩

theorem TableBlock.Within.mono {b : TableBlock} (h : b.Within lo hi) : b.Within lo' hi' :=
  ⟨Nat.le_trans hlo h.start, h.body, Nat.le_trans h.stop hhi⟩

theorem Outline.Within.mono {o : Outline} (h : o.Within lo hi) : o.Within lo' hi' :=
  ⟨fun b hb => (h.blocks b hb).mono hlo hhi, fun skip hskip => (h.skipped skip hskip).mono hlo hhi⟩

end Mono

/-! ### In a block -/

theorem Text.length_endLines_le (parts : List Text) : (endLines parts).length ≤ parts.length := by
  induction parts with
  | nil => exact Nat.le_refl _
  | cons line rest ih =>
    cases rest with
    | nil =>
      rw [endLines]
      split <;> simp
    | cons line' rest =>
      rw [endLines]
      · exact Nat.succ_le_succ ih
      · simp

theorem Text.length_lines_le (s : Text) : (lines s).length ≤ newlines s + 1 :=
  length_splitOn s ▸ length_endLines_le _

namespace TableBlock
variable {b : TableBlock}

theorem line_of_mem_pieces {piece : Nat × Piece ColumnShape} (h : piece ∈ b.pieces) :
    b.bodyLine ≤ piece.1 ∧ piece.1 ≤ b.bodyLine + Text.newlines b.body := by
  obtain ⟨⟨line, n⟩, hline, hpiece⟩ := List.mem_flatMap.mp h
  obtain ⟨_, -, rfl⟩ := List.mem_map.mp hpiece
  obtain ⟨hstart, hstop, -⟩ := List.mem_zipIdx hline
  have hlength := Text.length_lines_le b.body
  dsimp only
  omega

theorem line_of_mem_columns {c : Column} (h : c ∈ b.columns) :
    b.bodyLine ≤ c.line ∧ c.line ≤ b.bodyLine + Text.newlines b.body := by
  rw [columns_eq_pieces] at h
  obtain ⟨⟨n, piece⟩, hpiece, hc⟩ := List.mem_filterMap.mp h
  cases piece with
  | passed text => cases hc
  | found shape =>
    cases hc
    exact line_of_mem_pieces hpiece

theorem line_of_mem_skipped {skip : Skip} (h : skip ∈ b.skipped) :
    b.bodyLine ≤ skip.line ∧ skip.line ≤ b.bodyLine + Text.newlines b.body := by
  rw [skipped_eq_pieces] at h
  obtain ⟨⟨n, piece⟩, hpiece, hskip⟩ := List.mem_flatMap.mp h
  have hline : skip.line = n := by
    cases piece with
    | passed text =>
      rw [Body.pieceSkips] at hskip
      split at hskip
      · cases hskip
      · rw [List.mem_singleton.mp hskip]
    | found shape =>
      obtain ⟨token, -, rfl⟩ := List.mem_map.mp hskip
      rfl
  exact hline ▸ line_of_mem_pieces hpiece

theorem Within.leftOut {lo hi : Nat} (hb : b.Within lo hi) {skip : Skip} (h : skip ∈ b.leftOut) :
    skip.Within lo hi := by
  have hbody : b.bodyLine ≤ skip.line ∧ skip.line ≤ b.bodyLine + Text.newlines b.body → skip.Within lo hi := by
    rintro ⟨hstart, hstop⟩
    exact ⟨Nat.le_trans hb.start (Nat.le_trans hb.body hstart), Nat.le_trans hstop hb.stop⟩
  rw [TableBlock.leftOut, List.mem_append, List.mem_append] at h
  rcases h with (h | h) | h
  · exact hbody (line_of_mem_skipped h)
  · obtain ⟨c, hc, h⟩ := List.mem_flatMap.mp h
    obtain ⟨token, -, rfl⟩ := List.mem_map.mp h
    exact hbody (line_of_mem_columns hc)
  · rw [emptySkip] at h
    split at h
    · cases h
    · rw [List.mem_singleton.mp h]
      have hbody := hb.body
      have hstop := hb.stop
      exact ⟨hb.start, by dsimp only; omega⟩

end TableBlock

/-! ### In a text -/

theorem gapSkip?_within {n : Nat} {gap : Text} {skip : Skip} (h : gapSkip? n gap = some skip) :
    skip.Within n (n + Text.newlines gap) := by
  unfold gapSkip? at h
  dsimp only at h
  rw [Option.ite_none_left_eq_some] at h
  obtain ⟨hrest, heq⟩ := h
  cases heq
  have hsplit := congrArg List.length (List.takeWhile_append_dropWhile (p := passesOutside) (l := gap.splitOn '\n'))
  have hpos := List.length_pos_iff.mpr (fun h => hrest (List.isEmpty_iff.mpr h))
  rw [List.length_append, Text.length_splitOn] at hsplit
  exact ⟨Nat.le_add_right _ _, by dsimp only; omega⟩

namespace Outline

theorem place_within (n : Nat) (hits : List (Text × BlockShape)) (tail : Text) :
    (place n hits tail).Within n
      (n + Text.newlines ((Scan.mk hits tail).pieces.flatMap BlockShape.pattern.pieceText)) := by
  induction hits generalizing n with
  | nil =>
    refine ⟨List.forall_mem_nil _, fun skip hskip => ?_⟩
    have htext : (Scan.mk [] tail).pieces.flatMap BlockShape.pattern.pieceText = tail := List.append_nil _
    rw [htext]
    exact gapSkip?_within (Option.mem_toList.mp hskip)
  | cons hit hits ih =>
    obtain ⟨gap, shape⟩ := hit
    have htext : (Scan.mk ((gap, shape) :: hits) tail).pieces.flatMap BlockShape.pattern.pieceText =
        gap ++ (shape.render ++ (Scan.mk hits tail).pieces.flatMap BlockShape.pattern.pieceText) := rfl
    have hrender : Text.newlines shape.render = Text.newlines shape.header + Text.newlines shape.body := by
      have hbrace : Text.newlines "\x7d" = 0 := by simp [Text.newlines, Text.ofString_eq]
      rw [BlockShape.render, Text.newlines_append, Text.newlines_append, hbrace, Nat.add_zero]
    rw [htext, Text.newlines_append, Text.newlines_append, ← Nat.add_assoc, ← Nat.add_assoc, place]
    have hstart : n ≤ n + Text.newlines gap + Text.newlines shape.render := by omega
    have hrest := (ih (n + Text.newlines gap + Text.newlines shape.render)).mono hstart (Nat.le_refl _)
    refine ⟨List.forall_mem_cons.mpr ⟨⟨?_, ?_, ?_⟩, hrest.blocks⟩, List.forall_mem_append.mpr ⟨?_, hrest.skipped⟩⟩
    · exact Nat.le_add_right _ _
    · exact Nat.le_add_right _ _
    · dsimp only
      omega
    · intro skip hskip
      exact (gapSkip?_within (Option.mem_toList.mp hskip)).mono (Nat.le_refl n) (by omega)

/-- Blocks and skips stand on the lines of their text. -/
theorem read_within (s : Text) : (read s).Within 1 (1 + Text.newlines s) := by
  have h := place_within 1 (BlockShape.pattern.scan false s).hits (BlockShape.pattern.scan false s).tail
  rwa [BlockShape.pattern.text_pieces] at h

theorem Within.leftOut {lo hi : Nat} {o : Outline} (ho : o.Within lo hi) {skip : Skip}
    (h : skip ∈ o.blocks.flatMap TableBlock.leftOut) : skip.Within lo hi := by
  obtain ⟨b, hb, h⟩ := List.mem_flatMap.mp h
  exact (ho.blocks b hb).leftOut h

end Outline
end Schemata
