import Schemata.Proofs.Text.Scan
import Schemata.Dialect.Body

/-! What a body's lines hold does not depend on the blanks around it: neither on those in front of a line's text nor
    on a carriage return at its end. So the findings of a body can be read from its text cut at line feeds. -/

namespace Schemata

/-! ### Columns and blanks -/

namespace ColumnShape

theorem pattern_skipsBlanks : pattern.SkipsBlanks := fun _ c s h => by
  show read? (c :: s) = none
  simp [read?, isWord_of_isBlank h]

/-- Columns are found whatever stands before the text. -/
theorem scan_eq (b : Bool) (s : Text) : pattern.scan b s = pattern.scan false s :=
  pattern.scan_congr (fun _ _ _ => rfl) b false s

section Snoc
variable {c : Char} (hc : isBlank c = true)
include hc

theorem readSize_snoc (s : Text) : readSize (s ++ [c]) = ((readSize s).1, (readSize s).2 ++ [c]) := by
  have hopen : c ∉ ("(" : Text) := by
    rw [Text.ofString_eq]
    rintro (_ | ⟨_, ⟨⟩⟩)
    exact absurd hc (by decide)
  have hclose : c ≠ ')' := by
    rintro rfl
    exact absurd hc (by decide)
  have hcut : (Text.dropPrefix? "(" (s ++ [c])).bind (Text.cut? ')') =
      ((Text.dropPrefix? "(" s).bind (Text.cut? ')')).map fun cut => (cut.1, cut.2 ++ [c]) := by
    rw [Text.dropPrefix?_snoc hopen]
    cases Text.dropPrefix? "(" s with
    | none => rfl
    | some t => exact Text.cut?_snoc hclose t
  unfold readSize
  rw [hcut]
  rcases (Text.dropPrefix? "(" s).bind (Text.cut? ')') with _ | ⟨a, b⟩ <;> rfl

theorem readList_snoc (s : Text) : readList (s ++ [c]) = ((readList s).1, (readList s).2 ++ [c]) := by
  have hopen : c ∉ ("[" : Text) := by
    rw [Text.ofString_eq]
    rintro (_ | ⟨_, ⟨⟩⟩)
    exact absurd hc (by decide)
  have hclose : c ≠ ']' := by
    rintro rfl
    exact absurd hc (by decide)
  by_cases hs : IsBlank s
  · have hnone : ∀ t, IsBlank t → readList t = (none, t) := fun t ht => by
      unfold readList
      rw [List.dropWhile_eq_nil_iff.mpr ht]
      simp [Text.dropPrefix?, Text.ofString_eq]
    rw [hnone s hs, hnone (s ++ [c]) (IsBlank.append.mpr ⟨hs, IsBlank.cons.mpr ⟨hc, IsBlank.nil⟩⟩)]
  · have hcut : (Text.dropPrefix? "[" ((s ++ [c]).dropWhile isBlank)).bind (Text.cut? ']') =
        ((Text.dropPrefix? "[" (s.dropWhile isBlank)).bind (Text.cut? ']')).map fun cut => (cut.1, cut.2 ++ [c]) := by
      rw [Text.dropWhile_append_of_not_all hs, Text.dropPrefix?_snoc hopen]
      cases Text.dropPrefix? "[" (s.dropWhile isBlank) with
      | none => rfl
      | some t => exact Text.cut?_snoc hclose t
    unfold readList
    rw [hcut, Text.takeWhile_append_of_not_all hs]
    rcases (Text.dropPrefix? "[" (s.dropWhile isBlank)).bind (Text.cut? ']') with _ | ⟨a, b⟩ <;> rfl

theorem pattern_ignores : pattern.Ignores c := fun _ s => by
  show read? (s ++ [c]) = (read? s).map fun (a, r) => (a, r ++ [c])
  have hw := isWord_of_isBlank hc
  simp only [read?, Text.takeWhile_snoc hw, Text.dropWhile_snoc hw]
  by_cases hs : IsBlank (s.dropWhile isWord)
  · -- Behind the name stand only blanks, so there is no type, with or without one blank more.
    have hs' : IsBlank (s.dropWhile isWord ++ [c]) := IsBlank.append.mpr ⟨hs, IsBlank.cons.mpr ⟨hc, IsBlank.nil⟩⟩
    rw [List.dropWhile_eq_nil_iff.mpr hs, List.dropWhile_eq_nil_iff.mpr hs']
    simp
  · rw [Text.takeWhile_append_of_not_all hs, Text.dropWhile_append_of_not_all hs, Text.takeWhile_snoc hw,
      Text.dropWhile_snoc hw, readSize_snoc hc, readList_snoc hc]
    split <;> rfl

end Snoc

end ColumnShape

/-! ### Lines and blanks -/

/-- A comment ends a line; what stands before it is kept as it is. -/
theorem stripComment_prefix_self (b : Bool) (s : Text) : stripComment b s <+: s := by
  induction s generalizing b with
  | nil => exact List.prefix_refl []
  | cons c s ih =>
    rw [stripComment]
    split
    · exact List.nil_prefix
    · exact (List.prefix_cons_inj c).mpr (ih _)

theorem stripComment_snoc {c : Char} (hc : c ≠ '/') (b : Bool) (s : Text) :
    stripComment b (s ++ [c]) = stripComment b s ∨ stripComment b (s ++ [c]) = stripComment b s ++ [c] := by
  induction s generalizing b with
  | nil => exact Or.inr (by simp [stripComment])
  | cons x s ih =>
    have hhead : ((s ++ [c]).head? == some '/') = (s.head? == some '/') := by
      cases s with
      | nil => simp [hc]
      | cons y s => rfl
    rw [List.cons_append, stripComment, stripComment, hhead]
    split
    · exact Or.inl rfl
    · rcases ih (bracketsAfter b x) with h | h
      · exact Or.inl (by rw [h])
      · exact Or.inr (by rw [h, List.cons_append])

theorem stripComment_blank_cons {c : Char} (hc : isBlank c = true) (b : Bool) (s : Text) :
    stripComment b (c :: s) = c :: stripComment b s := by
  have hne : ∀ x, isBlank x = false → c ≠ x := fun x hx h => by
    rw [h, hx] at hc
    cases hc
  have hslash := hne '/' (by decide)
  have hopen := hne '[' (by decide)
  have hclose := hne ']' (by decide)
  simp [stripComment, bracketsAfter, hslash, hopen, hclose]

namespace Body
variable {table : Text}

theorem leftover_blank_append {g : Text} (hg : IsBlank g) (n : Nat) (t : Text) :
    leftover table n (g ++ t) = leftover table n t := by
  have hblank : Text.allBlank (g ++ t) = Text.allBlank t := by
    simp [Text.allBlank, List.all_append, List.all_eq_true.mpr hg]
  unfold leftover
  rw [hblank, Text.trim_blank_append hg]

theorem leftover_append_blank {g : Text} (hg : IsBlank g) (n : Nat) (t : Text) :
    leftover table n (t ++ g) = leftover table n t := by
  have hblank : Text.allBlank (t ++ g) = Text.allBlank t := by
    simp [Text.allBlank, List.all_append, List.all_eq_true.mpr hg]
  unfold leftover
  rw [hblank, Text.trim_append_blank hg]

theorem leftover_blank {g : Text} (hg : IsBlank g) (n : Nat) : leftover table n g = [] := by
  rw [leftover, if_pos (Text.allBlank_iff.mpr hg)]

/-- What a scan of a line gives. -/
def scanFindings (table : Text) (line : Nat) (found : Scan ColumnShape) : List Finding :=
  (found.hits.flatMap fun (gap, shape) => leftover table line gap ++ columnFindings table (column line shape)) ++
    leftover table line found.tail

theorem lineFindings_eq (n : Nat) (s : Text) :
    lineFindings table n s = scanFindings table n (ColumnShape.pattern.scan false s) := rfl

theorem lineFindings_eq_scanUpTo (n : Nat) (s : Text) :
    lineFindings table n s = scanFindings table n (ColumnShape.pattern.scanUpTo s.length false s) := by
  rw [lineFindings_eq, ColumnShape.pattern.scanUpTo_eq_scan (Nat.le_refl _)]

theorem lineFindings_blank_append {g : Text} (hg : IsBlank g) (n : Nat) (s : Text) :
    lineFindings table n (g ++ s) = lineFindings table n s := by
  rw [lineFindings_eq, lineFindings_eq, ColumnShape.pattern_skipsBlanks.scan_append hg, endsInWord_blank hg]
  rcases ColumnShape.pattern.scan false s with ⟨_ | ⟨⟨gap, c⟩, hits⟩, tail⟩
  · simp [Scan.behind, scanFindings, leftover_blank_append hg]
  · simp [Scan.behind, scanFindings, leftover_blank_append hg]

theorem lineFindings_snoc {c : Char} (hc : isBlank c = true) (n : Nat) (s : Text) :
    lineFindings table n (s ++ [c]) = lineFindings table n s := by
  rw [lineFindings_eq, lineFindings_eq, (ColumnShape.pattern_ignores hc).scan_snoc, scanFindings, scanFindings,
    leftover_append_blank (IsBlank.cons.mpr ⟨hc, IsBlank.nil⟩)]

theorem lineFindings_nil (n : Nat) : lineFindings table n [] = [] := by
  rw [lineFindings_eq, ColumnShape.pattern_skipsBlanks.scan_blank IsBlank.nil, scanFindings, List.flatMap_nil,
    List.nil_append, leftover_blank IsBlank.nil]

theorem lineFindings_dropReturn (n : Nat) (line : Text) :
    lineFindings table n (stripComment false (Text.dropReturn line)) =
      lineFindings table n (stripComment false line) := by
  unfold Text.dropReturn
  split
  · rename_i h
    obtain ⟨front, rfl⟩ := List.getLast?_eq_some_iff.mp (beq_iff_eq.mp h)
    have hslash : '\r' ≠ '/' := by decide
    rw [List.dropLast_concat]
    rcases stripComment_snoc hslash false front with h | h
    · rw [h]
    · rw [h, lineFindings_snoc (by decide)]
  · rfl

theorem linesFindings_endLines (n : Nat) (parts : List Text) :
    linesFindings table n (Text.endLines parts) = linesFindings table n parts := by
  induction parts generalizing n with
  | nil => rfl
  | cons line rest ih =>
    cases rest with
    | nil =>
      rw [Text.endLines]
      split
      · rename_i h
        rw [List.isEmpty_iff.mp h]
        simp [linesFindings, stripComment, lineFindings_nil]
      · rfl
    | cons line' rest =>
      rw [Text.endLines]
      · rw [linesFindings, linesFindings, ih, lineFindings_dropReturn]
      · simp

end Body

/-- The findings of a body are those of its text cut at line feeds. -/
theorem TableBlock.findings_eq (b : TableBlock) :
    b.findings = Body.linesFindings b.name b.bodyLine (b.body.splitOn '\n') :=
  Body.linesFindings_endLines _ _

end Schemata
