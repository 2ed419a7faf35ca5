import Schemata.Proofs.Dialect.Fate
import Schemata.Proofs.Dialect.Lines
import Schemata.Proofs.Dialect.Tokens

/-! Findings stand where they are said to stand. A block is held by its text from the line of its keyword on, the body
    by the block from its own line on, and each line of the body by the body; columns, tokens and leftovers are parts of
    these lines. What a stretch outside the blocks leaves unread is held by it from its first line on that does not
    pass. -/

namespace Schemata

/-! ### Parts of what is scanned -/

theorem Pattern.pieceText_isInfix {α : Type} {p : Pattern α} {b : Bool} {s : Text} {piece : Piece α}
    (h : piece ∈ (p.scan b s).pieces) : p.pieceText piece <:+: s := by
  have hinside := List.infix_of_mem_flatten (List.mem_map_of_mem (f := p.pieceText) h)
  rwa [← List.flatMap_def, p.text_pieces] at hinside

/-- What is given for a line, cut at line feeds, is a beginning of it. -/
theorem Text.exists_part_of_endLines {parts : List Text} {k : Nat} {line : Text}
    (h : (endLines parts)[k]? = some line) : ∃ part, parts[k]? = some part ∧ line <+: part := by
  induction parts generalizing k with
  | nil => cases h
  | cons first rest ih =>
    cases rest with
    | nil =>
      rw [endLines] at h
      split at h
      · cases h
      · exact ⟨line, h, List.prefix_refl line⟩
    | cons second rest =>
      rw [endLines] at h
      · cases k with
        | zero =>
          cases h
          refine ⟨first, rfl, ?_⟩
          unfold dropReturn
          split
          · exact List.dropLast_prefix first
          · exact List.prefix_refl first
        | succ k => exact ih h
      · simp

/-- A skip whose text stands in a text that begins on line `n`, from the skip's line on. -/
structure Skip.Stands (n : Nat) (s : Text) (skip : Skip) : Prop where
  ne_nil : skip.text ≠ []
  trim : Text.trim skip.text = skip.text
  holds : Text.Holds n s skip.line skip.text

/-! ### In a body -/

namespace TableBlock
variable {b : TableBlock}

/-- A line of the body with the given number, none of whose parts goes on behind it. -/
structure HoldsLine (b : TableBlock) (n : Nat) (line : Text) : Prop where
  holds : Text.Holds b.bodyLine b.body n line
  single : '\n' ∉ line

theorem HoldsLine.part {n : Nat} {line part : Text} (h : b.HoldsLine n line) (hpart : part <:+: line) :
    Text.Holds b.bodyLine b.body n part :=
  h.holds.trans (Text.Holds.of_isInfix hpart h.single n)

theorem holdsLine_of_mem_pieces {n : Nat} {piece : Piece ColumnShape} (h : (n, piece) ∈ b.pieces) :
    ∃ line, b.HoldsLine n line ∧ ColumnShape.pattern.pieceText piece <:+: line := by
  obtain ⟨⟨line, k⟩, hline, hpiece⟩ := List.mem_flatMap.mp h
  obtain ⟨piece', hpiece, heq⟩ := List.mem_map.mp hpiece
  cases heq
  obtain ⟨hstart, hstop, hget⟩ := List.mem_zipIdx hline
  have hlines : (Text.lines b.body)[n - b.bodyLine]? = some line := by
    rw [List.getElem?_eq_some_iff]
    exact ⟨by omega, hget.symm⟩
  obtain ⟨part, hpart, hprefix⟩ := Text.exists_part_of_endLines hlines
  have hholds := Text.holds_of_splitOn hpart b.bodyLine
  rw [Nat.add_sub_cancel' hstart] at hholds
  refine ⟨part, ⟨hholds, Text.not_mem_of_mem_splitOn (List.mem_of_getElem? hpart)⟩, ?_⟩
  have hinside := Pattern.pieceText_isInfix hpiece
  exact hinside.trans ((stripComment_prefix_self false line).trans hprefix).isInfix

/-- A column stands on its line: its name, blanks and its type one after the other, and its constraint list. -/
theorem holdsLine_of_mem_columns {c : Column} (h : c ∈ b.columns) :
    ∃ line gap, b.HoldsLine c.line line ∧ IsBlank gap ∧ c.name ++ gap ++ c.declaredType <:+: line ∧
      ∀ list ∈ c.constraints, list <:+: line := by
  rw [columns_eq_pieces] at h
  obtain ⟨⟨n, piece⟩, hpiece, hc⟩ := List.mem_filterMap.mp h
  cases piece with
  | passed text => cases hc
  | found shape =>
    cases hc
    obtain ⟨line, hline, hrender⟩ := holdsLine_of_mem_pieces hpiece
    have hproper := proper_of_mem_pieces hpiece
    have hshape : shape.render <:+: line := hrender
    refine ⟨line, shape.gap, hline, hproper.gap, ?_, ?_⟩
    · exact (List.prefix_append _ _).isInfix.trans hshape
    · intro list hlist
      obtain ⟨⟨blanks, text⟩, htext, rfl⟩ := Option.map_eq_some_iff.mp hlist
      have hrest : ColumnShape.renderList (blanks, text) <:+: shape.render := by
        rw [ColumnShape.render, htext]
        exact (List.suffix_append _ _).isInfix
      have hpart : text <:+: ColumnShape.renderList (blanks, text) := ⟨_, _, rfl⟩
      exact (Text.trim_isInfix text).trans (hpart.trans (hrest.trans hshape))

/-- A skip whose text is part of the line of the body with the skip's number. -/
structure HoldsSkip (b : TableBlock) (skip : Skip) : Prop where
  ne_nil : skip.text ≠ []
  trim : Text.trim skip.text = skip.text
  line : ∃ line, b.HoldsLine skip.line line ∧ skip.text <:+: line

theorem HoldsSkip.stands {skip : Skip} (h : b.HoldsSkip skip) : skip.Stands b.bodyLine b.body := by
  obtain ⟨line, hline, hinside⟩ := h.line
  exact ⟨h.ne_nil, h.trim, hline.part hinside⟩

/-- A token of a column stands on the column's line. -/
theorem holdsSkip_of_mem_listTokens {c : Column} {token : Text} (hc : c ∈ b.columns) (h : token ∈ c.listTokens)
    (kind : SkipKind) (table : Option Text) : b.HoldsSkip ⟨kind, c.line, token, table⟩ := by
  obtain ⟨line, -, hline, -, -, hlist⟩ := holdsLine_of_mem_columns hc
  cases hconstraints : c.constraints with
  | none =>
    rw [Column.listTokens, hconstraints] at h
    cases h
  | some list =>
    rw [Column.listTokens, hconstraints] at h
    obtain ⟨hne, htrim, hinside⟩ := token_of_mem_splitTokens h
    exact ⟨hne, htrim, line, hline, hinside.trans (hlist list hconstraints)⟩

theorem holdsSkip_of_mem_skipped {skip : Skip} (h : skip ∈ b.skipped) :
    skip.kind ≠ .emptyTable ∧ b.HoldsSkip skip := by
  rw [skipped_eq_pieces] at h
  obtain ⟨⟨n, piece⟩, hpiece, hskip⟩ := List.mem_flatMap.mp h
  cases piece with
  | passed text =>
    rw [Body.pieceSkips] at hskip
    split at hskip
    · cases hskip
    · rename_i hblank
      obtain rfl := List.mem_singleton.mp hskip
      obtain ⟨line, hline, hinside⟩ := holdsLine_of_mem_pieces hpiece
      refine ⟨by simp, ?_, Text.trim_trim text, line, hline, (Text.trim_isInfix text).trans hinside⟩
      intro hnil
      exact hblank (Text.allBlank_iff.mpr (Text.trim_eq_nil_iff.mp hnil))
  | found shape =>
    have hcolumn : Body.column n shape ∈ b.columns := by
      rw [columns_eq_pieces]
      exact List.mem_filterMap.mpr ⟨_, hpiece, rfl⟩
    obtain ⟨token, htoken, rfl⟩ := List.mem_map.mp hskip
    refine ⟨by simp, holdsSkip_of_mem_listTokens hcolumn ?_ _ _⟩
    have htoken := (List.mem_filter.mp htoken).1
    rw [Column.referenceTokens_eq] at htoken
    exact (List.mem_filter.mp htoken).1

end TableBlock

/-! ### Outside the blocks -/

/-- Trimming does not leave the first line of a text if that is not blank. -/
theorem Text.holds_trim {s : Text} (h : ¬IsBlank (firstLine s)) (n : Nat) : Holds n s n (trim s) := by
  obtain ⟨behind, -, hs⟩ := exists_append_trim s
  refine ⟨s.takeWhile isBlank, behind, hs, ?_⟩
  rw [newlines_eq_zero, Nat.add_zero]
  intro hm
  obtain ⟨a, t, hat, hfree⟩ := List.eq_append_cons_of_mem hm
  have hblank : IsBlank a := by
    have hall := isBlank_takeWhile s
    rw [hat] at hall
    exact (IsBlank.append.mp hall).1
  have hfirst : firstLine s = a := by
    rw [← hs, hat, List.append_assoc, firstLine_append hfree]
    exact List.append_nil a
  exact h (hfirst ▸ hblank)

theorem not_isBlank_of_not_passes {line : Text} (h : passesOutside line = false) : ¬IsBlank line := by
  intro hblank
  rw [passesOutside, Text.trim_eq_nil_iff.mpr hblank] at h
  cases h

/-- What a gap leaves unread stands in it from its first line on that does not pass. -/
theorem gapSkip?_stands {n : Nat} {gap : Text} {skip : Skip} (h : gapSkip? n gap = some skip) :
    skip.kind ≠ .emptyTable ∧ skip.Stands n gap := by
  unfold gapSkip? at h
  dsimp only at h
  rw [Option.ite_none_left_eq_some] at h
  obtain ⟨hrest, heq⟩ := h
  cases heq
  have hjoin : ∀ parts, Text.join "\n" parts = ['\n'].intercalate parts := fun parts => by
    rw [Text.join, Text.ofString_eq]
    rfl
  have hlines : ∀ line ∈ gap.splitOn '\n', '\n' ∉ line := fun line hline => Text.not_mem_of_mem_splitOn hline
  rcases hcons : (gap.splitOn '\n').dropWhile passesOutside with _ | ⟨first, others⟩
  · rw [hcons] at hrest
    exact absurd rfl hrest
  have hfirst : '\n' ∉ first := hlines first ((List.dropWhile_sublist _).mem (hcons ▸ List.mem_cons_self))
  have hblank : ¬IsBlank (Text.firstLine (['\n'].intercalate (first :: others))) := by
    have hstop := List.head_dropWhile_not (p := passesOutside) (l := gap.splitOn '\n') (by simp [hcons])
    simp only [hcons, List.head_cons] at hstop
    rw [Text.firstLine_intercalate hfirst]
    exact not_isBlank_of_not_passes hstop
  have hpassed : ∀ line ∈ (gap.splitOn '\n').takeWhile passesOutside, '\n' ∉ line := fun line hline =>
    hlines line ((List.takeWhile_sublist _).mem hline)
  have hholds := Text.holds_intercalate hpassed (List.cons_ne_nil first others) n
  rw [← hcons, List.takeWhile_append_dropWhile, List.intercalate_splitOn, hcons] at hholds
  rw [hjoin]
  refine ⟨by simp, ?_, Text.trim_trim _, hholds.trans (Text.holds_trim hblank _)⟩
  intro hnil
  refine hblank ?_
  intro c hc
  exact Text.trim_eq_nil_iff.mp hnil c ((List.takeWhile_sublist _).mem hc)

end Schemata
