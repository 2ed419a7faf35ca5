import Schemata.Proofs.Ddl.Account
import Schemata.Proofs.Ddl.Statements
import Schemata.Proofs.Dialect.Places

/-! Line numbers are exact. Whatever compiling leaves out is given with a trimmed text that begins on the line it is
    given with, and a block without columns with the line of its keyword; a column stands with its name and its type on
    its line. The parts of a text are numbered by the line feeds before them, so each stands where its number says, and
    what is found in a part stands in the text. -/

namespace Schemata

/-! ### Parts of a schema text -/

namespace Outline

theorem holds_of_mem_numberFrom {n m : Nat} {pieces : List (Piece BlockShape)} {piece : Piece BlockShape}
    (h : (m, piece) ∈ numberFrom n pieces) :
    Text.Holds n (pieces.flatMap BlockShape.pattern.pieceText) m (BlockShape.pattern.pieceText piece) := by
  induction pieces generalizing n with
  | nil => cases h
  | cons first pieces ih =>
    rw [List.flatMap_cons]
    rcases List.mem_cons.mp h with h | h
    · cases h
      exact Text.Holds.of_isPrefix (List.prefix_append _ _) _
    · exact (Text.Holds.behind n _ _).trans (ih h)

theorem holds_of_mem_pieces {s : Text} {m : Nat} {piece : Piece BlockShape} (h : (m, piece) ∈ pieces s) :
    Text.Holds 1 s m (BlockShape.pattern.pieceText piece) := by
  have hholds := holds_of_mem_numberFrom h
  rwa [BlockShape.pattern.text_pieces] at hholds

end Outline

namespace BlockShape

/-- The body stands in its block behind the header. -/
theorem holds_body (shape : BlockShape) (n : Nat) :
    Text.Holds n shape.render (n + Text.newlines shape.header) shape.body :=
  ⟨shape.header, "\x7d", by rw [render, List.append_assoc], rfl⟩

end BlockShape

/-- The block that a shape gives on the given line. -/
def BlockShape.blockOn (shape : BlockShape) (n : Nat) : TableBlock :=
  ⟨shape.name, shape.body, n, n + Text.newlines shape.header⟩

/-- A block stands in its text from its line on. -/
theorem Outline.holds_of_mem_blocks {s : Text} {b : TableBlock} (h : b ∈ (read s).blocks) :
    ∃ shape : BlockShape, b = shape.blockOn b.line ∧ Text.Holds 1 s b.line shape.render := by
  rw [blocks_eq] at h
  obtain ⟨⟨n, piece⟩, hpiece, hblock⟩ := List.mem_filterMap.mp h
  cases piece with
  | passed text => cases hblock
  | found shape =>
    cases hblock
    exact ⟨shape, rfl, holds_of_mem_pieces hpiece⟩

theorem Outline.holds_body {s : Text} {b : TableBlock} (h : b ∈ (read s).blocks) :
    Text.Holds 1 s b.bodyLine b.body := by
  obtain ⟨shape, hb, hholds⟩ := holds_of_mem_blocks h
  rw [hb]
  exact hholds.trans (shape.holds_body _)

theorem Outline.stands_of_mem_skipped {s : Text} {skip : Skip} (h : skip ∈ (read s).skipped) :
    skip.kind ≠ .emptyTable ∧ skip.Stands 1 s := by
  rw [skipped_eq] at h
  obtain ⟨⟨n, piece⟩, hpiece, hskip⟩ := List.mem_flatMap.mp h
  cases piece with
  | found shape => cases hskip
  | passed text =>
    rw [stretchSkips_passed] at hskip
    obtain ⟨hkind, hstands⟩ := gapSkip?_stands (Option.mem_toList.mp hskip)
    exact ⟨hkind, hstands.ne_nil, hstands.trim, (holds_of_mem_pieces hpiece).trans hstands.holds⟩

/-! ### Skips of a block -/

theorem TableBlock.columns_of_statement?_eq_none {b : TableBlock} (h : b.statement? = none) : b.columns = [] := by
  unfold statement? Statement.emit? at h
  split at h
  · rename_i hempty
    rw [Bool.and_eq_true, List.isEmpty_map] at hempty
    exact List.isEmpty_iff.mp hempty.1
  · cases h

/-- A block leaves out parts of its lines, or itself if it has no column. -/
theorem TableBlock.holdsSkip_of_mem_leftOut {b : TableBlock} {skip : Skip} (h : skip ∈ b.leftOut) :
    (skip.kind ≠ .emptyTable ∧ b.HoldsSkip skip) ∨
      (b.columns = [] ∧ skip = ⟨.emptyTable, b.line, "Table " ++ b.name, some b.name⟩) := by
  rw [leftOut, List.mem_append, List.mem_append] at h
  rcases h with (h | h) | h
  · exact Or.inl (holdsSkip_of_mem_skipped h)
  · obtain ⟨c, hc, h⟩ := List.mem_flatMap.mp h
    obtain ⟨token, htoken, rfl⟩ := List.mem_map.mp h
    rw [Column.unknown_eq] at htoken
    exact Or.inl ⟨by simp, holdsSkip_of_mem_listTokens hc (List.mem_filter.mp htoken).1 _ _⟩
  · rw [emptySkip] at h
    split at h
    · cases h
    · rename_i hnone
      exact Or.inr ⟨columns_of_statement?_eq_none hnone, List.mem_singleton.mp h⟩

theorem TableBlock.stands_of_mem_leftOut {b : TableBlock} {skip : Skip} (h : skip ∈ b.leftOut) :
    (skip.kind ≠ .emptyTable ∧ skip.Stands b.bodyLine b.body) ∨
      (b.columns = [] ∧ skip = ⟨.emptyTable, b.line, "Table " ++ b.name, some b.name⟩) :=
  (holdsSkip_of_mem_leftOut h).imp_left fun ⟨hkind, hskip⟩ => ⟨hkind, hskip.stands⟩

/-! ### Compiling -/

/-- A skip with the line it stands on: its text is trimmed, and its first line is part of that line of the source. A
    skipped block has the line of its keyword. -/
structure Skip.Exact (s : Text) (skip : Skip) : Prop where
  ne_nil : skip.text ≠ []
  trim : Text.trim skip.text = skip.text
  one_le : 1 ≤ skip.line
  le_lines : skip.line ≤ (s.splitOn '\n').length
  text : skip.kind ≠ .emptyTable → ∃ line, Text.line? s skip.line = some line ∧ Text.firstLine skip.text <:+: line
  keyword : skip.kind = .emptyTable →
    ∃ before behind, ∃ shape : BlockShape, before ++ (shape.render ++ behind) = s ∧
      shape.blockOn skip.line ∈ (Outline.read s).blocks ∧ (shape.blockOn skip.line).columns = [] ∧
      skip.table = some shape.name ∧
      ∃ rest, Text.line? s skip.line = some (Text.lastLine before ++ ("Table" ++ rest))

/-- A column with the line on which its name and its type stand. -/
def Column.Exact (s : Text) (c : Column) : Prop :=
  ∃ line gap, Text.line? s c.line = some line ∧ IsBlank gap ∧ c.name ++ gap ++ c.declaredType <:+: line

theorem Skip.Stands.exact {s : Text} {skip : Skip} (h : skip.Stands 1 s) (hkind : skip.kind ≠ .emptyTable) :
    skip.Exact s := by
  obtain ⟨line, hline, hfirst⟩ := h.holds.exists_line
  obtain ⟨hone, hle⟩ := Text.line?_le hline
  exact ⟨h.ne_nil, h.trim, hone, hle, fun _ => ⟨line, hline, hfirst⟩, fun hempty => absurd hempty hkind⟩

/-- The text that a block without columns is skipped with. -/
theorem IsName.trim_table {name : Text} (h : IsName name) : Text.trim ("Table " ++ name) = "Table " ++ name := by
  have hreverse : IsName name.reverse :=
    ⟨fun hnil => h.ne_nil (List.reverse_eq_nil_iff.mp hnil), fun c hc => h.word c (List.mem_reverse.mp hc)⟩
  refine Text.trim_eq_self ?_ ?_
  · rw [Text.ofString_eq]
    exact Text.stops_cons.mpr (by decide)
  · rw [List.reverse_append]
    exact Text.stops_blank_name hreverse

theorem Skip.exact_of_empty {s : Text} {b : TableBlock} (hb : b ∈ (Outline.read s).blocks) (hcolumns : b.columns = []) :
    Skip.Exact s ⟨.emptyTable, b.line, "Table " ++ b.name, some b.name⟩ := by
  obtain ⟨shape, hshape, before, behind, hs, hline⟩ := Outline.holds_of_mem_blocks hb
  have hsource := Text.line?_append before (shape.render ++ behind)
  rw [hs, Nat.add_comm, hline] at hsource
  obtain ⟨hone, hle⟩ := Text.line?_le hsource
  have hkeyword : ∃ rest, Text.firstLine (shape.render ++ behind) = "Table" ++ rest := by
    have hfree : '\n' ∉ ("Table" : Text) := by
      rw [Text.ofString_eq]
      decide
    simp only [BlockShape.render, BlockShape.header, List.append_assoc]
    exact ⟨_, Text.firstLine_append hfree _⟩
  obtain ⟨rest, hrest⟩ := hkeyword
  rw [hrest] at hsource
  refine ⟨?_, (Outline.isName_of_mem_blocks hb).trim_table, hone, hle, fun hkind => absurd rfl hkind, fun _ => ?_⟩
  · exact List.append_ne_nil_of_right_ne_nil _ (Outline.isName_of_mem_blocks hb).ne_nil
  · refine ⟨before, behind, shape, hs, hshape ▸ hb, hshape ▸ hcolumns, ?_, rest, hsource⟩
    rw [hshape]
    rfl

/-- Compiling gives every skip and reading every column the line it stands on. -/
theorem compile_lines_exact (s : Text) :
    (∀ skip ∈ (compile s).skipped, skip.Exact s) ∧
      ∀ b ∈ (Outline.read s).blocks, ∀ c ∈ b.columns, c.Exact s := by
  refine ⟨fun skip hskip => ?_, fun b hb c hc => ?_⟩
  · have hskip := (sortByLine_perm _).mem_iff.mp hskip
    rcases List.mem_append.mp hskip with hskip | hskip
    · obtain ⟨hkind, hstands⟩ := Outline.stands_of_mem_skipped hskip
      exact hstands.exact hkind
    · obtain ⟨b, hb, hskip⟩ := List.mem_flatMap.mp hskip
      rcases TableBlock.stands_of_mem_leftOut hskip with ⟨hkind, hstands⟩ | ⟨hcolumns, rfl⟩
      · have hholds := (Outline.holds_body hb).trans hstands.holds
        exact Skip.Stands.exact ⟨hstands.ne_nil, hstands.trim, hholds⟩ hkind
      · exact Skip.exact_of_empty hb hcolumns
  · obtain ⟨part, gap, hpart, hgap, hinside, -⟩ := TableBlock.holdsLine_of_mem_columns hc
    obtain ⟨line, hline, hfirst⟩ := ((Outline.holds_body hb).trans hpart.holds).exists_line
    rw [Text.firstLine_eq_self hpart.single] at hfirst
    exact ⟨line, gap, hline, hgap, hinside.trans hfirst⟩

end Schemata
