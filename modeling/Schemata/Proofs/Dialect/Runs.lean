import Schemata.Proofs.Dialect.Grammar
import Schemata.Proofs.Dialect.Groups

/-! The lines of a body by the grammar of columns. A line up to its comment is in one way a sequence of columns and
    leftovers in which no column begins. These columns are the ones that the body has on that line, and the leftovers
    that are not blank are what it skips of the line as malformed. -/

namespace Schemata

namespace Body

/-- The skip of a part of a body that is no column, unless it is blank. -/
def leftoverAt (table : Text) : Nat × Piece ColumnShape → Option Skip
  | (_, .found _) => none
  | (n, .passed text) => if Text.allBlank text then none else some ⟨.malformedColumn, n, Text.trim text, some table⟩

theorem malformed_pieceSkips (table : Text) (piece : Nat × Piece ColumnShape) :
    (pieceSkips table piece).filter (·.kind == .malformedColumn) = (leftoverAt table piece).toList := by
  rcases piece with ⟨n, text | shape⟩
  · rw [pieceSkips, leftoverAt]
    split <;> rfl
  · rw [pieceSkips, malformedReferences, List.filter_eq_nil_iff.mpr]
    · rfl
    · intro skip hskip
      obtain ⟨token, -, rfl⟩ := List.mem_map.mp hskip
      exact Bool.false_ne_true

theorem filterMap_leftoverAt_pieces (table : Text) (n : Nat) (found : Scan ColumnShape) :
    (found.pieces.map (n, ·)).filterMap (leftoverAt table) =
      ((found.hits.map Prod.fst ++ [found.tail]).filter fun text => !Text.allBlank text).map fun text =>
        ⟨.malformedColumn, n, Text.trim text, some table⟩ := by
  obtain ⟨hits, tail⟩ := found
  induction hits with
  | nil => cases h : Text.allBlank tail <;> simp [Scan.pieces, leftoverAt, h]
  | cons hit hits ih =>
    have hcolumn : leftoverAt table (n, .found hit.2) = none := rfl
    rw [Scan.pieces_cons, List.map_cons, List.map_cons, List.filterMap_cons, List.filterMap_cons_none hcolumn, ih]
    cases h : Text.allBlank hit.1 <;> simp [leftoverAt, h]

end Body

namespace TableBlock
variable {b : TableBlock}

theorem malformed_eq_pieces (b : TableBlock) :
    b.skipped.filter (·.kind == .malformedColumn) = b.pieces.filterMap (Body.leftoverAt b.name) := by
  rw [skipped_eq_pieces, List.filter_flatMap, filterMap_eq_flatMap]
  exact congrArg (b.pieces.flatMap ·) (funext fun piece => Body.malformed_pieceSkips b.name piece)

theorem filter_malformed (b : TableBlock) (m : Nat) :
    b.skipped.filter (fun skip => skip.kind == .malformedColumn && skip.line == m) =
      (b.pieces.filter fun piece => piece.1 == m).filterMap (Body.leftoverAt b.name) := by
  have hboth : b.skipped.filter (fun skip => skip.kind == .malformedColumn && skip.line == m) =
      (b.skipped.filter (·.kind == .malformedColumn)).filter (·.line == m) := by
    rw [List.filter_filter]
    exact congrArg (List.filter · _) (funext fun skip => Bool.and_comm _ _)
  rw [hboth, malformed_eq_pieces, List.filter_filterMap, List.filterMap_filter]
  refine congrArg (List.filterMap · _) (funext fun (n, piece) => ?_)
  cases piece with
  | passed text => cases h : Text.allBlank text <;> simp [Body.leftoverAt, h, Option.filter]
  | found shape => simp [Body.leftoverAt]

/-- A line up to its comment has exactly one factorisation into columns and leftovers in which no column begins. The
    body has these columns on the line, and as malformed it skips the leftovers that are not blank. -/
theorem line_factors {k : Nat} {line : Text} (h : (Text.lines b.body)[k]? = some line) :
    ∃ f : Scan ColumnShape, (∀ f', ColumnShape.grammar.Factors (stripComment false line) f' ↔ f' = f) ∧
      b.columns.filter (·.line == b.bodyLine + k) = f.hits.map (fun (_, c) =>
        ⟨c.name, c.declaredType, c.list.map fun (_, list) => Text.trim list, b.bodyLine + k⟩) ∧
      b.skipped.filter (fun skip => skip.kind == .malformedColumn && skip.line == b.bodyLine + k) =
        ((f.hits.map Prod.fst ++ [f.tail]).filter fun text => !Text.allBlank text).map fun text =>
          ⟨.malformedColumn, b.bodyLine + k, Text.trim text, some b.name⟩ := by
  have hpieces := Body.filter_numberedPieces (n := b.bodyLine) h
  refine ⟨ColumnShape.pattern.scan false (stripComment false line),
    fun f => ColumnShape.factors_iff.trans eq_comm, ?_, ?_⟩
  · rw [filter_columns, pieces, hpieces]
    exact Body.filterMap_columnAt_pieces _ _
  · rw [filter_malformed, pieces, hpieces]
    exact Body.filterMap_leftoverAt_pieces b.name _ _

theorem line_factors_unclosed :
    let b : TableBlock := ⟨['t'], "\n int(9 [a] k v(1)x y [ pk ] w( // r\n".toList, 1, 1⟩
    let line : Text := " int(9 [a] k v(1)x y [ pk ] w( // r".toList
    let f : Scan ColumnShape :=
      ⟨[(" int(9 [a] ".toList, ⟨['k'], [' '], ['v'], some ['1'], none⟩),
        ([], ⟨['x'], [' '], ['y'], none, some ([' '], " pk ".toList)⟩)], " w( ".toList⟩
    (∀ f', ColumnShape.grammar.Factors (stripComment false line) f' ↔ f' = f) ∧
      b.columns.filter (·.line == 2) =
        [⟨['k'], "v(1)".toList, none, 2⟩, ⟨['x'], ['y'], some "pk".toList, 2⟩] ∧
      b.skipped.filter (fun skip => skip.kind == .malformedColumn && skip.line == 2) =
        [⟨.malformedColumn, 2, "int(9 [a]".toList, some ['t']⟩, ⟨.malformedColumn, 2, "w(".toList, some ['t']⟩] := by
  intro b line f
  have hline : (Text.lines b.body)[1]? = some line := by decide
  have hscan : ColumnShape.pattern.scan false (stripComment false line) = f := by
    rw [← ColumnShape.pattern.scanUpTo_eq_scan (Nat.le_refl _)]
    exact Scan.mk.injEq _ _ _ _ ▸ ⟨by decide +kernel, by decide +kernel⟩
  obtain ⟨f', hfactors, hcolumns, hskipped⟩ := line_factors hline
  obtain rfl : f = f' := (hfactors f).mp (ColumnShape.factors_iff.mpr hscan)
  exact ⟨hfactors, hcolumns.trans (by decide +kernel), hskipped.trans (by decide +kernel)⟩

end TableBlock
end Schemata
