import Schemata.Proofs.Text.Scan
import Schemata.Dialect.Body

/-! The findings of a body sorted by what they are. A body consists of columns and the text between and around them,
    and each of these parts has its findings: a column itself and one for each of its `ref:` tokens, other text a skip
    unless it is blank. The names in columns and references are words. -/

namespace Schemata

namespace Finding

def column? : Finding → Option Column
  | column c => some c
  | _ => none

def reference? : Finding → Option Reference
  | reference r => some r
  | _ => none

def skip? : Finding → Option Skip
  | skip s => some s
  | _ => none

end Finding

namespace TableBlock

theorem columns_eq (b : TableBlock) : b.columns = b.findings.filterMap Finding.column? := rfl

theorem references_eq (b : TableBlock) : b.references = b.findings.filterMap Finding.reference? := rfl

theorem skipped_eq (b : TableBlock) : b.skipped = b.findings.filterMap Finding.skip? := rfl

end TableBlock

namespace Body
variable (table : Text) (c : Column)

/-- What is left out of a column's references: the tokens that name no remote column. -/
def malformedReferences : List Skip :=
  (c.referenceTokens.filter fun token => (Reference.resolve? c.name token).isNone).map fun token =>
    ⟨.malformedReference, c.line, token, some table⟩

theorem columns_columnFindings : (columnFindings table c).filterMap Finding.column? = [c] := by
  have htokens : (c.referenceTokens.map (referenceFinding table c)).filterMap Finding.column? = [] := by
    rw [List.filterMap_map, List.filterMap_eq_nil_iff]
    intro token _
    rw [Function.comp_apply, referenceFinding]
    split <;> rfl
  rw [columnFindings, List.filterMap_cons_some (f := Finding.column?) (b := c) rfl, htokens]

theorem references_columnFindings :
    (columnFindings table c).filterMap Finding.reference? =
      c.referenceTokens.filterMap (Reference.resolve? c.name) := by
  rw [columnFindings, List.filterMap_cons_none rfl, List.filterMap_map]
  congr 1
  funext token
  rw [Function.comp_apply, referenceFinding]
  split
  · rename_i h
    exact h.symm
  · rename_i h
    exact h.symm

theorem skipped_columnFindings : (columnFindings table c).filterMap Finding.skip? = malformedReferences table c := by
  rw [columnFindings, List.filterMap_cons_none rfl, malformedReferences]
  induction c.referenceTokens with
  | nil => rfl
  | cons token tokens ih =>
    rw [List.map_cons, List.filterMap_cons, ih, List.filter_cons, referenceFinding]
    cases Reference.resolve? c.name token <;> rfl

end Body

/-! ### The parts of a body -/

theorem filterMap_eq_flatMap {α β : Type} (f : α → Option β) (l : List α) :
    l.filterMap f = l.flatMap fun a => (f a).toList := by
  induction l with
  | nil => rfl
  | cons a l ih =>
    rw [List.flatMap_cons, ← ih]
    cases h : f a <;> simp [h]

namespace Body

/-- The parts of a line up to its comment: columns, and what stands between and around them. -/
def linePieces (line : Text) : List (Piece ColumnShape) :=
  (ColumnShape.pattern.scan false (stripComment false line)).pieces

/-- The parts of the lines from the given number on, each with its line. -/
def numberedPieces (n : Nat) (lines : List Text) : List (Nat × Piece ColumnShape) :=
  (lines.zipIdx n).flatMap fun (line, k) => (linePieces line).map (k, ·)

def columnAt : Nat × Piece ColumnShape → Option Column
  | (n, .found shape) => some (column n shape)
  | (_, .passed _) => none

/-- What a part of a body leaves out: passed text that is not blank, or the tokens of a column that should be
    references and name no remote column. -/
def pieceSkips (table : Text) : Nat × Piece ColumnShape → List Skip
  | (n, .found shape) => malformedReferences table (column n shape)
  | (n, .passed text) => if Text.allBlank text then [] else [⟨.malformedColumn, n, Text.trim text, some table⟩]

def pieceFindings (table : Text) : Nat × Piece ColumnShape → List Finding
  | (n, .found shape) => columnFindings table (column n shape)
  | (n, .passed text) => leftover table n text

theorem lineFindings_eq_pieces (table : Text) (n : Nat) (line : Text) :
    lineFindings table n (stripComment false line) =
      ((linePieces line).map (n, ·)).flatMap (pieceFindings table) := by
  simp only [lineFindings, linePieces, Scan.pieces, List.map_append, List.map_flatMap, List.flatMap_append,
    List.flatMap_assoc]
  simp [pieceFindings]

theorem linesFindings_eq_pieces (table : Text) (n : Nat) (lines : List Text) :
    linesFindings table n lines = (numberedPieces n lines).flatMap (pieceFindings table) := by
  induction lines generalizing n with
  | nil => rfl
  | cons line lines ih =>
    rw [linesFindings, ih, lineFindings_eq_pieces, numberedPieces, numberedPieces, List.zipIdx_cons, List.flatMap_cons,
      List.flatMap_append]

variable (table : Text) (piece : Nat × Piece ColumnShape)

theorem columns_pieceFindings : (pieceFindings table piece).filterMap Finding.column? = (columnAt piece).toList := by
  rcases piece with ⟨n, text | shape⟩
  · rw [pieceFindings, leftover]
    split <;> rfl
  · exact columns_columnFindings table _

theorem references_pieceFindings :
    (pieceFindings table piece).filterMap Finding.reference? =
      (columnAt piece).toList.flatMap fun c => c.referenceTokens.filterMap (Reference.resolve? c.name) := by
  rcases piece with ⟨n, text | shape⟩
  · rw [pieceFindings, leftover]
    split <;> rfl
  · rw [columnAt, Option.toList_some, List.flatMap_singleton]
    exact references_columnFindings table _

theorem skipped_pieceFindings : (pieceFindings table piece).filterMap Finding.skip? = pieceSkips table piece := by
  rcases piece with ⟨n, text | shape⟩
  · rw [pieceFindings, pieceSkips, leftover]
    split <;> rfl
  · exact skipped_columnFindings table _

end Body

namespace TableBlock
variable (b : TableBlock)

/-- The parts of the body, each with its line. -/
def pieces : List (Nat × Piece ColumnShape) := Body.numberedPieces b.bodyLine (Text.lines b.body)

theorem findings_eq_pieces : b.findings = b.pieces.flatMap (Body.pieceFindings b.name) :=
  Body.linesFindings_eq_pieces _ _ _

theorem columns_eq_pieces : b.columns = b.pieces.filterMap Body.columnAt := by
  rw [columns_eq, findings_eq_pieces, List.filterMap_flatMap, filterMap_eq_flatMap]
  congr 1
  funext piece
  exact Body.columns_pieceFindings _ _

theorem skipped_eq_pieces : b.skipped = b.pieces.flatMap (Body.pieceSkips b.name) := by
  rw [skipped_eq, findings_eq_pieces, List.filterMap_flatMap]
  congr 1
  funext piece
  exact Body.skipped_pieceFindings _ _

/-- The references of a block are those of its columns, in order. -/
theorem references_eq_flatMap :
    b.references = b.columns.flatMap fun c => c.referenceTokens.filterMap (Reference.resolve? c.name) := by
  rw [references_eq, findings_eq_pieces, columns_eq_pieces, List.filterMap_flatMap, filterMap_eq_flatMap,
    List.flatMap_assoc]
  congr 1
  funext piece
  exact Body.references_pieceFindings _ _

end TableBlock

/-! ### What columns and references are made of -/

/-- What holds of every column that is read. -/
structure ColumnShape.Proper (c : ColumnShape) : Prop where
  name : IsName c.name
  gap_ne_nil : c.gap ≠ []
  gap : IsBlank c.gap
  typeWord : IsName c.typeWord
  size : ∀ text ∈ c.size, ')' ∉ text
  list_gap : ∀ l ∈ c.list, IsBlank l.1
  list : ∀ l ∈ c.list, ']' ∉ l.2

theorem ColumnShape.proper_of_read? {s r : Text} {c : ColumnShape} (h : read? s = some (c, r)) : c.Proper := by
  simp only [read?, Option.ite_none_left_eq_some, Bool.or_eq_true, not_or, List.isEmpty_iff] at h
  obtain ⟨⟨⟨hname, hgap⟩, htype⟩, h⟩ := h
  obtain ⟨rfl, rfl⟩ := Prod.mk.inj (Option.some.inj h)
  refine ⟨⟨hname, fun _ => List.mem_takeWhile_imp⟩, hgap, fun _ => List.mem_takeWhile_imp,
    ⟨htype, fun _ => List.mem_takeWhile_imp⟩, ?_, ?_, ?_⟩
  · intro text ht
    unfold readSize at ht
    split at ht
    · rename_i hcut
      cases ht
      obtain ⟨_, -, hcut⟩ := Option.bind_eq_some_iff.mp hcut
      exact Text.not_mem_of_cut? hcut
    · cases ht
  · intro l hl
    unfold readList at hl
    split at hl
    · cases hl
      exact fun _ => List.mem_takeWhile_imp
    · cases hl
  · intro l hl
    unfold readList at hl
    split at hl
    · rename_i hcut
      cases hl
      obtain ⟨_, -, hcut⟩ := Option.bind_eq_some_iff.mp hcut
      exact Text.not_mem_of_cut? hcut
    · cases hl

theorem TableBlock.proper_of_mem_pieces {b : TableBlock} {n : Nat} {shape : ColumnShape}
    (h : (n, .found shape) ∈ b.pieces) : shape.Proper := by
  obtain ⟨⟨line, k⟩, -, hline⟩ := List.mem_flatMap.mp h
  obtain ⟨piece, hpiece, heq⟩ := List.mem_map.mp hline
  cases heq
  obtain ⟨g, hhit⟩ := Scan.mem_pieces_found.mp hpiece
  obtain ⟨_, _, hread⟩ := ColumnShape.pattern.read?_of_mem_hits hhit
  exact ColumnShape.proper_of_read? hread

theorem TableBlock.column_of_mem {b : TableBlock} {c : Column} (h : c ∈ b.columns) :
    ∃ shape : ColumnShape, ∃ line, shape.Proper ∧ c = Body.column line shape := by
  rw [columns_eq_pieces] at h
  obtain ⟨⟨n, piece⟩, hpiece, hc⟩ := List.mem_filterMap.mp h
  cases piece with
  | passed text => cases hc
  | found shape => exact ⟨shape, n, proper_of_mem_pieces hpiece, (Option.some.inj hc).symm⟩

theorem Reference.readTarget?_isName {s table column : Text} (h : readTarget? s = some (table, column)) :
    IsName table ∧ IsName column := by
  unfold readTarget? at h
  split at h
  · rename_i hd
    split at h
    · cases h
    · rename_i hne
      obtain ⟨rfl, rfl⟩ := Prod.mk.inj (Option.some.inj h)
      simp only [Bool.or_eq_true, not_or, List.isEmpty_iff, Bool.not_eq_true', Bool.not_eq_false,
        List.all_eq_true] at hne
      exact ⟨⟨hne.1.1, fun _ => List.mem_takeWhile_imp⟩, ⟨hne.1.2, hne.2⟩⟩
  · cases h

/-- A resolved reference stands on its column and names its target in words. -/
theorem Reference.resolve?_isName {column token : Text} {r : Reference} (h : resolve? column token = some r) :
    r.localColumn = column ∧ IsName r.remoteTable ∧ IsName r.remoteColumn := by
  unfold resolve? at h
  split at h
  · split at h
    · split at h
      · simp only [Option.bind_eq_bind, Option.bind_eq_some_iff] at h
        obtain ⟨⟨direction, s⟩, -, ⟨table, target⟩, htarget, h⟩ := h
        cases h
        exact ⟨rfl, readTarget?_isName htarget⟩
      · cases h
    · cases h
  · cases h

namespace TableBlock
variable {b : TableBlock} {r : Reference}

/-- A reference stands on a column of its block. -/
theorem exists_column_of_mem (h : r ∈ b.references) :
    ∃ c ∈ b.columns, r.localColumn = c.name ∧ IsName r.remoteTable ∧ IsName r.remoteColumn := by
  rw [references_eq_flatMap] at h
  obtain ⟨c, hc, h⟩ := List.mem_flatMap.mp h
  obtain ⟨token, -, hresolve⟩ := List.mem_filterMap.mp h
  exact ⟨c, hc, Reference.resolve?_isName hresolve⟩

theorem reference_of_mem (h : r ∈ b.references) :
    IsName r.localColumn ∧ IsName r.remoteTable ∧ IsName r.remoteColumn := by
  obtain ⟨c, hc, hlocal, hremote⟩ := exists_column_of_mem h
  obtain ⟨shape, line, hproper, rfl⟩ := column_of_mem hc
  exact ⟨hlocal ▸ hproper.name, hremote⟩

end TableBlock
end Schemata
