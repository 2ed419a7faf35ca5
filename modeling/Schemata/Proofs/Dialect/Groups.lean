import Schemata.Proofs.Dialect.Comments

/-! Columns and bracketed groups. A scan that finds a column in a line goes on behind its constraint list; so what it
    passes or takes for names and types lies outside all groups, unless a bracket opens in what it passes, which is
    skipped and said so, or in the size of a type. -/

namespace Schemata

/-! ### Groups -/

/-- Between the two texts stands a place inside a bracketed group, which goes from an opening bracket to the next
    closing one. -/
structure InGroup (before behind : Text) : Prop where
  opened : ∃ outer inside, before = outer ++ '[' :: inside ∧ ']' ∉ inside
  closed : ']' ∈ behind

theorem foldl_bracketsAfter {s : Text} (h : '[' ∉ s) : s.foldl bracketsAfter false = false := by
  induction s with
  | nil => rfl
  | cons c s ih =>
    obtain ⟨hc, hs⟩ := List.ne_and_not_mem_of_not_mem_cons h
    have hstay : bracketsAfter false c = false := by simp [bracketsAfter, Ne.symm hc]
    rw [List.foldl_cons, hstay, ih hs]

theorem opensBracket_append {a b : Text} (ha : opensBracket a = false) (hb : '[' ∉ b) :
    opensBracket (a ++ b) = false := by
  rw [opensBracket, List.foldl_append, ← opensBracket, ha, foldl_bracketsAfter hb]

theorem opensBracket_close (a : Text) : opensBracket (a ++ [']']) = false := by
  rw [opensBracket, List.foldl_append]
  rfl

/-- A place in a group stands behind a bracket that opens. -/
theorem InGroup.opensBracket {before behind : Text} (h : InGroup before behind) : opensBracket before = true := by
  obtain ⟨outer, inside, rfl, hinside⟩ := h.opened
  have hopen : ∀ {s : Text}, ']' ∉ s → s.foldl bracketsAfter true = true := fun {s} hs => by
    induction s with
    | nil => rfl
    | cons c s ih =>
      obtain ⟨hc, hs⟩ := List.ne_and_not_mem_of_not_mem_cons hs
      have hstay : bracketsAfter true c = true := by simp [bracketsAfter, Ne.symm hc]
      rw [List.foldl_cons, hstay, ih hs]
  rw [Schemata.opensBracket, List.foldl_append, List.foldl_cons]
  exact hopen hinside

/-! ### Where columns stand in a line -/

/-- A column with what stands before and behind it in its line. -/
structure ColumnPlace where
  before : Text
  shape : ColumnShape
  behind : Text
  deriving DecidableEq, Repr

namespace ColumnPlace

/-- The line around a column. -/
def line (p : ColumnPlace) : Text := p.before ++ (p.shape.render ++ p.behind)

/-- Part of the name or the type, with the blanks between them, stands inside a group of the line. -/
def TakesFromGroup (p : ColumnPlace) : Prop :=
  ∃ u v, v ≠ [] ∧ p.shape.name ++ p.shape.gap ++ p.shape.declaredType = u ++ v ∧
    InGroup (p.before ++ u) (v ++ (p.shape.list.elim [] ColumnShape.renderList ++ p.behind))

/-- The columns of a scan behind the given text, each at its place. -/
def ofHits (before : Text) (tail : Text) : List (Text × ColumnShape) → List ColumnPlace
  | [] => []
  | (gap, shape) :: hits =>
    ⟨before ++ gap, shape, hits.flatMap (fun (gap, shape) => gap ++ shape.render) ++ tail⟩ ::
      ofHits (before ++ gap ++ shape.render) tail hits

/-- The columns of a line at their places. -/
def ofLine (line : Text) : List ColumnPlace :=
  let text := stripComment false line
  let found := ColumnShape.pattern.scan false text
  ofHits [] (found.tail ++ line.drop text.length) found.hits

theorem line_of_mem_ofHits {before tail : Text} {hits : List (Text × ColumnShape)} {p : ColumnPlace}
    (h : p ∈ ofHits before tail hits) :
    p.line = before ++ (hits.flatMap (fun (gap, shape) => gap ++ shape.render) ++ tail) := by
  induction hits generalizing before with
  | nil => cases h
  | cons hit hits ih =>
    obtain ⟨gap, shape⟩ := hit
    rcases List.mem_cons.mp h with rfl | h
    · simp [line]
    · rw [ih h]
      simp

theorem line_of_mem {line : Text} {p : ColumnPlace} (h : p ∈ ofLine line) : p.line = line := by
  have htext : stripComment false line ++ line.drop (stripComment false line).length = line :=
    List.prefix_iff_eq_append.mp (stripComment_prefix_self false line)
  have hscan := ColumnShape.pattern.hits_append_tail false (stripComment false line)
  rw [line_of_mem_ofHits h, List.nil_append, ← List.append_assoc]
  exact (congrArg (· ++ line.drop (stripComment false line).length) hscan).trans htext

theorem map_shape_ofHits (before tail : Text) (hits : List (Text × ColumnShape)) :
    (ofHits before tail hits).map shape = hits.map Prod.snd := by
  induction hits generalizing before with
  | nil => rfl
  | cons hit hits ih =>
    rw [ofHits, List.map_cons, ih]
    rfl

/-! ### Columns outside all groups -/

/-- A column whose type holds no opening bracket leaves the scan outside all groups. -/
theorem opensBracket_render {before : Text} {shape : ColumnShape} (hbefore : opensBracket before = false)
    (hfront : '[' ∉ shape.name ++ shape.gap ++ shape.declaredType) : opensBracket (before ++ shape.render) = false := by
  unfold ColumnShape.render
  cases shape.list with
  | none =>
    rw [Option.elim_none, List.append_nil]
    exact opensBracket_append hbefore hfront
  | some list =>
    have hclose : ("]" : Text) = [']'] := Text.ofString_eq _
    rw [Option.elim_some, ColumnShape.renderList, hclose, ← List.append_assoc, ← List.append_assoc]
    exact opensBracket_close _

/-- What is asked of a gap and the column behind it, so that the next gap is outside all groups as well. -/
structure Outside (hit : Text × ColumnShape) : Prop where
  gap : '[' ∉ hit.1
  front : '[' ∉ hit.2.name ++ hit.2.gap ++ hit.2.declaredType

theorem not_takesFromGroup_of_mem_ofHits {before tail : Text} {hits : List (Text × ColumnShape)}
    (hbefore : opensBracket before = false) (hhits : ∀ hit ∈ hits, Outside hit) {p : ColumnPlace}
    (h : p ∈ ofHits before tail hits) : ¬p.TakesFromGroup := by
  induction hits generalizing before with
  | nil => cases h
  | cons hit hits ih =>
    obtain ⟨gap, shape⟩ := hit
    obtain ⟨hhit, hhits⟩ := List.forall_mem_cons.mp hhits
    have hgap : opensBracket (before ++ gap) = false := opensBracket_append hbefore hhit.gap
    rcases List.mem_cons.mp h with rfl | h
    · rintro ⟨u, v, -, hfront, hgroup⟩
      have hu : '[' ∉ u := fun hm => hhit.front (hfront ▸ List.mem_append_left v hm)
      have hopen := hgroup.opensBracket
      rw [opensBracket_append hgap hu] at hopen
      cases hopen
    · exact ih (opensBracket_render hgap hhit.front) hhits h

end ColumnPlace

/-! ### The pieces of one line -/

namespace Body

theorem le_of_mem_numberedPieces {n m : Nat} {lines : List Text} {piece : Piece ColumnShape}
    (h : (m, piece) ∈ numberedPieces n lines) : n ≤ m := by
  obtain ⟨⟨line, k⟩, hline, hpiece⟩ := List.mem_flatMap.mp h
  obtain ⟨piece', -, heq⟩ := List.mem_map.mp hpiece
  cases heq
  exact (List.mem_zipIdx hline).1

theorem filter_numberedPieces {n k : Nat} {lines : List Text} {line : Text} (h : lines[k]? = some line) :
    (numberedPieces n lines).filter (fun piece => piece.1 == n + k) = (linePieces line).map (n + k, ·) := by
  induction lines generalizing n k with
  | nil => cases h
  | cons first lines ih =>
    have hcons : numberedPieces n (first :: lines) = (linePieces first).map (n, ·) ++ numberedPieces (n + 1) lines := by
      rw [numberedPieces, List.zipIdx_cons, List.flatMap_cons]
      rfl
    rw [hcons, List.filter_append]
    cases k with
    | zero =>
      obtain rfl := Option.some.inj h
      have hbehind : (numberedPieces (n + 1) lines).filter (fun piece => piece.1 == n + 0) = [] := by
        rw [List.filter_eq_nil_iff]
        rintro ⟨m, piece⟩ hpiece
        have := le_of_mem_numberedPieces hpiece
        simp
        omega
      rw [hbehind, List.append_nil, List.filter_eq_self.mpr (by simp)]
      rfl
    | succ k =>
      have hbefore : ((linePieces first).map (n, ·)).filter (fun piece => piece.1 == n + (k + 1)) = [] := by
        simp
      rw [hbefore, List.nil_append, ← Nat.add_assoc, Nat.add_right_comm]
      exact ih h

theorem filterMap_columnAt_pieces (m : Nat) (found : Scan ColumnShape) :
    (found.pieces.map (m, ·)).filterMap columnAt = found.hits.map fun (_, shape) => column m shape := by
  obtain ⟨hits, tail⟩ := found
  induction hits with
  | nil => rfl
  | cons hit hits ih =>
    have hgap : columnAt (m, .passed hit.1) = none := rfl
    have hcolumn : columnAt (m, .found hit.2) = some (column m hit.2) := rfl
    rw [Scan.pieces_cons, List.map_cons, List.map_cons, List.filterMap_cons_none hgap,
      List.filterMap_cons_some hcolumn, ih]
    rfl

theorem columnAt_linePieces (m : Nat) (line : Text) :
    ((linePieces line).map (m, ·)).filterMap columnAt =
      (ColumnPlace.ofLine line).map fun p => column m p.shape := by
  have hshapes : (ColumnPlace.ofLine line).map (fun p => column m p.shape) =
      ((ColumnPlace.ofLine line).map ColumnPlace.shape).map (column m) := by simp
  rw [hshapes, ColumnPlace.ofLine, ColumnPlace.map_shape_ofHits, linePieces, filterMap_columnAt_pieces, List.map_map]
  rfl

end Body

namespace TableBlock
variable {b : TableBlock}

theorem filter_columns (b : TableBlock) (m : Nat) :
    b.columns.filter (·.line == m) = (b.pieces.filter fun piece => piece.1 == m).filterMap Body.columnAt := by
  rw [columns_eq_pieces, List.filter_filterMap, List.filterMap_filter]
  congr 1
  funext ⟨n, piece⟩
  cases piece with
  | passed text => simp [Body.columnAt]
  | found shape => rfl

/-- On a line without a skip that shows an opening bracket, and without one in a type, no column takes its name or its
    type from inside a group: constraint words become columns only behind a bracket that is reported. -/
theorem columns_outside_groups {k : Nat} {line : Text} (h : (Text.lines b.body)[k]? = some line)
    (hskips : ∀ skip ∈ b.skipped, skip.line = b.bodyLine + k → skip.kind = .malformedColumn → '[' ∉ skip.text)
    (htypes : ∀ c ∈ b.columns, c.line = b.bodyLine + k → '[' ∉ c.declaredType) :
    b.columns.filter (·.line == b.bodyLine + k) =
        (ColumnPlace.ofLine line).map (fun p => Body.column (b.bodyLine + k) p.shape) ∧
      ∀ p ∈ ColumnPlace.ofLine line, p.line = line ∧ ¬p.TakesFromGroup := by
  have hpieces := Body.filter_numberedPieces (n := b.bodyLine) h
  have hmem : ∀ piece ∈ Body.linePieces line, (b.bodyLine + k, piece) ∈ b.pieces := fun piece hpiece =>
    (List.mem_filter.mp (hpieces ▸ List.mem_map_of_mem hpiece)).1
  refine ⟨?_, fun p hp => ⟨ColumnPlace.line_of_mem hp, ?_⟩⟩
  · rw [filter_columns, pieces, hpieces, Body.columnAt_linePieces]
  · refine ColumnPlace.not_takesFromGroup_of_mem_ofHits rfl (fun hit hhit => ?_) hp
    obtain ⟨gap, shape⟩ := hit
    have hgap : Piece.passed gap ∈ Body.linePieces line :=
      List.mem_append_left _ (List.mem_flatMap.mpr ⟨_, hhit, List.mem_cons_self⟩)
    have hshape : (b.bodyLine + k, Piece.found shape) ∈ b.pieces := hmem _ (Scan.mem_pieces_found.mpr ⟨gap, hhit⟩)
    have hproper := proper_of_mem_pieces hshape
    constructor
    · intro hopen
      -- The gap is not blank, so it is skipped, and its bracket stands in the skip.
      have hblank : Text.allBlank gap = false := by
        rw [Bool.eq_false_iff, Ne, Text.allBlank_iff]
        exact fun hblank => absurd (hblank _ hopen) (by decide)
      have htrim : '[' ∈ Text.trim gap := by
        rw [← List.count_pos_iff, Text.count_trim gap (by decide), List.count_pos_iff]
        exact hopen
      have hskip : (⟨.malformedColumn, b.bodyLine + k, Text.trim gap, some b.name⟩ : Skip) ∈ b.skipped := by
        rw [skipped_eq_pieces]
        refine List.mem_flatMap.mpr ⟨_, hmem _ hgap, ?_⟩
        rw [Body.pieceSkips, if_neg (by simp [hblank])]
        exact List.mem_singleton_self _
      exact hskips _ hskip rfl rfl htrim
    · have hcolumn : Body.column (b.bodyLine + k) shape ∈ b.columns := by
        rw [columns_eq_pieces]
        exact List.mem_filterMap.mpr ⟨_, hshape, rfl⟩
      rw [List.mem_append, List.mem_append, not_or, not_or]
      refine ⟨⟨fun hm => ?_, fun hm => ?_⟩, htypes _ hcolumn rfl⟩
      · exact absurd (hproper.name.word _ hm) (by decide)
      · exact absurd (hproper.gap _ hm) (by decide)

theorem columns_outside_groups_strayBracket :
    let b : TableBlock := ⟨['t'], "\nid int [pk, note: 'a b'] ] name text // [not null]\n".toList, 1, 1⟩
    let line : Text := "id int [pk, note: 'a b'] ] name text // [not null]".toList
    b.columns.filter (·.line == 2) = (ColumnPlace.ofLine line).map (fun p => Body.column 2 p.shape) ∧
      ∀ p ∈ ColumnPlace.ofLine line, p.line = line ∧ ¬p.TakesFromGroup := by
  intro b line
  have hline : (Text.lines b.body)[1]? = some line := by decide
  exact columns_outside_groups hline (by decide +kernel) (by decide +kernel)

/-- The list behind a name without a type is read as a column. -/
theorem columns_outside_groups_missingType :
    let b : TableBlock := ⟨['t'], "id [not null]".toList, 1, 1⟩
    b.columns = [⟨"not".toList, "null".toList, none, 1⟩] ∧
      ∃ p ∈ ColumnPlace.ofLine b.body, Body.column 1 p.shape ∈ b.columns ∧ p.TakesFromGroup := by
  refine ⟨by decide +kernel, ⟨"id [".toList, ⟨"not".toList, [' '], "null".toList, none, none⟩, [']']⟩,
    by decide +kernel, by decide +kernel, [], "not null".toList, by decide, by decide, ?_⟩
  exact ⟨⟨"id ".toList, [], rfl, by decide⟩, by decide⟩

end TableBlock
end Schemata
