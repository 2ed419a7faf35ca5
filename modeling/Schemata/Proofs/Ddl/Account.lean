import Schemata.Proofs.Dialect.Fate
import Schemata.Ddl.Compilation

/-! Compiling loses nothing silently. A schema text is made of blocks and stretches outside them, a line of a body of
    columns and the text around them, and a constraint list of tokens. The account of a text says what each of these
    parts gives: a statement, a clause of one, or a skip of its own. Compiling gives the statements of the account,
    and its skips sorted by line. -/

namespace Schemata

/-! ### Sorting by line -/

theorem sortByLine_perm (skips : List Skip) : (sortByLine skips).Perm skips := List.mergeSort_perm _ _

theorem line_le_trans (a b c : Skip) (hab : decide (a.line ≤ b.line) = true) (hbc : decide (b.line ≤ c.line) = true) :
    decide (a.line ≤ c.line) = true :=
  decide_eq_true (Nat.le_trans (of_decide_eq_true hab) (of_decide_eq_true hbc))

theorem line_le_total (a b : Skip) : (decide (a.line ≤ b.line) || decide (b.line ≤ a.line)) = true := by
  rw [Bool.or_eq_true, decide_eq_true_eq, decide_eq_true_eq]
  exact Nat.le_total _ _

theorem sortByLine_sorted (skips : List Skip) : (sortByLine skips).Pairwise fun a b => a.line ≤ b.line :=
  (List.pairwise_mergeSort line_le_trans line_le_total skips).imp of_decide_eq_true

/-- The skips of one line are sorted already, so a stable sort keeps their order. -/
theorem filter_sortByLine (skips : List Skip) (n : Nat) :
    (sortByLine skips).filter (·.line = n) = skips.filter (·.line = n) := by
  have hline : ∀ skip ∈ skips.filter (·.line = n), skip.line = n := fun skip h =>
    of_decide_eq_true (List.mem_filter.mp h).2
  have hsorted : (skips.filter (·.line = n)).Pairwise fun a b => decide (a.line ≤ b.line) = true := by
    rw [List.pairwise_iff_forall_sublist]
    intro a b hab
    have ha := hline a (hab.subset List.mem_cons_self)
    have hb := hline b (hab.subset (List.mem_cons_of_mem a List.mem_cons_self))
    exact decide_eq_true (Nat.le_of_eq (ha.trans hb.symm))
  have hsub := (List.sublist_mergeSort line_le_trans line_le_total hsorted List.filter_sublist).filter (·.line = n)
  rw [List.filter_filter] at hsub
  simp only [Bool.and_self] at hsub
  exact (hsub.eq_of_length ((sortByLine_perm skips).filter _).length_eq.symm).symm

/-! ### The parts of a schema text -/

namespace Outline

/-- The parts of a text with the lines they start on, the first on the given one. -/
def numberFrom : Nat → List (Piece BlockShape) → List (Nat × Piece BlockShape)
  | _, [] => []
  | n, piece :: pieces => (n, piece) :: numberFrom (n + Text.newlines (BlockShape.pattern.pieceText piece)) pieces

/-- The blocks of a text and the stretches outside them, each with its line. -/
def pieces (s : Text) : List (Nat × Piece BlockShape) := numberFrom 1 (BlockShape.pattern.scan false s).pieces

def blockAt : Nat × Piece BlockShape → Option TableBlock
  | (n, .found shape) => some ⟨shape.name, shape.body, n, n + Text.newlines shape.header⟩
  | (_, .passed _) => none

/-- A stretch is skipped from its first line on that is neither blank nor a comment. -/
def stretchSkips : Nat × Piece BlockShape → List Skip
  | (n, .passed text) =>
    let lines := text.splitOn '\n'
    if lines.all passesOutside then []
    else [⟨.unrecognizedBlock, n + (lines.takeWhile passesOutside).length,
      Text.trim (Text.join "\n" (lines.dropWhile passesOutside)), none⟩]
  | (_, .found _) => []

theorem stretchSkips_passed (n : Nat) (text : Text) : stretchSkips (n, .passed text) = (gapSkip? n text).toList := by
  have hempty : (text.splitOn '\n').all passesOutside = ((text.splitOn '\n').dropWhile passesOutside).isEmpty := by
    rw [Bool.eq_iff_iff, List.all_eq_true, List.isEmpty_iff, List.dropWhile_eq_nil_iff]
  unfold stretchSkips gapSkip?
  dsimp only
  rw [hempty]
  split <;> rfl

theorem place_eq (n : Nat) (hits : List (Text × BlockShape)) (tail : Text) :
    place n hits tail =
      ⟨(numberFrom n (Scan.mk hits tail).pieces).filterMap blockAt,
        (numberFrom n (Scan.mk hits tail).pieces).flatMap stretchSkips⟩ := by
  induction hits generalizing n with
  | nil => simp [place, Scan.pieces, numberFrom, blockAt, stretchSkips_passed]
  | cons hit hits ih =>
    obtain ⟨gap, shape⟩ := hit
    have hpieces : (Scan.mk ((gap, shape) :: hits) tail).pieces =
        .passed gap :: .found shape :: (Scan.mk hits tail).pieces := rfl
    have hblock : ∀ m, blockAt (m, .found shape) =
        some ⟨shape.name, shape.body, m, m + Text.newlines shape.header⟩ := fun _ => rfl
    rw [place, ih, hpieces, numberFrom, numberFrom, List.filterMap_cons_none rfl, List.filterMap_cons_some (hblock _),
      List.flatMap_cons, List.flatMap_cons, stretchSkips_passed]
    rfl

theorem blocks_eq (s : Text) : (read s).blocks = (pieces s).filterMap blockAt := by
  rw [read, place_eq]
  rfl

theorem skipped_eq (s : Text) : (read s).skipped = (pieces s).flatMap stretchSkips := by
  rw [read, place_eq]
  rfl

theorem text_numberFrom (n : Nat) (pieces : List (Piece BlockShape)) :
    ((numberFrom n pieces).flatMap fun piece => BlockShape.pattern.pieceText piece.2) =
      pieces.flatMap BlockShape.pattern.pieceText := by
  induction pieces generalizing n with
  | nil => rfl
  | cons piece pieces ih => rw [numberFrom, List.flatMap_cons, List.flatMap_cons, ih]

end Outline

/-! ### What the parts give -/

namespace Column
variable (c : Column)

/-- The tokens of a column with a given fate, each as a skip. -/
def tokenSkips (table : Text) (kind : SkipKind) (f : TokenFate) : List Skip :=
  (c.listTokens.filter fun token => c.fate token = f).map fun token => ⟨kind, c.line, token, some table⟩

/-- The foreign keys among the tokens of a column. -/
def foreignKeys : List Reference := c.listTokens.filterMap fun token => (c.fate token).foreignKey?

end Column

namespace TableBlock
variable (b : TableBlock)

/-- The columns of the block as they stand in its lines. -/
def runs : List Column := b.pieces.filterMap Body.columnAt

/-- The skips inside the lines, in their order: text around columns, and the `ref:` tokens that name no column. -/
def entrySkips : List Skip :=
  b.pieces.flatMap fun
    | (n, .passed text) => if Text.allBlank text then [] else [⟨.malformedColumn, n, Text.trim text, some b.name⟩]
    | (n, .found shape) => (Body.column n shape).tokenSkips b.name .malformedReference .malformedReference

/-- A block gives its statement, or one skip if it has no column. -/
def accountStatement? : Option Statement :=
  if b.runs.isEmpty then none
  else some ⟨b.name, Statement.createTable b.name
    (b.runs.map Column.clause ++ (b.runs.flatMap Column.foreignKeys).map Reference.clause)⟩

def accountSkips : List Skip :=
  b.entrySkips ++ b.runs.flatMap (·.tokenSkips b.name .unknownConstraint .unknownConstraint) ++
    if b.runs.isEmpty then [⟨.emptyTable, b.line, "Table " ++ b.name, some b.name⟩] else []

end TableBlock

/-- All skips of a text: those outside the blocks, then those of each block. -/
def accountSkips (s : Text) : List Skip :=
  (Outline.pieces s).flatMap Outline.stretchSkips ++
    ((Outline.pieces s).filterMap Outline.blockAt).flatMap TableBlock.accountSkips

namespace TableBlock
variable (b : TableBlock)

theorem skipped_eq_entrySkips : b.skipped = b.entrySkips := by
  rw [skipped_eq_pieces, entrySkips]
  congr 1
  funext piece
  rcases piece with ⟨n, text | shape⟩
  · rfl
  · exact Column.malformedReferences_eq _ _

theorem references_eq_foreignKeys : b.references = b.runs.flatMap Column.foreignKeys := by
  rw [references_eq_flatMap, columns_eq_pieces]
  exact congrArg (List.flatMap · _) (funext Column.resolved_eq)

theorem statement?_eq : b.statement? = b.accountStatement? := by
  have hempty : (b.columns.isEmpty && b.references.isEmpty) = b.runs.isEmpty := by
    rw [columns_eq_pieces, references_eq_foreignKeys]
    show (b.runs.isEmpty && _) = _
    cases b.runs <;> rfl
  rw [statement?, Statement.emit?, List.isEmpty_map, hempty, references_eq_foreignKeys, columns_eq_pieces]
  rfl

theorem unknownConstraints_eq :
    b.unknownConstraints = b.runs.flatMap (·.tokenSkips b.name .unknownConstraint .unknownConstraint) := by
  rw [unknownConstraints, columns_eq_pieces]
  congr 1
  funext c
  rw [Column.unknown_eq]
  rfl

theorem leftOut_eq : b.leftOut = b.accountSkips := by
  have hempty : b.emptySkip =
      if b.runs.isEmpty then [⟨.emptyTable, b.line, "Table " ++ b.name, some b.name⟩] else [] := by
    rw [emptySkip, statement?_eq, accountStatement?]
    cases b.runs.isEmpty <;> rfl
  rw [leftOut, accountSkips, skipped_eq_entrySkips, unknownConstraints_eq, hempty]

theorem table_of_accountStatement? {st : Statement} (h : b.accountStatement? = some st) : st.table = b.name := by
  unfold accountStatement? at h
  split at h
  · cases h
  · cases h
    rfl

theorem kind_of_mem_tokenSkips {c : Column} {table : Text} {kind : SkipKind} {f : TokenFate} {skip : Skip}
    (h : skip ∈ c.tokenSkips table kind f) : skip.kind = kind := by
  obtain ⟨token, -, rfl⟩ := List.mem_map.mp h
  rfl

theorem kind_of_mem_entrySkips {skip : Skip} (h : skip ∈ b.entrySkips) :
    skip.kind = .malformedColumn ∨ skip.kind = .malformedReference := by
  obtain ⟨⟨n, piece⟩, -, hskip⟩ := List.mem_flatMap.mp h
  cases piece with
  | passed text =>
    dsimp only at hskip
    split at hskip
    · cases hskip
    · rw [List.mem_singleton.mp hskip]
      exact Or.inl rfl
  | found shape => exact Or.inr (kind_of_mem_tokenSkips hskip)

/-- A block gives a statement or an `emptyTable` skip, and not both. -/
theorem one_of_statement_empty :
    b.accountStatement?.toList.length + b.accountSkips.countP (·.kind = .emptyTable) = 1 := by
  have hentries : b.entrySkips.countP (·.kind = .emptyTable) = 0 := by
    rw [List.countP_eq_zero]
    intro skip hskip
    rcases b.kind_of_mem_entrySkips hskip with hkind | hkind <;> simp [hkind]
  have hunknown : (b.runs.flatMap (·.tokenSkips b.name .unknownConstraint .unknownConstraint)).countP
      (·.kind = .emptyTable) = 0 := by
    rw [List.countP_eq_zero]
    intro skip hskip
    obtain ⟨c, -, hc⟩ := List.mem_flatMap.mp hskip
    simp [kind_of_mem_tokenSkips hc]
  rw [accountStatement?, accountSkips, List.countP_append, List.countP_append, hentries, hunknown]
  cases b.runs.isEmpty <;> rfl

end TableBlock

/-- That compiling a text leaves nothing out of its account. -/
structure Accounted (s : Text) : Prop where
  /-- The parts are the whole text, one after the other. -/
  text : ((Outline.pieces s).flatMap fun piece => BlockShape.pattern.pieceText piece.2) = s
  /-- The parts of a line are the whole line up to its comment. -/
  line : ∀ line, (Body.linePieces line).flatMap ColumnShape.pattern.pieceText = stripComment false line
  blocks : (Outline.read s).blocks = (Outline.pieces s).filterMap Outline.blockAt
  columns : ∀ b ∈ (Outline.read s).blocks, b.columns = b.runs
  /-- The two readers of a constraint list do exactly one thing with each of its tokens. -/
  fate : ∀ b ∈ (Outline.read s).blocks, ∀ c ∈ b.columns, ∀ token ∈ c.listTokens, ∀ f, c.Takes token f ↔ f = c.fate token
  /-- The constraints of a column are those of its tokens that have a meaning. -/
  constraints : ∀ b ∈ (Outline.read s).blocks, ∀ c ∈ b.columns,
    c.constraintSet = .ofTokens (c.listTokens.filterMap fun token => (c.fate token).constraint?)
  statements : (compile s).statements = (Outline.read s).blocks.filterMap TableBlock.accountStatement?
  tables : ∀ b ∈ (Outline.read s).blocks,
    b.accountStatement?.toList.length + b.accountSkips.countP (·.kind = .emptyTable) = 1 ∧
      ∀ st ∈ b.accountStatement?, st.table = b.name
  skipped : (compile s).skipped.Perm (accountSkips s)
  sorted : (compile s).skipped.Pairwise fun a b => a.line ≤ b.line
  /-- The skips of one line stand in the order of the account. -/
  stable : ∀ n, (compile s).skipped.filter (·.line = n) = (accountSkips s).filter (·.line = n)

end Schemata
