import Mathlib.Data.List.Basic
import Schemata.Proofs.Ddl.Clauses
import Schemata.Proofs.Ddl.Joined
import Schemata.Proofs.Ddl.Places
import Schemata.Proofs.Dialect.Entries

/-! Every foreign key hangs on a column of its own table. References come from the constraint lists of columns, so a
    block without columns has none and gives no statement; it is the one thing that is skipped as an empty table. -/

namespace Schemata

/-! ### Blocks without columns -/

namespace TableBlock
variable (b : TableBlock)

/-- Whether a column stands somewhere on the lines of the body, up to their comments. -/
def hasRun : Bool :=
  (Text.lines b.body).any fun line => (ColumnShape.pattern.find? false (stripComment false line)).isSome

/-- How a block is skipped as a whole. -/
def emptyRecord : Skip := ⟨.emptyTable, b.line, "Table " ++ b.name, some b.name⟩

theorem columns_eq_nil_iff : b.columns = [] ↔ b.hasRun = false := by
  rw [columns_eq_pieces, List.filterMap_eq_nil_iff, hasRun, List.any_eq_false]
  constructor
  · intro h line hline hfind
    obtain ⟨⟨gap, shape, rest⟩, hfind⟩ := Option.isSome_iff_exists.mp hfind
    obtain ⟨k, hk, hget⟩ := List.getElem_of_mem hline
    have hpiece : (b.bodyLine + k, Piece.found shape) ∈ b.pieces := by
      refine List.mem_flatMap.mpr ⟨(line, b.bodyLine + k), ?_, ?_⟩
      · rw [List.mk_add_mem_zipIdx_iff_getElem?, List.getElem?_eq_getElem hk, hget]
      · refine List.mem_map.mpr ⟨.found shape, Scan.mem_pieces_found.mpr ⟨gap, ?_⟩, rfl⟩
        rw [ColumnShape.pattern.scan_some hfind]
        exact List.mem_cons_self
    cases h _ hpiece
  · rintro h ⟨n, text | shape⟩ hpiece
    · rfl
    · obtain ⟨⟨line, k⟩, hline, hpiece⟩ := List.mem_flatMap.mp hpiece
      obtain ⟨piece, hpiece, heq⟩ := List.mem_map.mp hpiece
      cases heq
      obtain ⟨gap, hhit⟩ := Scan.mem_pieces_found.mp hpiece
      have hnone := h line (List.fst_mem_of_mem_zipIdx hline)
      rw [Bool.not_eq_true, Option.isSome_eq_false_iff, Option.isNone_iff_eq_none] at hnone
      rw [ColumnShape.pattern.scan_none hnone] at hhit
      cases hhit

theorem isEmpty_runs : b.runs.isEmpty = !b.hasRun := by
  have hruns : b.runs = b.columns := b.columns_eq_pieces.symm
  rw [hruns, Bool.eq_iff_iff, List.isEmpty_iff, columns_eq_nil_iff, Bool.not_eq_true']

/-- A block gives a statement exactly if it has a column. -/
theorem statement?_eq_none_iff : b.statement? = none ↔ b.columns = [] := by
  rw [statement?_eq, accountStatement?, isEmpty_runs, columns_eq_nil_iff]
  cases b.hasRun <;> simp

/-- Of all that a block leaves out, only the block itself is an empty table. -/
theorem filter_leftOut : b.leftOut.filter (·.kind = .emptyTable) = if b.hasRun then [] else [b.emptyRecord] := by
  have hentries : b.entrySkips.filter (·.kind = .emptyTable) = [] := by
    rw [List.filter_eq_nil_iff]
    intro skip hskip
    rcases b.kind_of_mem_entrySkips hskip with hkind | hkind <;> simp [hkind]
  have hunknown : (b.runs.flatMap (·.tokenSkips b.name .unknownConstraint .unknownConstraint)).filter
      (·.kind = .emptyTable) = [] := by
    rw [List.filter_eq_nil_iff]
    intro skip hskip
    obtain ⟨c, -, hc⟩ := List.mem_flatMap.mp hskip
    simp [kind_of_mem_tokenSkips hc]
  rw [leftOut_eq, accountSkips, List.filter_append, List.filter_append, hentries, hunknown, isEmpty_runs]
  cases b.hasRun <;> rfl

end TableBlock

/-! ### Blocks in their order -/

namespace Outline

theorem place_sorted (n : Nat) (hits : List (Text × BlockShape)) (tail : Text) :
    (place n hits tail).blocks.Pairwise fun a b => a.line ≤ b.line := by
  induction hits generalizing n with
  | nil => exact .nil
  | cons hit hits ih =>
    obtain ⟨gap, shape⟩ := hit
    refine .cons (fun b hb => ?_) (ih _)
    have hstart := ((place_within _ hits tail).blocks b hb).start
    dsimp only
    omega

theorem blocks_sorted (s : Text) : (read s).blocks.Pairwise fun a b => a.line ≤ b.line := place_sorted _ _ _

theorem filter_skipped (s : Text) : (read s).skipped.filter (·.kind = .emptyTable) = [] := by
  rw [List.filter_eq_nil_iff]
  intro skip hskip
  simp [(stands_of_mem_skipped hskip).1]

end Outline

/-- The empty tables among the skips of a text are its blocks without columns, in their order. -/
theorem compile_emptyTables (s : Text) :
    (compile s).skipped.filter (·.kind = .emptyTable) =
      ((Outline.read s).blocks.filter (!·.hasRun)).map TableBlock.emptyRecord := by
  have hall : ((Outline.read s).skipped ++ (Outline.read s).blocks.flatMap TableBlock.leftOut).filter
      (·.kind = .emptyTable) = ((Outline.read s).blocks.filter (!·.hasRun)).map TableBlock.emptyRecord := by
    rw [List.filter_append, Outline.filter_skipped, List.nil_append, List.filter_flatMap]
    induction (Outline.read s).blocks with
    | nil => rfl
    | cons b blocks ih =>
      rw [List.flatMap_cons, ih, TableBlock.filter_leftOut, List.filter_cons]
      cases b.hasRun <;> rfl
  refine eq_of_sorted ?_ ?_ fun n => ?_
  · exact (sortByLine_sorted _).sublist List.filter_sublist
  · exact List.pairwise_map.mpr ((Outline.blocks_sorted s).sublist List.filter_sublist)
  · rw [← hall, List.filter_comm, List.filter_comm (p := fun skip : Skip => decide (skip.line = n))]
    exact congrArg (List.filter _) (filter_sortByLine _ n)

/-! ### Foreign keys -/

/-- The clause of a column begins with the column's name. -/
theorem Column.name_prefix_clause (c : Column) : (c.name ++ " " : Text) <+: c.clause := by
  rw [clause_eq, Text.ofString_eq]
  exact ⟨sqlType c.declaredType c.constraintSet ++ (c.constraintSet.clauses (isTextType c.declaredType)).flatMap (' ' :: ·),
    List.append_assoc _ _ _⟩

/-- The clause of a reference begins with its local column. -/
theorem Reference.localColumn_prefix_clause (r : Reference) :
    ("FOREIGN KEY (" ++ r.localColumn ++ ") " : Text) <+: r.clause := by
  refine ⟨"REFERENCES ".toList ++ r.remoteTable ++ "(".toList ++ r.remoteColumn ++ ")".toList, ?_⟩
  simp only [clause, Text.ofString_eq, List.append_assoc]
  rfl

/-- In every body the references are anchored to their columns. So in every statement each foreign key names a column
    that has a clause there and there is such a column, and the blocks that are skipped as empty tables are those
    without a column. -/
theorem compile_localColumns :
    (∀ b : TableBlock, Anchored b.entries) ∧
      ∀ s : Text,
        (∀ st ∈ (compile s).statements, ∃ b ∈ (Outline.read s).blocks, b.statement? = some st ∧
          st = ⟨b.name,
            Statement.createTable b.name (b.columns.map Column.clause ++ b.references.map Reference.clause)⟩ ∧
          b.columns ≠ [] ∧ (∀ c ∈ b.columns, (c.name ++ " " : Text) <+: c.clause) ∧
          ∀ r ∈ b.references, ("FOREIGN KEY (" ++ r.localColumn ++ ") " : Text) <+: r.clause ∧
            ∃ c ∈ b.columns, r.localColumn = c.name) ∧
        (compile s).skipped.filter (·.kind = .emptyTable) =
          ((Outline.read s).blocks.filter (!·.hasRun)).map TableBlock.emptyRecord := by
  refine ⟨TableBlock.anchored, fun s => ⟨fun st hst => ?_, compile_emptyTables s⟩⟩
  obtain ⟨b, hb, hst⟩ := exists_block_of_mem hst
  refine ⟨b, hb, hst, TableBlock.statement_eq hst, fun hnil => ?_, fun c _ => c.name_prefix_clause, fun r hr =>
    ⟨r.localColumn_prefix_clause, ?_⟩⟩
  · rw [b.statement?_eq_none_iff.mpr hnil] at hst
    cases hst
  · obtain ⟨c, hc, hlocal, -⟩ := TableBlock.exists_column_of_mem hr
    exact ⟨c, hc, hlocal⟩

end Schemata
