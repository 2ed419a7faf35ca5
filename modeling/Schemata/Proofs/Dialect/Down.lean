import Schemata.Proofs.Dialect.Findings
import Schemata.Ddl.Compilation

/-! Texts further down. What a text holds does not depend on the line it starts on: blocks, columns, references and
    skips are the same, with their lines moved by as much as the start. So a block gives the same statement wherever it
    stands. -/

namespace Schemata

/-! ### Moved by some lines -/

def Skip.down (k : Nat) (s : Skip) : Skip := { s with line := s.line + k }

def Column.down (k : Nat) (c : Column) : Column := { c with line := c.line + k }

def TableBlock.down (k : Nat) (b : TableBlock) : TableBlock :=
  { b with line := b.line + k, bodyLine := b.bodyLine + k }

def Outline.down (k : Nat) (o : Outline) : Outline := ⟨o.blocks.map (·.down k), o.skipped.map (·.down k)⟩

namespace Finding

/-- References have no line. -/
def down (k : Nat) : Finding → Finding
  | column c => column (c.down k)
  | reference r => reference r
  | skip s => skip (s.down k)

variable (k : Nat) (f : Finding)

theorem column?_down : (f.down k).column? = f.column?.map (·.down k) := by
  cases f <;> rfl

theorem reference?_down : (f.down k).reference? = f.reference? := by
  cases f <;> rfl

theorem skip?_down : (f.down k).skip? = f.skip?.map (·.down k) := by
  cases f <;> rfl

end Finding

/-! ### Bodies -/

namespace Body
variable (table : Text) (k n : Nat)

theorem leftover_down (text : Text) : leftover table (n + k) text = (leftover table n text).map (·.down k) := by
  unfold leftover
  split <;> rfl

theorem referenceFinding_down (c : Column) (token : Text) :
    referenceFinding table (c.down k) token = (referenceFinding table c token).down k := by
  have hname : (c.down k).name = c.name := rfl
  unfold referenceFinding
  rw [hname]
  cases Reference.resolve? c.name token <;> rfl

theorem columnFindings_down (c : Column) :
    columnFindings table (c.down k) = (columnFindings table c).map (·.down k) := by
  rw [columnFindings, columnFindings, List.map_cons, List.map_map]
  refine congrArg _ (List.map_congr_left ?_)
  intro token _
  exact referenceFinding_down table k c token

theorem lineFindings_down (text : Text) :
    lineFindings table (n + k) text = (lineFindings table n text).map (·.down k) := by
  unfold lineFindings
  dsimp only
  rw [List.map_append, List.map_flatMap, leftover_down]
  congr 2
  funext ⟨gap, shape⟩
  rw [List.map_append, leftover_down, ← columnFindings_down]
  rfl

theorem linesFindings_down (lines : List Text) :
    linesFindings table (n + k) lines = (linesFindings table n lines).map (·.down k) := by
  induction lines generalizing n with
  | nil => rfl
  | cons line rest ih =>
    rw [linesFindings, linesFindings, List.map_append, lineFindings_down, ← ih, Nat.add_right_comm]

end Body

/-! ### Blocks -/

namespace TableBlock
variable (k : Nat) (b : TableBlock)

theorem findings_down : (b.down k).findings = b.findings.map (·.down k) := Body.linesFindings_down _ _ _ _

theorem columns_down : (b.down k).columns = b.columns.map (·.down k) := by
  rw [columns_eq, columns_eq, findings_down, List.filterMap_map, List.map_filterMap]
  exact congrArg (List.filterMap · _) (funext (Finding.column?_down k))

theorem references_down : (b.down k).references = b.references := by
  rw [references_eq, references_eq, findings_down, List.filterMap_map]
  exact congrArg (List.filterMap · _) (funext (Finding.reference?_down k))

theorem skipped_down : (b.down k).skipped = b.skipped.map (·.down k) := by
  rw [skipped_eq, skipped_eq, findings_down, List.filterMap_map, List.map_filterMap]
  exact congrArg (List.filterMap · _) (funext (Finding.skip?_down k))

theorem statement?_down : (b.down k).statement? = b.statement? := by
  rw [statement?, statement?, columns_down, references_down, List.map_map]
  rfl

theorem unknownConstraints_down : (b.down k).unknownConstraints = b.unknownConstraints.map (·.down k) := by
  rw [unknownConstraints, unknownConstraints, columns_down, List.map_flatMap, List.flatMap_map]
  congr 1
  funext c
  rw [List.map_map]
  rfl

theorem emptySkip_down : (b.down k).emptySkip = b.emptySkip.map (·.down k) := by
  rw [emptySkip, emptySkip, statement?_down]
  cases b.statement? <;> rfl

theorem leftOut_down : (b.down k).leftOut = b.leftOut.map (·.down k) := by
  rw [leftOut, leftOut, List.map_append, List.map_append, skipped_down, unknownConstraints_down, emptySkip_down]

end TableBlock

/-! ### Outlines -/

theorem gapSkip?_down (k n : Nat) (gap : Text) : gapSkip? (n + k) gap = (gapSkip? n gap).map (·.down k) := by
  unfold gapSkip?
  dsimp only
  split
  · rfl
  · rw [Option.map_some, Nat.add_right_comm]
    rfl

namespace Outline
variable (k : Nat)

theorem place_down (n : Nat) (hits : List (Text × BlockShape)) (tail : Text) :
    place (n + k) hits tail = (place n hits tail).down k := by
  induction hits generalizing n with
  | nil =>
    rw [place, place, gapSkip?_down]
    cases gapSkip? n tail <;> rfl
  | cons hit hits ih =>
    obtain ⟨gap, shape⟩ := hit
    have hstart : n + k + Text.newlines gap = n + Text.newlines gap + k := Nat.add_right_comm ..
    have hgap : (gapSkip? (n + k) gap).toList = (gapSkip? n gap).toList.map (·.down k) := by
      rw [gapSkip?_down]
      cases gapSkip? n gap <;> rfl
    simp only [place, down, List.map_cons, List.map_append, hgap, hstart]
    rw [Nat.add_right_comm _ k (Text.newlines shape.render), Nat.add_right_comm _ k (Text.newlines shape.header), ih]
    rfl

variable (o : Outline)

theorem statements_down : (o.down k).statements = o.statements := by
  rw [statements, statements, down, List.filterMap_map]
  exact congrArg (List.filterMap · _) (funext (TableBlock.statement?_down k))

theorem leftOut_down :
    (o.down k).blocks.flatMap TableBlock.leftOut = (o.blocks.flatMap TableBlock.leftOut).map (·.down k) := by
  rw [down, List.flatMap_map, List.map_flatMap]
  exact congrArg (List.flatMap · _) (funext (TableBlock.leftOut_down k))

end Outline
end Schemata
