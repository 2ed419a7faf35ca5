import Schemata.Dialect.Body
import Schemata.Ddl.Statement
import Schemata.Log

/-! Compiling a schema text: one statement for each block that has columns, and everything left out, by line.
    Compiling never fails. -/

namespace Schemata

namespace TableBlock

def statement? (b : TableBlock) : Option Statement :=
  Statement.emit? b.name (b.columns.map Column.clause) b.references

/-- The constraint tokens of the block that say nothing known. -/
def unknownConstraints (b : TableBlock) : List Skip :=
  b.columns.flatMap fun c => c.unknown.map fun token => ⟨.unknownConstraint, c.line, token, some b.name⟩

/-- A block without a statement is left out as a whole. -/
def emptySkip (b : TableBlock) : List Skip :=
  match b.statement? with
  | some _ => []
  | none => [⟨.emptyTable, b.line, "Table " ++ b.name, some b.name⟩]

/-- All that is left out of the block. -/
def leftOut (b : TableBlock) : List Skip := b.skipped ++ b.unknownConstraints ++ b.emptySkip

end TableBlock

/-- The statements of a schema text in its order, and what was left out, by line. -/
structure Compilation where
  statements : List Statement
  skipped : List Skip
  deriving DecidableEq, Repr

/-- Sorts by line; skips of one line keep their order. -/
def sortByLine (skips : List Skip) : List Skip := skips.mergeSort fun a b => a.line ≤ b.line

namespace Outline

def statements (o : Outline) : List Statement := o.blocks.filterMap TableBlock.statement?

def allSkipped (o : Outline) : List Skip := sortByLine (o.skipped ++ o.blocks.flatMap TableBlock.leftOut)

end Outline

def compile (s : Text) : Compilation :=
  let outline := Outline.read s
  ⟨outline.statements, outline.allSkipped⟩

/-! ### What compiling logs -/

/-- A warning about a block whose table name, written exactly so, was seen above. -/
def duplicateWarning (seen : List Text) (b : TableBlock) : List LogRecord :=
  if seen.contains b.name then
    [⟨.warn, "duplicate table block; only the first definition takes effect",
      [("table", b.name), ("line", decimal b.line)]⟩]
  else []

def compiledRecord (s : Statement) : LogRecord := ⟨.debug, "compiled table", [("table", s.table), ("sql", s.sql)]⟩

/-- The records for the blocks, given the names seen above them. -/
def blockRecords (seen : List Text) : List TableBlock → List LogRecord
  | [] => []
  | b :: rest =>
    duplicateWarning seen b ++ (b.statement?.map compiledRecord).toList ++ blockRecords (b.name :: seen) rest

def skipRecord (s : Skip) : LogRecord := ⟨.warn, "skipped " ++ s.display, []⟩

/-- The records that compiling a text emits, in order. -/
def compileLog (s : Text) : List LogRecord :=
  blockRecords [] (Outline.read s).blocks ++ (compile s).skipped.map skipRecord

end Schemata
