import Schemata.Materialize
import Schemata.Output.Json
import Schemata.Output.Toon

/-! Reports of the commands, each as lines to read and as a value for structured output. -/

namespace Schemata

/-- How a report is written. -/
inductive OutputFormat
  | table
  | json
  | toon
  deriving DecidableEq, Repr

/-- Writes a report given as lines and as a value. -/
def OutputFormat.write (format : OutputFormat) (lines : List Text) (value : Value) : Text :=
  match format with
  | table => Text.join "\n" lines
  | json => value.pretty 0
  | toon => Toon.encode value

/-! ### Skips and events -/

/-- A heading with the number of skips, and a line for each. No skips, no lines. -/
def skippedLines (skips : List Skip) : List Text :=
  if skips.isEmpty then []
  else ("Skipped (" ++ decimal skips.length ++ "):") :: skips.map fun s => "  ! " ++ s.display

def Skip.members (s : Skip) : List (Text × Value) :=
  ("kind", .text s.kind.tag) :: ("line", .number s.line) :: ("text", .text s.text) ::
    (s.table.map fun table => (("table" : Text), Value.text table)).toList

namespace Event

def line : Event → Text
  | skipped s => "  ! skipped " ++ s.display
  | tableApplied table => "  ✓ " ++ table
  | tableFailed table error => "  ✗ " ++ table ++ " (" ++ error ++ ")"
  | scriptApplied statements => "  ✓ script applied (" ++ decimal statements ++ " statements)"
  | scriptFailed error => "  ✗ script rolled back (" ++ error ++ ")"

def value : Event → Value
  | skipped s => .object (("event", .text "skipped") :: s.members)
  | tableApplied table => .object [("event", .text "table_applied"), ("table", .text table)]
  | tableFailed table error =>
    .object [("event", .text "table_failed"), ("table", .text table), ("error", .text error)]
  | scriptApplied statements => .object [("event", .text "script_applied"), ("statements", .number statements)]
  | scriptFailed error => .object [("event", .text "script_failed"), ("error", .text error)]

end Event

/-! ### Applying -/

/-- What applying one source did. -/
structure ApplyReport where
  source : Text
  mode : Text
  backend : Text
  events : List Event
  deriving DecidableEq, Repr

namespace ApplyReport

/-- Applies a source and reports its events, unless a fatal error ends the run. -/
def collect {σ : Type} (store : Store σ) (content : σ) (name : Text) (source : Source) :
    Except StoreError ApplyReport × σ :=
  let run := store.materialize content source
  (match run.fatal with
    | some e => .error e
    | none => .ok ⟨name, source.mode, store.backend, run.events⟩, run.content)

def applied (r : ApplyReport) : Nat := r.events.countP Event.isApplied

def failed (r : ApplyReport) : Nat := r.events.countP Event.isFailure

def skipped (r : ApplyReport) : Nat := r.events.countP Event.isSkip

def heading (r : ApplyReport) : Text := "Applied: " ++ r.source ++ " (" ++ r.mode ++ ", " ++ r.backend ++ ")"

def totals (r : ApplyReport) : Text :=
  decimal r.applied ++ " applied, " ++ decimal r.failed ++ " failed, " ++ decimal r.skipped ++ " skipped"

def eventLines (r : ApplyReport) : List Text :=
  if r.events.isEmpty then ["Nothing to apply."] else r.events.map Event.line

def lines (r : ApplyReport) : List Text := r.heading :: [] :: r.eventLines ++ [[], r.totals]

def value (r : ApplyReport) : Value :=
  .object [("source", .text r.source), ("mode", .text r.mode), ("backend", .text r.backend),
    ("events", .list (r.events.map Event.value))]

def render (r : ApplyReport) (format : OutputFormat) : Text := format.write r.lines r.value

end ApplyReport

/-! ### Compiling -/

/-- What compiling a file gave. -/
structure CompileReport where
  file : Text
  compilation : Compilation
  deriving DecidableEq, Repr

namespace CompileReport

def statementLines (r : CompileReport) : List Text :=
  if r.compilation.statements.isEmpty then ["No tables found."]
  else r.compilation.statements.map fun s => s.sql ++ ";"

def lines (r : CompileReport) : List Text :=
  let skipped := skippedLines r.compilation.skipped
  ("Compiled: " ++ r.file) :: [] :: r.statementLines ++ if skipped.isEmpty then [] else [] :: skipped

def value (r : CompileReport) : Value :=
  .object [("file", .text r.file),
    ("statements", .list (r.compilation.statements.map fun s =>
      .object [("table", .text s.table), ("sql", .text s.sql)])),
    ("skipped", .list (r.compilation.skipped.map fun s => .object s.members))]

def render (r : CompileReport) (format : OutputFormat) : Text := format.write r.lines r.value

end CompileReport

/-! ### Listing tables -/

/-- A table of a store and its foreign keys. -/
structure TableEntry where
  name : Text
  foreignKeys : List ForeignKey
  deriving DecidableEq, Repr

/-- The tables of a store. -/
structure TablesReport where
  backend : Text
  tables : List TableEntry
  deriving DecidableEq, Repr

namespace TablesReport

/-- Asks a store for its tables, and for the foreign keys of each. -/
def collect {σ : Type} (store : SchemaStore σ) (s : σ) : Except StoreError TablesReport := do
  let names ← store.tableNames s
  let tables ← names.mapM fun name => (store.foreignKeys s name).map (TableEntry.mk name)
  return ⟨store.backend, tables⟩

def keyLine (k : ForeignKey) : Text := "  " ++ k.column ++ " → " ++ k.remoteTable ++ "." ++ k.remoteColumn

def lines (r : TablesReport) : List Text :=
  ("Tables (" ++ r.backend ++ ")") :: [] ::
    if r.tables.isEmpty then ["No tables found."]
    else r.tables.flatMap fun t => t.name :: t.foreignKeys.map keyLine

def keyValue (k : ForeignKey) : Value :=
  .object [("column", .text k.column), ("remote_table", .text k.remoteTable), ("remote_column", .text k.remoteColumn)]

def value (r : TablesReport) : Value :=
  .object [("backend", .text r.backend),
    ("tables", .list (r.tables.map fun t =>
      .object [("name", .text t.name), ("foreign_keys", .list (t.foreignKeys.map keyValue))]))]

def render (r : TablesReport) (format : OutputFormat) : Text := format.write r.lines r.value

end TablesReport

/-! ### Generating -/

/-- What a generator wrote for a description, the way it takes, and the report of applying it unless the run was a
    dry one. -/
structure GenerateReport where
  description : Text
  generator : Text
  route : Text
  text : Text
  dryRun : Bool
  report : Option ApplyReport
  deriving DecidableEq, Repr

namespace GenerateReport

def lines (r : GenerateReport) : List Text :=
  ("Generated by " ++ r.generator ++ " (" ++ r.route ++ ")") :: [] :: r.text ::
    match r.report with
    | some report => [] :: report.lines
    | none => if r.dryRun then [[], "No changes made (dry-run mode)."] else []

def value (r : GenerateReport) : Value :=
  .object (("description", .text r.description) :: ("generator", .text r.generator) :: ("route", .text r.route) ::
    ("text", .text r.text) :: ("dry_run", .bool r.dryRun) ::
    (r.report.map fun report => (("report" : Text), report.value)).toList)

def render (r : GenerateReport) (format : OutputFormat) : Text := format.write r.lines r.value

end GenerateReport
end Schemata
