import Schemata.Ddl.Compilation
import Schemata.Store.Basic

/-! Applying a schema to a store. A schema text is compiled and its statements are executed one by one: a rejected
    one is reported and the next goes on. A script is one write. Only a fatal error ends a run early. -/

namespace Schemata

/-- What is applied: a schema text, or an SQL script as it is. -/
inductive Source
  | structured (text : Text)
  | script (text : Text)
  deriving DecidableEq, Repr

namespace Source

/-- The name of the way a source takes. -/
def mode : Source → Text
  | structured _ => "structured"
  | script _ => "raw_script"

/-- Text with a table block and without `CREATE TABLE`, in any ASCII case, is a schema; all other text is SQL. -/
def ofGenerated (text : Text) : Source :=
  if !(Outline.read text).blocks.isEmpty && !Text.contains "CREATE TABLE" (Text.upperAscii text) then structured text
  else script text

end Source

/-- Something that happened in a run. -/
inductive Event
  | skipped (skip : Skip)
  | tableApplied (table : Text)
  | tableFailed (table error : Text)
  | scriptApplied (statements : Nat)
  | scriptFailed (error : Text)
  deriving DecidableEq, Repr

namespace Event

def isFailure : Event → Bool
  | tableFailed _ _ | scriptFailed _ => true
  | _ => false

def isApplied : Event → Bool
  | tableApplied _ | scriptApplied _ => true
  | _ => false

def isSkip : Event → Bool
  | skipped _ => true
  | _ => false

end Event

/-- The number of statements of a script: of stretches between semicolons outside quotes that hold more than blanks.
    Counts from a place inside the given quote, if any, with or without such a character behind the last
    semicolon. -/
def countFrom (quote : Option Char) (pending : Bool) : Text → Nat
  | [] => if pending then 1 else 0
  | c :: s =>
    match quote with
    | some q => countFrom (if c == q then none else some q) pending s
    | none =>
      if c == '\'' || c == '"' then countFrom (some c) true s
      else if c == ';' then (if pending then 1 else 0) + countFrom none false s
      else countFrom none (pending || !isBlank c) s

def countStatements (script : Text) : Nat := countFrom none false script

/-- What a run reports, the error that ended it early, its log, and the store contents it leaves. -/
structure Run (σ : Type) where
  events : List Event
  fatal : Option StoreError
  log : List LogRecord
  content : σ

/-- The run with something before it. -/
def Run.after {σ : Type} (r : Run σ) (events : List Event) (log : List LogRecord) : Run σ :=
  { r with events := events ++ r.events, log := log ++ r.log }

namespace Store
variable {σ : Type} (store : Store σ)

/-- Executes statements in order, up to the first fatal error. -/
def applyStatements : σ → List Statement → Run σ
  | s, [] => ⟨[], none, [], s⟩
  | s, st :: rest =>
    match store.executeStatement s st.sql with
    | (.ok (), s') =>
      (applyStatements s' rest).after [.tableApplied st.table]
        [⟨.info, "table applied", [("table", st.table), ("backend", store.backend)]⟩]
    | (.error e, s') =>
      if e.isFatal then ⟨[], some e, [], s'⟩
      else (applyStatements s' rest).after [.tableFailed st.table e.message]
        [⟨.error, "table failed", [("table", st.table), ("error", e.message)]⟩]

/-- Executes a script as one write. -/
def applyScript (s : σ) (script : Text) : Run σ :=
  match store.executeScript s script with
  | (.ok (), s') =>
    ⟨[.scriptApplied (countStatements script)], none,
      [⟨.info, "script applied",
        [("statements", decimal (countStatements script)), ("backend", store.backend)]⟩], s'⟩
  | (.error e, s') =>
    if e.isFatal then ⟨[], some e, [], s'⟩
    else ⟨[.scriptFailed e.message], none, [⟨.error, "script failed; rolled back", [("error", e.message)]⟩], s'⟩

/-- Applies a source. The skips of a schema text are reported before any of its statements runs. -/
def materialize (s : σ) : Source → Run σ
  | .structured text =>
    let compiled := compile text
    (store.applyStatements s compiled.statements).after (compiled.skipped.map .skipped) (compileLog text)
  | .script text => store.applyScript s text

end Store
end Schemata
