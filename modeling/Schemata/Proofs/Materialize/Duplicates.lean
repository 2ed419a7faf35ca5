import Schemata.Proofs.Sql.Tables

/-! Warnings about repeated table names. Compiling remembers each name as it is written and warns of a block whose name
    is among those above it. A store that creates tables if they are absent leaves one that exists as it is, so in a run
    a block has no effect once one of its name above it was applied. -/

namespace Schemata

/-- The message of a warning about a repeated name. -/
def duplicateMessage : Text := "duplicate table block; only the first definition takes effect"

namespace TableBlock

/-- The warning that the name of a block stood above it. -/
def duplicateRecord (b : TableBlock) : LogRecord :=
  ⟨.warn, duplicateMessage, [("table", b.name), ("line", decimal b.line)]⟩

/-- The records for a block below the given ones. -/
def records (before : List TableBlock) (b : TableBlock) : List LogRecord :=
  duplicateWarning (before.map TableBlock.name) b ++ (b.statement?.map compiledRecord).toList

variable {before : List TableBlock} {b : TableBlock}

theorem duplicateRecord_mem_records (h : ∃ a ∈ before, a.name = b.name) : b.duplicateRecord ∈ b.records before := by
  obtain ⟨a, ha, hname⟩ := h
  have hseen : (before.map TableBlock.name).contains b.name = true :=
    List.contains_iff_mem.mpr (hname ▸ List.mem_map_of_mem ha)
  rw [records, duplicateWarning, if_pos hseen]
  exact List.mem_cons_self

theorem message_ne_of_mem_records (h : ∀ a ∈ before, a.name ≠ b.name) {r : LogRecord} (hr : r ∈ b.records before) :
    r.message ≠ duplicateMessage := by
  have hunseen : ¬(before.map TableBlock.name).contains b.name = true := fun hseen => by
    obtain ⟨a, ha, hname⟩ := List.mem_map.mp (List.contains_iff_mem.mp hseen)
    exact h a ha hname
  rw [records, duplicateWarning, if_neg hunseen, List.nil_append, Option.mem_toList, Option.map_eq_some_iff] at hr
  obtain ⟨st, -, rfl⟩ := hr
  change ("compiled table" : Text) ≠ duplicateMessage
  decide +kernel

end TableBlock

/-! ### The log of a text -/

/-- The records for blocks in their order, below the given ones. -/
def recordsBehind (before : List TableBlock) : List TableBlock → List LogRecord
  | [] => []
  | b :: rest => b.records before ++ recordsBehind (before ++ [b]) rest

theorem duplicateWarning_congr {seen seen' : List Text} (h : ∀ name, name ∈ seen ↔ name ∈ seen') (b : TableBlock) :
    duplicateWarning seen b = duplicateWarning seen' b := by
  have hcontains : seen.contains b.name = seen'.contains b.name := by
    rw [Bool.eq_iff_iff, List.contains_iff_mem, List.contains_iff_mem, h]
  rw [duplicateWarning, duplicateWarning, hcontains]

theorem blockRecords_eq {seen : List Text} {before : List TableBlock}
    (h : ∀ name, name ∈ seen ↔ name ∈ before.map TableBlock.name) (blocks : List TableBlock) :
    blockRecords seen blocks = recordsBehind before blocks := by
  induction blocks generalizing seen before with
  | nil => rfl
  | cons b rest ih =>
    have hseen : ∀ name, name ∈ b.name :: seen ↔ name ∈ (before ++ [b]).map TableBlock.name := fun name => by
      rw [List.map_append, List.mem_append, List.mem_cons, h, List.map_singleton, List.mem_singleton, or_comm]
    rw [blockRecords, recordsBehind, ih hseen, duplicateWarning_congr h, TableBlock.records]

theorem recordsBehind_append (before first second : List TableBlock) :
    recordsBehind before (first ++ second) =
      recordsBehind before first ++ recordsBehind (before ++ first) second := by
  induction first generalizing before with
  | nil => rw [List.append_nil]; rfl
  | cons b first ih =>
    rw [List.cons_append, recordsBehind, recordsBehind, ih, List.append_assoc, List.append_assoc, List.singleton_append]

/-- The records of a text: those of the blocks above a block, its own, those of the blocks below, then the skips. -/
theorem compileLog_split {s : Text} {before after : List TableBlock} {b : TableBlock}
    (h : (Outline.read s).blocks = before ++ b :: after) :
    compileLog s = recordsBehind [] before ++ b.records before ++ recordsBehind (before ++ [b]) after ++
      (compile s).skipped.map skipRecord := by
  have hblocks : blockRecords [] (Outline.read s).blocks = recordsBehind [] (Outline.read s).blocks :=
    blockRecords_eq (fun name => by rw [List.map_nil]) _
  rw [compileLog, hblocks, h, recordsBehind_append, recordsBehind, List.nil_append, ← List.append_assoc]

/-! ### What becomes of repeated definitions -/

namespace Store

/-- The statement of a block in a run: the statements of the blocks above it lead to the one content, its own to the
    other, and the run goes on from there. -/
structure Passes {σ : Type} (store : Store σ) (content : σ) (text : Text) (above : List TableBlock) (st : Statement)
    (done : List Attempt) (a : Attempt) (s s' : σ) : Prop where
  statements : done.map Attempt.statement = above.filterMap TableBlock.statement?
  statement : a.statement = st
  reached : store.Answers content done s
  answer : store.executeStatement s st.sql = (a.outcome, s')
  rest : ∃ attempts, store.Answers s' attempts (store.materialize content (.structured text)).content

end Store

/-- A table with two definitions, and another one between them. -/
def redefined : Text := "Table a \x7b id int \x7d\nTable b \x7b k int \x7d\nTable a \x7b x int \x7d".toList

/-- Two tables whose names are the same up to case. -/
def otherCase : Text := "Table a \x7b id int \x7d\nTable A \x7b id int \x7d".toList

end Schemata
