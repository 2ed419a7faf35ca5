import Schemata.Proofs.Ddl.Trimmed
import Schemata.Proofs.Generator.Fences
import Schemata.Proofs.Materialize.Trace
import Schemata.Sql.Store

/-! Generated schema text against the same text in a file. The fence and the prose around it go, and so do the blanks
    at the ends of the schema; what is left takes the way of a schema text, and on stores that answer alike it makes the
    same calls. Only the lines of skips tell the two apart: a file has the lines that trimming cuts off. -/

namespace Schemata

/-! ### Stores that answer alike -/

namespace Store
variable {σ τ : Type} {store : Store σ} {store' : Store τ} {s : σ} {s' : τ}

/-- The outcomes of statements that are executed one after the other, each whatever the ones before it gave. -/
def outcomes (store : Store σ) : σ → List Text → List (Except StoreError Unit)
  | _, [] => []
  | s, sql :: rest => (store.executeStatement s sql).1 :: store.outcomes (store.executeStatement s sql).2 rest

/-- The calls of a run on a source, in order, with their outcomes. -/
def callsOf (store : Store σ) (s : σ) (source : Source) : List (StoreCall × Except StoreError Unit) :=
  (store.recorded.materialize (s, []) source).content.2

/-- Stores that give the same outcomes are run alike. -/
theorem applyStatements_congr {statements : List Statement}
    (h : store.outcomes s (statements.map Statement.sql) = store'.outcomes s' (statements.map Statement.sql)) :
    (store.applyStatements s statements).events = (store'.applyStatements s' statements).events ∧
      (store.applyStatements s statements).fatal = (store'.applyStatements s' statements).fatal ∧
      ∀ calls, (store.recorded.applyStatements (s, calls) statements).content.2 =
        (store'.recorded.applyStatements (s', calls) statements).content.2 := by
  induction statements generalizing s s' with
  | nil => exact ⟨rfl, rfl, fun _ => rfl⟩
  | cons st statements ih =>
    rw [List.map_cons, outcomes, outcomes] at h
    obtain ⟨hfirst, hnext⟩ := List.cons.inj h
    rcases hanswer : store.executeStatement s st.sql with ⟨outcome, next⟩
    rcases hanswer' : store'.executeStatement s' st.sql with ⟨outcome', next'⟩
    rw [hanswer, hanswer'] at hfirst hnext
    obtain rfl : outcome = outcome' := hfirst
    have hrecorded := recorded_executeStatement hanswer
    have hrecorded' := recorded_executeStatement hanswer'
    cases hfatal : fatalError? outcome with
    | none =>
      obtain ⟨hevents, hfatals, hcalls⟩ := ih hnext
      rw [applyStatements_next hanswer hfatal, applyStatements_next hanswer' hfatal]
      refine ⟨congrArg (_ ++ ·) hevents, hfatals, fun calls => ?_⟩
      rw [applyStatements_next (hrecorded calls) hfatal, applyStatements_next (hrecorded' calls) hfatal]
      exact hcalls _
    | some e =>
      rw [applyStatements_fatal hanswer hfatal, applyStatements_fatal hanswer' hfatal]
      refine ⟨rfl, rfl, fun calls => ?_⟩
      rw [applyStatements_fatal (hrecorded calls) hfatal, applyStatements_fatal (hrecorded' calls) hfatal]

end Store

/-- A database answers alike in memory and in a file. -/
theorem Sql.Database.outcomes_inMemory (db : Sql.Database) (sqls : List Text) :
    (Sql.Database.store Sql.Database.inMemory).outcomes db sqls =
      (Sql.Database.store Sql.Database.inFile).outcomes db sqls := by
  induction sqls generalizing db with
  | nil => rfl
  | cons sql sqls ih => exact congrArg (_ :: ·) (ih _)

/-! ### What a generator hands on -/

/-- A schema that may stand in a fence and is told from SQL. -/
structure IsFencedSchema (schema : Text) : Prop where
  blocks_ne_nil : (Outline.read schema).blocks ≠ []
  isProse : IsProse schema
  no_sql : ¬("CREATE TABLE" : Text) <:+: Text.upperAscii schema

namespace IsFencedSchema
variable {schema : Text} (h : IsFencedSchema schema)
include h

theorem trim : IsFencedSchema (Text.trim schema) where
  blocks_ne_nil := by
    have hblocks := h.blocks_ne_nil
    rw [Outline.read_eq_trim] at hblocks
    exact fun hnil => hblocks (List.map_eq_nil_iff.mpr hnil)
  isProse := h.isProse.of_isInfix (Text.trim_isInfix schema)
  no_sql := fun hsql => h.no_sql (hsql.trans ((Text.trim_isInfix schema).map Char.toUpper))

theorem ne_nil : schema ≠ [] := by
  rintro rfl
  exact h.blocks_ne_nil (by decide +kernel)

theorem ofGenerated : Source.ofGenerated schema = .structured schema := by
  have hblocks : (Outline.read schema).blocks.isEmpty = false := by simpa using h.blocks_ne_nil
  have hsql : Text.contains "CREATE TABLE" (Text.upperAscii schema) = false := by
    rw [← Bool.not_eq_true, Text.contains_iff]
    exact h.no_sql
  rw [Source.ofGenerated, hblocks, hsql]
  rfl

end IsFencedSchema

/-! ### Generated text and the same file -/

/-- A skip is reported further down, everything else as it is. -/
def Event.down (k : Nat) : Event → Event
  | skipped skip => skipped (skip.down k)
  | event => event

theorem Attempt.event?_down (k : Nat) (a : Attempt) : a.event?.map (Event.down k) = a.event? := by
  rcases a with ⟨st, e | u⟩
  · cases e <;> rfl
  · rfl

/-- A run on statements reports no skips. -/
theorem Store.events_down {σ : Type} (store : Store σ) (s : σ) (statements : List Statement) (k : Nat) :
    (store.applyStatements s statements).events.map (Event.down k) = (store.applyStatements s statements).events := by
  obtain ⟨attempts, -, hevents, -⟩ := store.applyStatements_traced s statements
  rw [hevents, List.map_filterMap]
  exact congrArg (List.filterMap · _) (funext (Attempt.event?_down k))

section Routes
variable {σ τ : Type} {store : Store σ} {store' : Store τ} {s : σ} {s' : τ}

/-- A schema text trimmed runs like the text itself, with its skips further up. -/
theorem Store.materialize_trim {schema : Text}
    (h : store.outcomes s ((compile schema).statements.map Statement.sql) =
      store'.outcomes s' ((compile schema).statements.map Statement.sql)) :
    store.callsOf s (.structured (Text.trim schema)) = store'.callsOf s' (.structured schema) ∧
      (store.materialize s (.structured (Text.trim schema))).fatal =
        (store'.materialize s' (.structured schema)).fatal ∧
      (store'.materialize s' (.structured schema)).events =
        (store.materialize s (.structured (Text.trim schema))).events.map
          (Event.down (Text.newlines (schema.takeWhile isBlank))) := by
  have hcompile := compile_eq_trim schema
  have hstatements : (compile schema).statements = (compile (Text.trim schema)).statements := by rw [hcompile]
  rw [hstatements] at h
  obtain ⟨hevents, hfatal, hcalls⟩ := applyStatements_congr h
  simp only [callsOf, Store.materialize, Run.after, hstatements]
  refine ⟨hcalls [], hfatal, ?_⟩
  rw [List.map_append, List.map_map, events_down, hevents, hcompile, List.map_map]
  rfl

/-- A schema in a fence takes effect like the same schema in a file, whatever the prose around it. -/
theorem materialize_generated {schema before behind tag description : Text} {g : Generator}
    (hschema : IsFencedSchema schema) (hbefore : IsProse before) (hbehind : IsProse behind)
    (htag : ∀ c ∈ tag, isTagChar c = true)
    (houtput : g.complete (schemaPrompt description) =
      .ok (before ++ ticks ++ tag ++ ['\n'] ++ schema ++ ['\n'] ++ ticks ++ behind))
    (hstores : store.outcomes s ((compile schema).statements.map Statement.sql) =
      store'.outcomes s' ((compile schema).statements.map Statement.sql)) :
    g.describe description = .ok (Text.trim schema) ∧
      Source.ofGenerated (Text.trim schema) = .structured (Text.trim schema) ∧
      let generated := Source.ofGenerated (Text.trim schema)
      let file := Source.structured schema
      store.callsOf s generated = store'.callsOf s' file ∧
        (store.materialize s generated).fatal = (store'.materialize s' file).fatal ∧
        (store'.materialize s' file).events =
          (store.materialize s generated).events.map (Event.down (Text.newlines (schema.takeWhile isBlank))) := by
  let fence : FenceLayout := ⟨tag, [], false, schema, htag, List.forall_mem_nil _, hschema.isProse⟩
  have htext : before ++ ticks ++ tag ++ ['\n'] ++ schema ++ ['\n'] ++ ticks ++ behind =
      before ++ (fence.render ++ behind) := by
    simp [fence, FenceLayout.render, FenceLayout.shape, FenceShape.render, FenceShape.lineEnd]
  have hstripped : stripFences (before ++ (fence.render ++ behind)) = Text.trim schema :=
    stripFences_append hbefore hbehind fence
  refine ⟨?_, hschema.trim.ofGenerated, ?_⟩
  · rw [Generator.describe, houtput, htext]
    dsimp only
    rw [hstripped, if_neg (by simpa using hschema.trim.ne_nil)]
  · rw [hschema.trim.ofGenerated]
    exact Store.materialize_trim hstores

end Routes

/-- A comment above a block, a line that is left out, and a block without columns, behind blank lines. -/
def fencedTables : Text := " \n\n // tables\nTable a \x7b id int, \x7d\nEnum\nTable b \x7b \x7d \n".toList

/-- Prose whose backticks touch those of the fence. -/
def proseBefore : Text := "use `a`; ``".toList

def proseBehind : Text := "`` is the end `".toList

theorem materialize_generated_fencedTables :
    let g := Generator.constant "model".toList
      (proseBefore ++ ticks ++ "table-1".toList ++ ['\n'] ++ fencedTables ++ ['\n'] ++ ticks ++ proseBehind)
    let generated := Source.ofGenerated (Text.trim fencedTables)
    let memory := Sql.Database.store Sql.Database.inMemory
    let file := Sql.Database.store Sql.Database.inFile
    IsFencedSchema fencedTables ∧ IsProse proseBefore ∧ IsProse proseBehind ∧
      (Outline.read fencedTables).skipped.map Skip.line = [5] ∧
      (Outline.read (Text.trim fencedTables)).skipped.map Skip.line = [3] ∧
      g.describe [] = .ok (Text.trim fencedTables) ∧
      memory.callsOf Sql.Database.empty generated = file.callsOf Sql.Database.empty (.structured fencedTables) ∧
      (file.materialize Sql.Database.empty (.structured fencedTables)).events =
        (memory.materialize Sql.Database.empty generated).events.map (Event.down 2) := by
  intro g generated memory file
  have hschema : IsFencedSchema fencedTables := ⟨by decide +kernel, by decide +kernel, by decide +kernel⟩
  have hbefore : IsProse proseBefore := by decide +kernel
  have hbehind : IsProse proseBehind := by decide +kernel
  have htag : ∀ c ∈ "table-1".toList, isTagChar c = true := List.all_eq_true.mp (by decide)
  obtain ⟨hdescribe, -, hcalls, -, hevents⟩ := materialize_generated (g := g) hschema hbefore hbehind htag rfl
    (Sql.Database.outcomes_inMemory _ _)
  exact ⟨hschema, hbefore, hbehind, by decide +kernel, by decide +kernel, hdescribe, hcalls, hevents⟩

end Schemata
