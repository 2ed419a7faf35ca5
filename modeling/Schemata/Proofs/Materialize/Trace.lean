import Schemata.Report
import Schemata.Store.Scripted

/-! The trace of a run: which writes reach the store, in which order, and what is reported of each. A store that
    notes its calls is a store like any other, and answers as the store it is made from; so its notes are the calls
    of a run on that store. -/

namespace Schemata

/-! ### Calls and outcomes -/

/-- The error of an outcome that ends a run. -/
def fatalError? : Except StoreError Unit → Option StoreError
  | .ok () => none
  | .error e => if e.isFatal then some e else none

/-- A statement that was executed, and how that ended. -/
structure Attempt where
  statement : Statement
  outcome : Except StoreError Unit

namespace Attempt
variable (a : Attempt)

def call : StoreCall × Except StoreError Unit := (.statement a.statement.sql, a.outcome)

/-- What is reported of the attempt: nothing if it was fatal. -/
def event? : Option Event :=
  match a.outcome with
  | .ok () => some (.tableApplied a.statement.table)
  | .error (.statement message) => some (.tableFailed a.statement.table message)
  | .error _ => none

end Attempt

/-- What is reported of a script with the given outcome: nothing if that is fatal. -/
def scriptEvent? (script : Text) : Except StoreError Unit → Option Event
  | .ok () => some (.scriptApplied (countStatements script))
  | .error (.statement message) => some (.scriptFailed message)
  | .error _ => none

namespace Store
variable {σ : Type} (store : Store σ)

/-- The store with a note of each call and its outcome beside its contents. -/
def recorded : Store (σ × List (StoreCall × Except StoreError Unit)) where
  backend := store.backend
  executeStatement s sql :=
    let (outcome, content) := store.executeStatement s.1 sql
    (outcome, content, s.2 ++ [(.statement sql, outcome)])
  executeScript s script :=
    let (outcome, content) := store.executeScript s.1 script
    (outcome, content, s.2 ++ [(.script script, outcome)])

/-- The store gives the outcomes of the attempts one after the other, and goes from the one content to the other. -/
inductive Answers : σ → List Attempt → σ → Prop
  | nil (s : σ) : Answers s [] s
  | cons {s s' s'' : σ} {a : Attempt} {rest : List Attempt}
    (answer : store.executeStatement s a.statement.sql = (a.outcome, s')) (answers : Answers s' rest s'') :
    Answers s (a :: rest) s''

/-- The attempts of a run on statements: in their order, each once, up to the first fatal one. -/
structure Traced (start : σ) (statements : List Statement) (run : Run σ) (attempts : List Attempt) : Prop where
  answers : store.Answers start attempts run.content
  order : attempts.map Attempt.statement <+: statements
  stop :
    (run.fatal = none ∧ attempts.map Attempt.statement = statements ∧
      ∀ a ∈ attempts, fatalError? a.outcome = none) ∨
    ∃ done last e, attempts = done ++ [last] ∧ (∀ a ∈ done, fatalError? a.outcome = none) ∧
      fatalError? last.outcome = some e ∧ run.fatal = some e

end Store

/-- The run with notes of its calls beside its contents. -/
def Run.withCalls {σ : Type} (run : Run σ) (calls : List (StoreCall × Except StoreError Unit)) :
    Run (σ × List (StoreCall × Except StoreError Unit)) :=
  ⟨run.events, run.fatal, run.log, run.content, calls⟩

/-! ### One attempt of a run -/

theorem fatalError?_eq_some {outcome : Except StoreError Unit} {e : StoreError} :
    fatalError? outcome = some e ↔ outcome = .error e ∧ e.isFatal = true := by
  cases outcome with
  | ok u => simp [fatalError?]
  | error e' =>
    rw [fatalError?, Option.ite_none_right_eq_some]
    constructor
    · rintro ⟨hfatal, he⟩
      cases he
      exact ⟨rfl, hfatal⟩
    · rintro ⟨he, hfatal⟩
      cases he
      exact ⟨hfatal, rfl⟩

namespace Attempt

/-- What is logged of an attempt that is not fatal. -/
def logRecord (backend : Text) (a : Attempt) : LogRecord :=
  match a.outcome with
  | .ok () => ⟨.info, "table applied", [("table", a.statement.table), ("backend", backend)]⟩
  | .error e => ⟨.error, "table failed", [("table", a.statement.table), ("error", e.message)]⟩

theorem event?_eq_none {a : Attempt} : a.event? = none ↔ (fatalError? a.outcome).isSome = true := by
  rcases a with ⟨st, e | u⟩
  · cases e <;> simp [event?, fatalError?, StoreError.isFatal]
  · simp [event?, fatalError?]

end Attempt

namespace Store
variable {σ : Type} {store : Store σ} {s s' : σ} {st : Statement} {outcome : Except StoreError Unit}

/-- An attempt that is not fatal is reported, and the run goes on from what it leaves. -/
theorem applyStatements_next (answer : store.executeStatement s st.sql = (outcome, s'))
    (hnext : fatalError? outcome = none) (statements : List Statement) :
    store.applyStatements s (st :: statements) =
      (store.applyStatements s' statements).after (Attempt.event? ⟨st, outcome⟩).toList
        [Attempt.logRecord store.backend ⟨st, outcome⟩] := by
  rw [applyStatements, answer]
  cases outcome with
  | ok u => rfl
  | error e =>
    cases e with
    | statement message => rfl
    | _ => cases hnext

/-- A fatal attempt ends the run. -/
theorem applyStatements_fatal {e : StoreError} (answer : store.executeStatement s st.sql = (outcome, s'))
    (hfatal : fatalError? outcome = some e) (statements : List Statement) :
    store.applyStatements s (st :: statements) = ⟨[], some e, [], s'⟩ := by
  obtain ⟨rfl, he⟩ := fatalError?_eq_some.mp hfatal
  rw [applyStatements, answer]
  exact if_pos he

theorem recorded_executeStatement (answer : store.executeStatement s st.sql = (outcome, s'))
    (calls : List (StoreCall × Except StoreError Unit)) :
    store.recorded.executeStatement (s, calls) st.sql = (outcome, s', calls ++ [Attempt.call ⟨st, outcome⟩]) := by
  simp only [recorded, answer, Attempt.call]

theorem Traced.next {statements : List Statement} {run : Run σ} {attempts : List Attempt}
    (answer : store.executeStatement s st.sql = (outcome, s')) (hnext : fatalError? outcome = none)
    (h : store.Traced s' statements run attempts) (events : List Event) (log : List LogRecord) :
    store.Traced s (st :: statements) (run.after events log) (⟨st, outcome⟩ :: attempts) where
  answers := .cons answer h.answers
  order := (List.prefix_cons_inj st).mpr h.order
  stop := by
    rcases h.stop with ⟨hrun, hall, hattempts⟩ | ⟨done, last, e, rfl, hdone, hlast, hrun⟩
    · exact Or.inl ⟨hrun, congrArg (st :: ·) hall, List.forall_mem_cons.mpr ⟨hnext, hattempts⟩⟩
    · exact Or.inr ⟨⟨st, outcome⟩ :: done, last, e, rfl, List.forall_mem_cons.mpr ⟨hnext, hdone⟩, hlast, hrun⟩

theorem Traced.fatal {e : StoreError} (answer : store.executeStatement s st.sql = (outcome, s'))
    (hfatal : fatalError? outcome = some e) (statements : List Statement) :
    store.Traced s (st :: statements) ⟨[], some e, [], s'⟩ [⟨st, outcome⟩] where
  answers := .cons answer (.nil s')
  order := (List.prefix_cons_inj st).mpr List.nil_prefix
  stop := Or.inr ⟨[], ⟨st, outcome⟩, e, rfl, List.forall_mem_nil _, hfatal, rfl⟩

/-! ### Whole runs -/

/-- A run on statements, with its attempts: they are what a recording store notes, and what is reported. -/
theorem applyStatements_traced (s : σ) (statements : List Statement) :
    ∃ attempts, store.Traced s statements (store.applyStatements s statements) attempts ∧
      (store.applyStatements s statements).events = attempts.filterMap Attempt.event? ∧
      ∀ calls, store.recorded.applyStatements (s, calls) statements =
        (store.applyStatements s statements).withCalls (calls ++ attempts.map Attempt.call) := by
  induction statements generalizing s with
  | nil =>
    refine ⟨[], ⟨.nil s, List.nil_prefix, Or.inl ⟨rfl, rfl, List.forall_mem_nil _⟩⟩, rfl, fun calls => ?_⟩
    rw [List.map_nil, List.append_nil]
    rfl
  | cons st statements ih =>
    rcases hanswer : store.executeStatement s st.sql with ⟨outcome, s'⟩
    have hrecorded := recorded_executeStatement hanswer
    cases hfatal : fatalError? outcome with
    | none =>
      obtain ⟨attempts, htraced, hevents, hcalls⟩ := ih s'
      refine ⟨⟨st, outcome⟩ :: attempts, ?_, ?_, fun calls => ?_⟩
      · rw [applyStatements_next hanswer hfatal]
        exact htraced.next hanswer hfatal _ _
      · rw [applyStatements_next hanswer hfatal, List.filterMap_cons, ← hevents]
        cases Attempt.event? ⟨st, outcome⟩ <;> rfl
      · rw [applyStatements_next hanswer hfatal, applyStatements_next (hrecorded calls) hfatal, hcalls,
          List.append_assoc]
        rfl
    | some e =>
      refine ⟨[⟨st, outcome⟩], ?_, ?_, fun calls => ?_⟩
      · rw [applyStatements_fatal hanswer hfatal]
        exact .fatal hanswer hfatal statements
      · have hnone := (Attempt.event?_eq_none (a := ⟨st, outcome⟩)).mpr (Option.isSome_iff_exists.mpr ⟨e, hfatal⟩)
        rw [applyStatements_fatal hanswer hfatal, List.filterMap_cons_none hnone, List.filterMap_nil]
      · rw [applyStatements_fatal hanswer hfatal, applyStatements_fatal (hrecorded calls) hfatal]
        rfl

-- A connection lost at the second statement leaves the third one out.
example : (Playbook.store.applyStatements ⟨[.ok (), .error (.connection [])], []⟩
    [⟨['a'], ['x']⟩, ⟨['b'], ['y']⟩, ⟨['c'], ['z']⟩]).content.calls = [.statement ['x'], .statement ['y']] := rfl

theorem Traced.of_fatal_eq_none {start : σ} {statements : List Statement} {run : Run σ} {attempts : List Attempt}
    (h : store.Traced start statements run attempts) (hrun : run.fatal = none) :
    attempts.map Attempt.statement = statements ∧ ∀ a ∈ attempts, fatalError? a.outcome = none := by
  rcases h.stop with ⟨-, hall, hattempts⟩ | ⟨_, _, e, -, -, -, hfatal⟩
  · exact ⟨hall, hattempts⟩
  · rw [hrun] at hfatal
    cases hfatal

theorem applyScript_eq (s : σ) (script : Text) :
    (store.applyScript s script).events = (scriptEvent? script (store.executeScript s script).1).toList ∧
      (store.applyScript s script).fatal = fatalError? (store.executeScript s script).1 ∧
      (store.applyScript s script).content = (store.executeScript s script).2 ∧
      ∀ calls, store.recorded.applyScript (s, calls) script =
        (store.applyScript s script).withCalls (calls ++ [(.script script, (store.executeScript s script).1)]) := by
  unfold applyScript
  rcases hanswer : store.executeScript s script with ⟨e | u, s'⟩
  · have hrecorded : ∀ calls, store.recorded.executeScript (s, calls) script =
        (.error e, s', calls ++ [(.script script, .error e)]) := fun calls => by
      simp only [recorded, hanswer]
    cases e <;> refine ⟨rfl, rfl, rfl, fun calls => ?_⟩ <;> rw [hrecorded] <;> rfl
  · have hrecorded : ∀ calls, store.recorded.executeScript (s, calls) script =
        (.ok (), s', calls ++ [(.script script, .ok ())]) := fun calls => by
      simp only [recorded, hanswer]
    refine ⟨rfl, rfl, rfl, fun calls => ?_⟩
    rw [hrecorded]
    rfl

end Store

/-! ### Reports -/

namespace ApplyReport

theorem applied_add_failed_add_skipped (r : ApplyReport) : r.applied + r.failed + r.skipped = r.events.length := by
  unfold applied failed skipped
  induction r.events with
  | nil => rfl
  | cons event events ih =>
    rw [List.countP_cons, List.countP_cons, List.countP_cons, List.length_cons, ← ih]
    cases event <;> simp [Event.isApplied, Event.isFailure, Event.isSkip] <;> omega

theorem collect_eq_ok {σ : Type} {store : Store σ} {content : σ} {name : Text} {source : Source} {r : ApplyReport}
    (h : (collect store content name source).1 = .ok r) :
    (store.materialize content source).fatal = none ∧ r.events = (store.materialize content source).events := by
  unfold collect at h
  dsimp only at h
  split at h
  · cases h
  · rename_i hfatal
    cases h
    exact ⟨hfatal, rfl⟩

end ApplyReport

/-- Each attempt that is not fatal is reported as applied or as failed. -/
theorem countP_events {attempts : List Attempt} (h : ∀ a ∈ attempts, fatalError? a.outcome = none) :
    (attempts.filterMap Attempt.event?).countP Event.isApplied +
      (attempts.filterMap Attempt.event?).countP Event.isFailure = attempts.length := by
  induction attempts with
  | nil => rfl
  | cons a attempts ih =>
    obtain ⟨ha, hattempts⟩ := List.forall_mem_cons.mp h
    have hone : ∃ event, a.event? = some event ∧ event.isApplied.toNat + event.isFailure.toNat = 1 := by
      rcases a with ⟨st, e | u⟩
      · cases e with
        | statement message => exact ⟨_, rfl, rfl⟩
        | _ => cases ha
      · exact ⟨_, rfl, rfl⟩
    obtain ⟨event, hevent, hcount⟩ := hone
    rw [List.filterMap_cons_some hevent, List.countP_cons, List.countP_cons, List.length_cons, ← ih hattempts]
    cases hA : event.isApplied <;> cases hF : event.isFailure <;> simp [hA, hF] at hcount ⊢ <;> omega

namespace Store
variable {σ : Type} (store : Store σ)

/-- The trace of a run. On a schema text the statements are executed in order, each once, up to the first fatal
    outcome, behind a report of all skips; on a script there is one call. Reports count every event once, and those of
    a schema text count every statement. -/
theorem materialize_trace (content : σ) :
    (∀ text, ∃ attempts,
      store.Traced content (compile text).statements (store.materialize content (.structured text)) attempts ∧
      (store.materialize content (.structured text)).events =
        (compile text).skipped.map .skipped ++ attempts.filterMap Attempt.event? ∧
      store.recorded.materialize (content, []) (.structured text) =
        (store.materialize content (.structured text)).withCalls (attempts.map Attempt.call)) ∧
    (∀ script,
      (store.materialize content (.script script)).events =
        (scriptEvent? script (store.executeScript content script).1).toList ∧
      (store.materialize content (.script script)).fatal = fatalError? (store.executeScript content script).1 ∧
      (store.materialize content (.script script)).content = (store.executeScript content script).2 ∧
      store.recorded.materialize (content, []) (.script script) =
        (store.materialize content (.script script)).withCalls
          [(.script script, (store.executeScript content script).1)]) ∧
    ∀ name source report, (ApplyReport.collect store content name source).1 = .ok report →
      report.events = (store.materialize content source).events ∧
      report.applied + report.failed + report.skipped = report.events.length ∧
      ∀ text, source = .structured text → report.applied + report.failed = (compile text).statements.length := by
  refine ⟨fun text => ?_, fun script => ?_, fun name source report hreport => ?_⟩
  · obtain ⟨attempts, htraced, hevents, hcalls⟩ := store.applyStatements_traced content (compile text).statements
    refine ⟨attempts, ⟨htraced.answers, htraced.order, htraced.stop⟩, ?_, ?_⟩
    · exact congrArg (_ ++ ·) hevents
    · show (store.recorded.applyStatements (content, []) _).after _ _ = _
      rw [hcalls]
      rfl
  · obtain ⟨hevents, hfatal, hcontent, hcalls⟩ := store.applyScript_eq content script
    exact ⟨hevents, hfatal, hcontent, hcalls []⟩
  · obtain ⟨hfatal, hevents⟩ := ApplyReport.collect_eq_ok hreport
    refine ⟨hevents, report.applied_add_failed_add_skipped, fun text hsource => ?_⟩
    subst hsource
    obtain ⟨attempts, htraced, happlied, -⟩ := store.applyStatements_traced content (compile text).statements
    obtain ⟨hall, hattempts⟩ := htraced.of_fatal_eq_none hfatal
    have hskips : ∀ p : Event → Bool, (∀ skip, p (.skipped skip) = false) →
        ((compile text).skipped.map Event.skipped).countP p = 0 := fun p hp => by
      rw [List.countP_map, List.countP_eq_zero]
      intro skip _
      rw [Function.comp_apply, hp]
      exact Bool.false_ne_true
    have hsplit : report.events = (compile text).skipped.map .skipped ++ attempts.filterMap Attempt.event? :=
      hevents.trans (congrArg (_ ++ ·) happlied)
    rw [ApplyReport.applied, ApplyReport.failed, hsplit, List.countP_append, List.countP_append,
      hskips _ fun _ => rfl, hskips _ fun _ => rfl, Nat.zero_add, Nat.zero_add, countP_events hattempts, ← hall,
      List.length_map]

end Store
end Schemata
