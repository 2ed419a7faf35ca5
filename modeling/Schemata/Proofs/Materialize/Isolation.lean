import Schemata.Proofs.Materialize.Trace
import Schemata.Proofs.Sql.Transactions

/-! A rejected statement is isolated. On a store that keeps its contents when it rejects a statement, the statements
    that a run reports as applied make a run of their own: each of them succeeds again, and they lead to the same
    contents. The runs pass through the same contents, the one with stops for the rejected statements. -/

namespace Schemata

namespace Attempt

/-- Whether the attempt is reported as an applied table. -/
def isApplied (a : Attempt) : Bool := a.event? == some (.tableApplied a.statement.table)

theorem isApplied_iff {a : Attempt} : a.isApplied = true ↔ a.outcome = .ok () := by
  rcases a with ⟨st, e | u⟩
  · cases e <;> simp [isApplied, event?]
  · simp [isApplied, event?]

theorem event?_of_isApplied {a : Attempt} (h : a.isApplied = true) :
    a.event? = some (.tableApplied a.statement.table) := beq_iff_eq.mp h

/-- An attempt that is neither applied nor fatal is a rejected statement. -/
theorem rejected_of_not_isApplied {a : Attempt} (h : ¬a.isApplied = true) (hnext : fatalError? a.outcome = none) :
    ∃ message, a.outcome = .error (.statement message) := by
  rcases a with ⟨st, e | u⟩
  · cases e with
    | statement message => exact ⟨message, rfl⟩
    | _ => cases hnext
  · exact absurd (isApplied_iff.mpr rfl) h

theorem exists_event {a : Attempt} (h : fatalError? a.outcome = none) : ∃ event, a.event? = some event := by
  cases hevent : a.event? with
  | none =>
    rw [event?_eq_none, h] at hevent
    cases hevent
  | some event => exact ⟨event, rfl⟩

/-- Only a success is reported as an applied table. -/
theorem outcome_of_isApplied {a : Attempt} {event : Event} (h : a.event? = some event)
    (happlied : event.isApplied = true) : a.outcome = .ok () := by
  rcases a with ⟨st, e | u⟩
  · cases e <;> cases h
    cases happlied
  · rfl

end Attempt

namespace Store
variable {σ : Type} (store : Store σ)

/-- The attempts of a run on a schema text that no error ends: one for each statement, in order, none of them fatal, and
    each reported behind the skips. -/
structure Completed (content : σ) (text : Text) (attempts : List Attempt) : Prop where
  answers : store.Answers content attempts (store.materialize content (.structured text)).content
  statements : attempts.map Attempt.statement = (compile text).statements
  next : ∀ a ∈ attempts, fatalError? a.outcome = none
  events : (store.materialize content (.structured text)).events =
    (compile text).skipped.map .skipped ++ attempts.filterMap Attempt.event?

/-- A store that keeps its contents when it rejects a statement. -/
def KeepsRejected : Prop :=
  ∀ s sql message s', store.executeStatement s sql = (.error (.statement message), s') → s' = s

variable {store} {content : σ} {text : Text}

theorem completed_of_fatal_eq_none (h : (store.materialize content (.structured text)).fatal = none) :
    ∃ attempts, store.Completed content text attempts := by
  obtain ⟨attempts, htraced, hevents, -⟩ := store.applyStatements_traced content (compile text).statements
  obtain ⟨hall, hnext⟩ := htraced.of_fatal_eq_none h
  exact ⟨attempts, htraced.answers, hall, hnext, congrArg (_ ++ ·) hevents⟩

/-- Where a store answers attempts none of which is fatal, these are the run on their statements. -/
theorem applyStatements_of_answers {s s' : σ} {attempts : List Attempt} (h : store.Answers s attempts s')
    (hnext : ∀ a ∈ attempts, fatalError? a.outcome = none) :
    store.applyStatements s (attempts.map Attempt.statement) =
      ⟨attempts.filterMap Attempt.event?, none, attempts.map (Attempt.logRecord store.backend), s'⟩ := by
  induction h with
  | nil s => rfl
  | @cons s s' s'' a attempts answer answers ih =>
    obtain ⟨ha, hattempts⟩ := List.forall_mem_cons.mp hnext
    rw [List.map_cons, applyStatements_next answer ha, ih hattempts, List.filterMap_cons]
    show Run.after _ a.event?.toList _ = _
    cases a.event? <;> rfl

theorem materialize_of_answers {s' : σ} {attempts : List Attempt} (h : store.Answers content attempts s')
    (hall : attempts.map Attempt.statement = (compile text).statements)
    (hnext : ∀ a ∈ attempts, fatalError? a.outcome = none) :
    (store.materialize content (.structured text)).fatal = none ∧
      (store.materialize content (.structured text)).content = s' ∧
      (store.materialize content (.structured text)).events =
        (compile text).skipped.map .skipped ++ attempts.filterMap Attempt.event? := by
  have hrun := applyStatements_of_answers h hnext
  rw [hall] at hrun
  unfold materialize
  dsimp only
  rw [hrun]
  exact ⟨rfl, rfl, rfl⟩

/-- The applied attempts alone are answered as before: between them the contents stay as they are. -/
theorem Answers.filter_isApplied (hstore : store.KeepsRejected) {s s' : σ} {attempts : List Attempt}
    (h : store.Answers s attempts s') (hnext : ∀ a ∈ attempts, fatalError? a.outcome = none) :
    store.Answers s (attempts.filter Attempt.isApplied) s' := by
  induction h with
  | nil s => exact .nil s
  | @cons s s' s'' a attempts answer answers ih =>
    obtain ⟨ha, hattempts⟩ := List.forall_mem_cons.mp hnext
    by_cases happlied : a.isApplied = true
    · rw [List.filter_cons_of_pos happlied]
      exact .cons answer (ih hattempts)
    · rw [List.filter_cons_of_neg happlied]
      obtain ⟨message, houtcome⟩ := Attempt.rejected_of_not_isApplied happlied ha
      rw [houtcome] at answer
      obtain rfl := hstore s _ message s' answer
      exact ih hattempts

theorem filterMap_event?_of_isApplied {attempts : List Attempt} (h : ∀ a ∈ attempts, a.isApplied = true) :
    attempts.filterMap Attempt.event? = (attempts.map Attempt.statement).map fun st => .tableApplied st.table := by
  induction attempts with
  | nil => rfl
  | cons a attempts ih =>
    obtain ⟨ha, hattempts⟩ := List.forall_mem_cons.mp h
    rw [List.filterMap_cons_some (Attempt.event?_of_isApplied ha), ih hattempts, List.map_cons, List.map_cons]

/-- The statements that a run reports as applied, executed alone and in the same order, succeed each and lead to the
    contents of the whole run. -/
theorem materialize_isolated (hstore : store.KeepsRejected)
    (hok : (store.materialize content (.structured text)).fatal = none) :
    ∃ attempts, store.Completed content text attempts ∧
      let applied := (attempts.filter Attempt.isApplied).map Attempt.statement
      let alone := store.applyStatements content applied
      alone.events = applied.map (fun st => .tableApplied st.table) ∧ alone.fatal = none ∧
        alone.content = (store.materialize content (.structured text)).content := by
  obtain ⟨attempts, h⟩ := completed_of_fatal_eq_none hok
  refine ⟨attempts, h, ?_⟩
  have hanswers := h.answers.filter_isApplied hstore h.next
  have happlied : ∀ a ∈ attempts.filter Attempt.isApplied, a.isApplied = true := fun a ha => (List.mem_filter.mp ha).2
  have hnext : ∀ a ∈ attempts.filter Attempt.isApplied, fatalError? a.outcome = none := fun a ha =>
    h.next a (List.mem_filter.mp ha).1
  dsimp only
  rw [applyStatements_of_answers hanswers hnext]
  exact ⟨filterMap_event?_of_isApplied happlied, rfl, rfl⟩

end Store

/-- A database stays as it is when it rejects a statement. -/
theorem Sql.Database.store_keepsRejected (backend : Text) : (store backend).KeepsRejected :=
  fun _ _ _ _ h => eq_of_executeStatement_error h

/-- The second of three tables has a name that is no name in SQL, and the third refers to the first. -/
def reservedTable : Text :=
  "Table alpha { id int }\nTable order { id int }\nTable gamma { a int [ref: > alpha.id] }".toList

theorem materialize_isolated_reservedTable :
    let store := Sql.Database.store Sql.Database.inMemory
    let run := store.materialize Sql.Database.empty (.structured reservedTable)
    run.events.map Event.isApplied = [true, false, true] ∧
      ∃ attempts, store.Completed Sql.Database.empty reservedTable attempts ∧
        let applied := (attempts.filter Attempt.isApplied).map Attempt.statement
        let alone := store.applyStatements Sql.Database.empty applied
        alone.events = applied.map (fun st => .tableApplied st.table) ∧ alone.fatal = none ∧
          alone.content = run.content :=
  ⟨by decide +kernel, Store.materialize_isolated (Sql.Database.store_keepsRejected _) (by decide +kernel)⟩

end Schemata
