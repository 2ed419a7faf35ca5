import Mathlib.Data.List.Forall2
import Schemata.Proofs.Sql.Tables

/-! A schema text can be applied again. Each of its statements creates a table if it is absent, so a run only adds
    tables to those that are there, and at its end each statement is answered with the store as it is. The events of the
    second run are those of the first one, with a success wherever the first run had one. -/

namespace Schemata

/-! ### Attempts that are repeated -/

namespace Attempt

/-- An attempt on the same statement that is not fatal, and that succeeds if the first one did. -/
structure Repeats (a a' : Attempt) : Prop where
  statement : a'.statement = a.statement
  next : fatalError? a'.outcome = none
  applied : a.outcome = .ok () → a'.outcome = .ok ()

theorem Repeats.event {a a' : Attempt} (h : a.Repeats a') {event event' : Event} (hevent : a.event? = some event)
    (hevent' : a'.event? = some event') (happlied : event.isApplied = true) : event' = event := by
  have hok := outcome_of_isApplied hevent happlied
  rw [event?, hok] at hevent
  rw [event?, h.applied hok, h.statement] at hevent'
  exact Option.some.inj (hevent'.symm.trans hevent)

end Attempt

namespace Store
variable {σ : Type} {store : Store σ} {tables? : σ → Option (List StoredTable)} {s s' : σ} {attempts : List Attempt}

/-- Each store that holds what a run has left answers the run's statements again without a change. -/
theorem Answers.repeated (hstore : store.CreatesIfAbsent tables?) (h : store.Answers s attempts s')
    (hcreates : ∀ a ∈ attempts, a.statement.Creates) (hnext : ∀ a ∈ attempts, fatalError? a.outcome = none) :
    ∀ later, Extends tables? s' later →
      ∃ attempts', store.Answers later attempts' later ∧ List.Forall₂ Attempt.Repeats attempts attempts' := by
  induction h with
  | nil s => exact fun later _ => ⟨[], .nil later, .nil⟩
  | @cons s s' s'' a attempts answer answers ih =>
    obtain ⟨hacreates, hcreates⟩ := List.forall_mem_cons.mp hcreates
    obtain ⟨hanext, hnext⟩ := List.forall_mem_cons.mp hnext
    intro later hlater
    have hbehind := (answers.extended hstore hcreates hnext).trans hlater
    obtain ⟨outcome', hanswer, hnext', hok⟩ := hstore.answer_again hacreates answer hanext hbehind
    obtain ⟨attempts', hanswers, hrepeats⟩ := ih hcreates hnext later hlater
    exact ⟨⟨a.statement, outcome'⟩ :: attempts', .cons hanswer hanswers, .cons ⟨rfl, hnext', hok⟩ hrepeats⟩

/-- The events of attempts that are not fatal: those of repeated ones agree on each applied table. -/
theorem forall₂_events {attempts attempts' : List Attempt} (h : List.Forall₂ Attempt.Repeats attempts attempts')
    (hnext : ∀ a ∈ attempts, fatalError? a.outcome = none) :
    List.Forall₂ (fun event event' => event.isApplied = true → event' = event) (attempts.filterMap Attempt.event?)
      (attempts'.filterMap Attempt.event?) := by
  induction h with
  | nil => exact .nil
  | @cons a a' attempts attempts' hrepeat _ ih =>
    obtain ⟨ha, hnext⟩ := List.forall_mem_cons.mp hnext
    obtain ⟨event, hevent⟩ := Attempt.exists_event ha
    obtain ⟨event', hevent'⟩ := Attempt.exists_event hrepeat.next
    rw [List.filterMap_cons_some hevent, List.filterMap_cons_some hevent']
    exact .cons (hrepeat.event hevent hevent') (ih hnext)

theorem map_statement {attempts attempts' : List Attempt} (h : List.Forall₂ Attempt.Repeats attempts attempts') :
    attempts'.map Attempt.statement = attempts.map Attempt.statement := by
  induction h with
  | nil => rfl
  | cons hrepeat _ ih => rw [List.map_cons, List.map_cons, hrepeat.statement, ih]

theorem next_of_repeats {attempts attempts' : List Attempt} (h : List.Forall₂ Attempt.Repeats attempts attempts') :
    ∀ a ∈ attempts', fatalError? a.outcome = none := by
  induction h with
  | nil => exact List.forall_mem_nil _
  | cons hrepeat _ ih => exact List.forall_mem_cons.mpr ⟨hrepeat.next, ih⟩

variable {content : σ} {text : Text}

/-- Applying a schema text only adds tables. Applying it again ends well too, leaves the store as it is, and reports
    each table as applied again that was reported as applied. -/
theorem materialize_idempotent (hstore : store.CreatesIfAbsent tables?)
    (hok : (store.materialize content (.structured text)).fatal = none) :
    let run := store.materialize content (.structured text)
    let again := store.materialize run.content (.structured text)
    (∀ tables, tables? content = some tables → ∃ after, tables? run.content = some after ∧ tables.Subperm after) ∧
      again.fatal = none ∧ again.content = run.content ∧
      List.Forall₂ (fun event event' => event.isApplied = true → event' = event) run.events again.events := by
  intro run again
  obtain ⟨attempts, h⟩ := completed_of_fatal_eq_none hok
  have hextends := h.answers.extended hstore h.creates h.next
  obtain ⟨attempts', hanswers, hrepeats⟩ := h.answers.repeated hstore h.creates h.next run.content (.refl _)
  obtain ⟨hfatal, hcontent, hevents⟩ := materialize_of_answers hanswers
    ((map_statement hrepeats).trans h.statements) (next_of_repeats hrepeats)
  refine ⟨fun _ htables => hextends.tables htables, hfatal, hcontent, ?_⟩
  have hskips : ∀ skips : List Skip, List.Forall₂ (fun event event' => event.isApplied = true → event' = event)
      (skips.map Event.skipped) (skips.map Event.skipped) := fun skips =>
    List.forall₂_same.mpr fun event _ _ => rfl
  rw [h.events, hevents]
  exact List.rel_append (hskips _) (forall₂_events hrepeats h.next)

end Store

namespace Sql.Database

/-- Two blocks of a table that exists with other columns, two of a new one, one that is rejected for its name, and one
    for its columns. -/
def repeatedTables : Text :=
  "Table users { id int }\nTable USERS { id int }\nTable a { x int }\nTable order { id int }\nTable A { y int }
Table b { z int [ref: > a.x] z int }".toList

def usersOnly : Database := ⟨true, [⟨"Users".toList, ["key".toList], []⟩]⟩

theorem materialize_idempotent_repeatedTables :
    let run := (store inMemory).materialize usersOnly (.structured repeatedTables)
    let again := (store inMemory).materialize run.content (.structured repeatedTables)
    run.fatal = none ∧ run.events.map Event.isApplied = [true, true, true, false, true, false] ∧
      (∀ tables, kept? usersOnly = some tables → ∃ after, kept? run.content = some after ∧ tables.Subperm after) ∧
      again.fatal = none ∧ again.content = run.content ∧
      List.Forall₂ (fun event event' => event.isApplied = true → event' = event) run.events again.events :=
  ⟨by decide +kernel, by decide +kernel,
    Store.materialize_idempotent (store_createsIfAbsent inMemory) (by decide +kernel)⟩

end Sql.Database
end Schemata
