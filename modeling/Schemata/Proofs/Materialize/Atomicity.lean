import Schemata.Proofs.Materialize.Trace
import Schemata.Proofs.Sql.Transactions

/-! A script in a transaction is all or nothing. If it is reported as applied, its statements have been executed one
    after the other, all with success, and committed. If it fails, the store is as it was, as long as no statement of it
    ends the transaction: a `COMMIT` in the script keeps what stands in front of it. -/

namespace Schemata

/-- What a script comes to. -/
theorem scriptEvent?_cases (script : Text) (outcome : Except StoreError Unit) :
    (outcome = .ok () ∧ scriptEvent? script outcome = some (.scriptApplied (countStatements script)) ∧
        fatalError? outcome = none) ∨
      ∃ e, outcome = .error e ∧ ∀ n, .scriptApplied n ∉ (scriptEvent? script outcome).toList := by
  rcases outcome with e | u
  · exact .inr ⟨e, rfl, fun n => by cases e <;> simp [scriptEvent?]⟩
  · exact .inl ⟨rfl, rfl, rfl⟩

namespace Sqlite.Connection
variable {δ τ ι : Type} {c : Connection δ τ ι} {s s' : δ} {script : Text}

/-- A script that is committed has been executed statement by statement. -/
theorem executes_of_executeScript (h : c.executeScript s script = (.ok (), s')) :
    ∃ t t' t'', c.transaction s = .ok t ∧ c.Executes t (c.statements script) t' ∧ c.commit t' = (.ok (), t'') ∧
      s' = c.drop t'' := by
  obtain ⟨t, t', t'', hdrop, hcommits⟩ := commits_of_write h
  exact ⟨t, t', t'', hcommits.begins, executes_of_executeAll hcommits.runs, hcommits.commits, hdrop⟩

/-- A script takes effect as a whole, statement by statement, or, if none of its statements ends the transaction, not
    at all. -/
theorem materialize_script_atomic {isOpen : τ → Prop} {undone : ι → Prop} (h : c.RollsBack isOpen undone)
    (backend : Text) (s : δ) (script : Text) :
    let run := (c.store backend).materialize s (.script script)
    (∀ n, .scriptApplied n ∈ run.events →
      ∃ t t' t'', c.transaction s = .ok t ∧ c.Executes t (c.statements script) t' ∧ c.commit t' = (.ok (), t'') ∧
        run.content = c.drop t'') ∧
      ((∀ st ∈ c.statements script, undone st) →
        (∃ message, .scriptFailed message ∈ run.events) ∨ run.fatal.isSome = true →
          run.content = s ∧ (c.store backend).tableNames run.content = (c.store backend).tableNames s ∧
            ∀ table, (c.store backend).foreignKeys run.content table = (c.store backend).foreignKeys s table) := by
  intro run
  obtain ⟨hevents, hfatal, hcontent, -⟩ := (c.store backend).applyScript_eq s script
  change run.events = (scriptEvent? script (c.executeScript s script).1).toList at hevents
  change run.fatal = fatalError? (c.executeScript s script).1 at hfatal
  change run.content = (c.executeScript s script).2 at hcontent
  rcases hanswer : c.executeScript s script with ⟨outcome, s'⟩
  rw [hanswer] at hevents hfatal hcontent
  dsimp only at hevents hfatal hcontent
  rcases scriptEvent?_cases script outcome with ⟨rfl, hevent, hnext⟩ | ⟨e, rfl, hnone⟩
  · rw [hevent] at hevents
    refine ⟨fun n _ => hcontent ▸ executes_of_executeScript hanswer, fun _ hfails => ?_⟩
    rcases hfails with ⟨message, hmessage⟩ | hsome
    · rw [hevents] at hmessage
      cases List.mem_singleton.mp hmessage
    · rw [hfatal, hnext] at hsome
      cases hsome
  · refine ⟨fun n hn => absurd (hevents ▸ hn) (hnone n), fun hundone _ => ?_⟩
    obtain ⟨e', -, hfails⟩ := fails_of_write hanswer
    rw [hcontent, h.eq_of_fails hundone hfails]
    exact ⟨rfl, rfl, fun _ => rfl⟩

end Sqlite.Connection

namespace Sql.Database

/-- The third statement makes a table that the first one has made. -/
def failingScript : Text :=
  "CREATE TABLE a(x INT); CREATE TABLE b(y INT);; CREATE TABLE A(z INT); CREATE TABLE c(w INT)".toList

theorem materialize_script_atomic_failingScript :
    let run := (store inMemory).materialize empty (.script failingScript)
    let message := "table A already exists in ; CREATE TABLE A(z INT); CREATE TABLE c(w INT) at offset 15".toList
    run.events = [.scriptFailed message] ∧ run.content = empty ∧
      (store inMemory).tableNames run.content = (store inMemory).tableNames empty ∧
      ∀ table, (store inMemory).foreignKeys run.content table = (store inMemory).foreignKeys empty table := by
  intro run message
  have hevents : run.events = [.scriptFailed message] := by decide +kernel
  have hplain : ∀ p ∈ connection.statements failingScript, p.control? = none := by decide +kernel
  obtain ⟨-, h⟩ := Sqlite.Connection.materialize_script_atomic connection_rollsBack inMemory empty failingScript
  exact ⟨hevents, h hplain (.inl ⟨message, hevents ▸ List.mem_cons_self⟩)⟩

/-- The script commits the transaction itself, so that it cannot be committed any more. -/
def committingScript : Text := "CREATE TABLE a(id INT); COMMIT".toList

/-- The script is reported as failed, and its table is there. -/
theorem materialize_committingScript :
    let run := (store inMemory).materialize empty (.script committingScript)
    run.events = [.scriptFailed "cannot commit - no transaction is active".toList] ∧
      ((store inMemory).tableNames empty).toOption = some [] ∧
      ((store inMemory).tableNames run.content).toOption = some ["a".toList] := by
  decide +kernel

end Sql.Database
end Schemata
