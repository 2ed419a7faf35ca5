import Schemata.Proofs.Store.Rollback
import Schemata.Sql.Store

/-! Transactions on a database. A statement that neither begins nor ends a transaction leaves it open, with the same
    database to go back to. A statement that is rejected leaves the database as it was, whatever it is. -/

namespace Schemata.Sql

namespace Transaction
variable {t next : Transaction} {p : Segment} {e : SqlError}

theorem execute_ok (h : t.run p = .ok next) : t.execute p = (.ok (), next) := by
  rw [execute, h]

theorem execute_error (h : t.run p = .error e) : t.execute p = (.error (e.report p.text p.base), t) := by
  rw [execute, h]

theorem run_of_execute (h : t.execute p = (.ok (), next)) : t.run p = .ok next := by
  cases hrun : t.run p with
  | error e => cases (execute_error hrun).symm.trans h
  | ok next' =>
    cases (execute_ok hrun).symm.trans h
    rfl

theorem eq_of_execute_error {e : Sqlite.Error} (h : t.execute p = (.error e, next)) : next = t := by
  cases hrun : t.run p with
  | error e =>
    cases (execute_error hrun).symm.trans h
    rfl
  | ok next' => cases (execute_ok hrun).symm.trans h

theorem run_plain (hp : p.control? = none) :
    t.run p = (t.database.execute p.tokens).map fun db => { t with database := db } := by
  rw [run, hp]

theorem base_of_run (h : t.run p = .ok next) (hp : p.control? = none) : next.base = t.base := by
  rw [run_plain hp] at h
  cases hdb : t.database.execute p.tokens <;> rw [hdb] at h <;> cases h
  rfl

/-- The first statement of a transaction leaves it open, or ends it with the database as it was. -/
theorem base_or_end_of_run {db : Database} (h : run ⟨db, some db⟩ p = .ok next) :
    next.base = some db ∨ next = ⟨db, none⟩ := by
  cases hp : p.control? with
  | none => exact .inl (base_of_run h hp)
  | some c =>
    rw [run, hp] at h
    dsimp only at h
    cases hcheck : c.check p.body.tail with
    | error e =>
      rw [hcheck] at h
      cases h
    | ok u =>
      rw [hcheck] at h
      cases c <;> cases h <;> exact .inr rfl

end Transaction

namespace Database
variable {db db' next : Database} {sql : Text} {e : SqlError}

/-- A transaction that is dropped uncommitted is rolled back. -/
theorem connection_rollsBack : connection.RollsBack (fun t => t.base.isSome = true) (fun p => p.control? = none) where
  begun h := by
    cases h
    exact ⟨rfl, rfl⟩
  executed {t t' p} ht hp h := by
    have hbase := Transaction.base_of_run (Transaction.run_of_execute h) hp
    obtain ⟨base, hsome⟩ := Option.isSome_iff_exists.mp ht
    refine ⟨hbase ▸ ht, ?_⟩
    change t'.base.getD _ = t.base.getD _
    rw [hbase, hsome]
    rfl
  failed _ _ h := congrArg connection.drop (Transaction.eq_of_execute_error h)
  uncommitted {t t' e} ht h := by
    obtain ⟨base, hsome⟩ := Option.isSome_iff_exists.mp ht
    simp only [connection, Transaction.commit, hsome] at h
    cases h

/-! ### Single statements -/

theorem executeStatement_ok (hp : (Segment.first sql).control? = none) (h : db.execute (tokens sql) = .ok next) :
    connection.executeStatement db sql = (.ok (), next) := by
  have hrun : Transaction.run ⟨db, some db⟩ (.first sql) = .ok ⟨next, some db⟩ := by
    rw [Transaction.run_plain hp]
    exact congrArg (Except.map _) h
  have hcommits : connection.Commits (connection.execute · (.first sql)) db ⟨db, some db⟩ ⟨next, some db⟩
      ⟨next, none⟩ := ⟨rfl, Transaction.execute_ok hrun, rfl⟩
  exact hcommits.write

theorem executeStatement_error (hp : (Segment.first sql).control? = none) (h : db.execute (tokens sql) = .error e) :
    connection.executeStatement db sql = (.error (e.report sql 0).classify, db) := by
  have hrun : Transaction.run ⟨db, some db⟩ (.first sql) = .error e := by
    rw [Transaction.run_plain hp]
    exact congrArg (Except.map _) h
  have hfails : connection.Fails (connection.execute · (.first sql)) db (e.report sql 0)
      (connection.drop ⟨db, some db⟩) := .run rfl (Transaction.execute_error hrun)
  exact hfails.write

/-- A rejected statement leaves the database as it was. -/
theorem eq_of_executeStatement_error {e : StoreError} (h : connection.executeStatement db sql = (.error e, db')) :
    db' = db := by
  obtain ⟨e', -, hfails⟩ := Sqlite.Connection.fails_of_write h
  cases hfails with
  | begun begins => rfl
  | run begins runs =>
    cases begins
    rw [Transaction.eq_of_execute_error runs]
    rfl
  | committed begins runs commits =>
    cases begins
    rcases Transaction.base_or_end_of_run (Transaction.run_of_execute runs) with hopen | rfl
    · simp only [connection, Transaction.commit, hopen] at commits
      cases commits
    · -- The statement has ended the transaction itself, so nothing is taken back.
      cases commits
      rfl

end Database
end Schemata.Sql
