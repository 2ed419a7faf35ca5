import Schemata.Proofs.Store.Writes

/-! Scripts in a transaction. Statements that a rollback undoes leave open what the transaction goes back to, however
    many of them are executed and whichever fails, so a script that is not committed leaves nothing. -/

namespace Schemata.Sqlite.Connection
variable {δ τ ι : Type} {c : Connection δ τ ι} {t t' : τ} {sts : List ι}

/-! ### Statements in order -/

/-- The statements succeed one after the other and lead from the one state to the other. -/
inductive Executes (c : Connection δ τ ι) : τ → List ι → τ → Prop
  | nil (t : τ) : Executes c t [] t
  | cons {t t' t'' : τ} {st : ι} {sts : List ι} (executes : c.execute t st = (.ok (), t'))
    (rest : Executes c t' sts t'') : Executes c t (st :: sts) t''

theorem executeAll_cons_ok {st : ι} (h : c.execute t st = (.ok (), t')) (sts : List ι) :
    c.executeAll t (st :: sts) = c.executeAll t' sts := by
  rw [executeAll, h]

theorem executeAll_cons_error {st : ι} {e : Error} (h : c.execute t st = (.error e, t')) (sts : List ι) :
    c.executeAll t (st :: sts) = (.error e, t') := by
  rw [executeAll, h]

theorem executes_of_executeAll (h : c.executeAll t sts = (.ok (), t')) : c.Executes t sts t' := by
  induction sts generalizing t with
  | nil =>
    cases h
    exact .nil _
  | cons st sts ih =>
    rcases hst : c.execute t st with ⟨e | u, next⟩
    · cases (executeAll_cons_error hst sts).symm.trans h
    · rw [executeAll_cons_ok hst] at h
      exact .cons hst (ih h)

/-! ### Transactions that are dropped -/

/-- What is relied on of a connection: a transaction that is dropped uncommitted is rolled back. That is said of the
    statements that a rollback undoes; a `COMMIT`, say, is none of them. -/
structure RollsBack (c : Connection δ τ ι) (isOpen : τ → Prop) (undone : ι → Prop) : Prop where
  begun : ∀ {s t}, c.transaction s = .ok t → isOpen t ∧ c.drop t = s
  executed : ∀ {t t' st}, isOpen t → undone st → c.execute t st = (.ok (), t') → isOpen t' ∧ c.drop t' = c.drop t
  failed : ∀ {t t' st e}, isOpen t → undone st → c.execute t st = (.error e, t') → c.drop t' = c.drop t
  uncommitted : ∀ {t t' e}, isOpen t → c.commit t = (.error e, t') → c.drop t' = c.drop t

namespace RollsBack
variable {isOpen : τ → Prop} {undone : ι → Prop} {s s' : δ} {e : Error}

/-- Behind statements that succeed, the transaction is open and goes back to the same. -/
theorem executes (h : c.RollsBack isOpen undone) (ht : isOpen t) (hsts : ∀ st ∈ sts, undone st)
    (hexecutes : c.Executes t sts t') : isOpen t' ∧ c.drop t' = c.drop t := by
  induction hexecutes with
  | nil t => exact ⟨ht, rfl⟩
  | cons executes _ ih =>
    obtain ⟨hst, hsts⟩ := List.forall_mem_cons.mp hsts
    obtain ⟨hnext, hdrop⟩ := h.executed ht hst executes
    obtain ⟨hlast, hrest⟩ := ih hnext hsts
    exact ⟨hlast, hrest.trans hdrop⟩

/-- Behind statements of which one fails, the transaction goes back to the same. -/
theorem drop_of_error (h : c.RollsBack isOpen undone) (ht : isOpen t) (hsts : ∀ st ∈ sts, undone st)
    (herror : c.executeAll t sts = (.error e, t')) : c.drop t' = c.drop t := by
  induction sts generalizing t with
  | nil => cases herror
  | cons st sts ih =>
    obtain ⟨hst, hsts⟩ := List.forall_mem_cons.mp hsts
    rcases hexecute : c.execute t st with ⟨e' | u, next⟩
    · cases (executeAll_cons_error hexecute sts).symm.trans herror
      exact h.failed ht hst hexecute
    · rw [executeAll_cons_ok hexecute] at herror
      obtain ⟨hnext, hdrop⟩ := h.executed ht hst hexecute
      exact (ih hnext hsts herror).trans hdrop

/-- A script that fails leaves nothing. -/
theorem eq_of_fails (h : c.RollsBack isOpen undone) (hsts : ∀ st ∈ sts, undone st)
    (hfails : c.Fails (c.executeAll · sts) s e s') : s' = s := by
  cases hfails with
  | begun begins => rfl
  | run begins runs =>
    obtain ⟨hopen, hdrop⟩ := h.begun begins
    exact (h.drop_of_error hopen hsts runs).trans hdrop
  | committed begins runs commits =>
    obtain ⟨hopen, hdrop⟩ := h.begun begins
    obtain ⟨hlast, hkept⟩ := h.executes hopen hsts (executes_of_executeAll runs)
    exact ((h.uncommitted hlast commits).trans hkept).trans hdrop

end RollsBack
end Schemata.Sqlite.Connection
