import Schemata.Store.Sqlite

/-! What a write on a connection comes to. It is taken back when its transaction does not begin, when it fails itself,
    or when it cannot be committed; in all other cases it is kept. Proofs about writes cite this and do not look into
    their transactions again. -/

namespace Schemata.Sqlite

namespace Connection
variable {δ τ ι : Type} {c : Connection δ τ ι} {run : τ → Except Error Unit × τ} {s s' : δ}

/-- A write that fails with an error, and what is left of it. -/
inductive Fails (c : Connection δ τ ι) (run : τ → Except Error Unit × τ) (s : δ) : Error → δ → Prop
  | begun {e : Error} (begins : c.transaction s = .error e) : Fails c run s e s
  | run {t t' : τ} {e : Error} (begins : c.transaction s = .ok t) (runs : run t = (.error e, t')) :
    Fails c run s e (c.drop t')
  | committed {t t' t'' : τ} {e : Error} (begins : c.transaction s = .ok t) (runs : run t = (.ok (), t'))
    (commits : c.commit t' = (.error e, t'')) : Fails c run s e (c.drop t'')

/-- A write that is committed, and what is left behind it. -/
structure Commits (c : Connection δ τ ι) (run : τ → Except Error Unit × τ) (s : δ) (t t' t'' : τ) : Prop where
  begins : c.transaction s = .ok t
  runs : run t = (.ok (), t')
  commits : c.commit t' = (.ok (), t'')

theorem Fails.write {e : Error} (h : c.Fails run s e s') : c.write run s = (.error e.classify, s') := by
  cases h with
  | begun begins => rw [Connection.write, begins]
  | run begins runs => simp only [Connection.write, begins, runs]
  | committed begins runs commits => simp only [Connection.write, begins, runs, commits]

theorem Commits.write {t t' t'' : τ} (h : c.Commits run s t t' t'') : c.write run s = (.ok (), c.drop t'') := by
  simp only [Connection.write, h.begins, h.runs, h.commits]

theorem fails_or_commits (c : Connection δ τ ι) (run : τ → Except Error Unit × τ) (s : δ) :
    (∃ e s', c.Fails run s e s') ∨ ∃ t t' t'', c.Commits run s t t' t'' := by
  cases hbegins : c.transaction s with
  | error e => exact .inl ⟨e, s, .begun hbegins⟩
  | ok t =>
    rcases hruns : run t with ⟨e | u, t'⟩
    · exact .inl ⟨e, _, .run hbegins hruns⟩
    · rcases hcommits : c.commit t' with ⟨e | u, t''⟩
      · exact .inl ⟨e, _, .committed hbegins hruns hcommits⟩
      · exact .inr ⟨t, t', t'', hbegins, hruns, hcommits⟩

theorem fails_of_write {e : StoreError} (h : c.write run s = (.error e, s')) :
    ∃ e', e = e'.classify ∧ c.Fails run s e' s' := by
  rcases c.fails_or_commits run s with ⟨e', s'', hfails⟩ | ⟨t, t', t'', hcommits⟩
  · cases hfails.write.symm.trans h
    exact ⟨e', rfl, hfails⟩
  · cases hcommits.write.symm.trans h

theorem commits_of_write (h : c.write run s = (.ok (), s')) :
    ∃ t t' t'', s' = c.drop t'' ∧ c.Commits run s t t' t'' := by
  rcases c.fails_or_commits run s with ⟨e', s'', hfails⟩ | ⟨t, t', t'', hcommits⟩
  · cases hfails.write.symm.trans h
  · cases hcommits.write.symm.trans h
    exact ⟨t, t', t'', rfl, hcommits⟩

end Connection
end Schemata.Sqlite
