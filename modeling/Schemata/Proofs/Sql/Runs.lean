import Schemata.Proofs.Sql.Moves

/-! What a run over the tokens of a statement keeps, from what one step keeps. Parts take effect on the draft of a table
    one by one; once the table's name has, neither the tables of the database nor whether it can be read matter any
    more. -/

namespace Schemata.Sql

/-! ### Parts that take effect -/

/-- Whether an error is a rejected statement and no lost connection. -/
def SqlError.isRejection : SqlError → Bool
  | notADatabase | unreadableSchema _ => false
  | _ => true

namespace Part

def isName : Part → Bool
  | .name _ _ => true
  | _ => false

def isOption : Part → Bool
  | .option _ => true
  | _ => false

/-- The foreign keys that a part adds to a table. -/
def Adds (t : Table) : Option Part → List TableKey → Prop
  | some (.foreignKey k), keys => ∃ key, Draft.key t k = .ok key ∧ keys = [key]
  | _, keys => keys = []

/-- What a part makes of a table, if there is one. -/
structure Grows (part : Option Part) (t t' : Table) : Prop where
  name : t'.name = t.name
  columns : t'.columns = t.columns ++ part.elim [] Part.columns
  new : ∀ c ∈ part.elim [] Part.columns, t.column? c = none
  keys : ∃ keys, Adds t part keys ∧ t'.keys = t.keys ++ keys

/-- A part without columns and keys leaves a table as it is. -/
theorem Grows.refl {part : Option Part} {t : Table} (hcolumns : part.elim [] Part.columns = [])
    (hkeys : Adds t part []) : Grows part t t where
  name := rfl
  columns := by rw [hcolumns, List.append_nil]
  new := by simp [hcolumns]
  keys := ⟨[], hkeys, (List.append_nil _).symm⟩

end Part

namespace Draft
variable {db : Database} {part : Part} {e : SqlError}

/-- Only the table's name is looked up in the database. -/
theorem apply_congr (hpart : part.isName = false) (db db' : Database) (d : Draft) :
    d.apply db part = d.apply db' part := by
  cases part with
  | name token lenient => cases hpart
  | _ => rfl

theorem isRejection_of_pairColumns {t : Table} {columns : List Text} {remotes : List (Option Text)}
    (h : pairColumns t columns remotes = .error e) : e.isRejection = true := by
  induction columns generalizing remotes with
  | nil => cases remotes <;> cases h
  | cons column columns ih =>
    cases remotes with
    | nil => cases h
    | cons remote remotes =>
      rw [pairColumns] at h
      split at h
      · cases hrest : pairColumns t columns remotes <;> rw [hrest] at h <;> cases h
        exact ih hrest
      · cases h
        rfl

theorem isRejection_of_key {t : Table} {k : KeyDraft} (h : key t k = .error e) : e.isRejection = true := by
  unfold key at h
  split at h
  · dsimp only at h
    split at h <;> cases h
    rfl
  · dsimp only at h
    split at h
    · cases h
      rfl
    · rename_i columns _ _
      generalize (if k.remote.isEmpty then columns.map fun _ => none else k.remote.map some) = remotes at h
      cases hpairs : pairColumns t columns remotes <;> rw [hpairs] at h <;> cases h
      exact isRejection_of_pairColumns hpairs

/-- What a part behind the name does to a new table. -/
theorem apply_fresh (db : Database) (t : Table) (integer hasKey : Bool) (hpart : part.isName = false) :
    (∃ e, (fresh t integer hasKey).apply db part = .error e ∧ e.isRejection = true) ∨
      ∃ t' integer' hasKey', (fresh t integer hasKey).apply db part = .ok (fresh t' integer' hasKey') ∧
        part.isOption = false ∧ Part.Grows (some part) t t' := by
  cases part with
  | name token lenient => cases hpart
  | option name => exact .inl ⟨_, rfl, rfl⟩
  | column name integer' =>
    unfold apply
    dsimp only
    cases hcolumn : t.column? name with
    | some declared => exact .inl ⟨_, rfl, rfl⟩
    | none =>
      exact .inr ⟨_, _, _, rfl, rfl, rfl, rfl, fun c hc => by rw [List.mem_singleton.mp hc, hcolumn], [], rfl,
        (List.append_nil _).symm⟩
  | primaryKey auto =>
    unfold apply
    dsimp only
    split
    · exact .inl ⟨_, rfl, rfl⟩
    · split
      · exact .inl ⟨_, rfl, rfl⟩
      · exact .inr ⟨_, _, _, rfl, rfl, .refl rfl rfl⟩
  | foreignKey k =>
    unfold apply
    dsimp only
    cases hkey : key t k with
    | error e => exact .inl ⟨_, rfl, isRejection_of_key hkey⟩
    | ok key => exact .inr ⟨_, _, _, rfl, rfl, rfl, (List.append_nil _).symm, nofun, [key], ⟨key, hkey, rfl⟩, rfl⟩
  | tableKey primary columns =>
    unfold apply
    dsimp only
    split
    · exact .inl ⟨_, rfl, rfl⟩
    · split
      · exact .inl ⟨_, rfl, rfl⟩
      · exact .inr ⟨_, _, _, rfl, rfl, .refl rfl rfl⟩

theorem apply_of_not_fresh (db : Database) {d : Draft} (hd : d = existing ∨ d = unnamed) (hpart : part.isName = false) :
    part.isOption = true ∧ (∃ e, d.apply db part = .error e ∧ e.isRejection = true) ∨
      part.isOption = false ∧ d.apply db part = .ok d := by
  rcases hd with rfl | rfl <;> cases part with
  | name token lenient => cases hpart
  | option name => exact .inl ⟨rfl, _, rfl, rfl⟩
  | _ => exact .inr ⟨rfl, rfl⟩

theorem isRejection_of_apply {d : Draft} (hpart : part.isName = false) (h : d.apply db part = .error e) :
    e.isRejection = true := by
  cases d with
  | fresh t integer hasKey =>
    rcases apply_fresh db t integer hasKey hpart with ⟨e', he', hreject⟩ | ⟨_, _, _, hok, -⟩
    · cases he'.symm.trans h
      exact hreject
    · cases hok.symm.trans h
  | existing =>
    rcases apply_of_not_fresh db (.inl rfl) hpart with ⟨-, e', he', hreject⟩ | ⟨-, hok⟩
    · cases he'.symm.trans h
      exact hreject
    · cases hok.symm.trans h
  | unnamed =>
    rcases apply_of_not_fresh db (.inr rfl) hpart with ⟨-, e', he', hreject⟩ | ⟨-, hok⟩
    · cases he'.symm.trans h
      exact hreject
    · cases hok.symm.trans h

end Draft

/-! ### The part that waits -/

namespace Place
variable {p : Place} {part : Part}

theorem isName_of_awaits (hp : p.isBeyondName = true) (h : p.Awaits (some part)) : part.isName = false := by
  cases p with
  | typed name words =>
    obtain ⟨integer, hpart⟩ := h
    cases hpart
    rfl
  | constraints => rcases h with h | ⟨name, h⟩ | ⟨auto, h⟩ <;> cases h <;> rfl
  | constraintEnd =>
    rcases h with h | ⟨primary, columns, h⟩ <;> cases h
    rfl
  | option =>
    obtain ⟨name, hpart⟩ := h
    cases hpart
    rfl
  | _ => cases hp <;> cases h <;> rfl

/-- No foreign key takes effect unless its target has been read. -/
theorem adds_of_awaits {part : Option Part} {t : Table} {keys : List TableKey} (hp : p.readsTarget = false)
    (h : p.Awaits part) (hadds : Part.Adds t part keys) : keys = [] := by
  cases part with
  | none => exact hadds
  | some part =>
    cases part with
    | foreignKey k =>
      cases p with
      | typed name words =>
        obtain ⟨integer, hpart⟩ := h
        cases hpart
      | constraints => rcases h with h | ⟨name, h⟩ | ⟨auto, h⟩ <;> cases h
      | constraintEnd => rcases h with h | ⟨primary, columns, h⟩ <;> cases h
      | option =>
        obtain ⟨name, hpart⟩ := h
        cases hpart
      | named =>
        obtain ⟨token, lenient, hpart⟩ := h
        cases hpart
      | _ => cases hp <;> cases h
    | _ => exact hadds

end Place

/-! ### One step -/

namespace Reading
variable {db db' : Database} {r next : Reading} {t : Token} {e : SqlError}

/-- The part that waits may wait at its place. -/
def Coherent (r : Reading) : Prop := r.place.Awaits r.part

theorem coherent_start : start.Coherent := rfl

/-- What a step does. -/
structure Steps (db : Database) (r : Reading) (t : Token) (next : Reading) (completes : Bool) : Prop where
  kind : t.kind ≠ .bad
  move : r.place.nextOf t = some ⟨next.place, next.part, completes⟩
  draft : if completes then r.complete db = .ok next.draft else next.draft = r.draft

theorem steps_of_step (h : r.step db t = .ok next) : ∃ completes, Steps db r t next completes := by
  unfold step at h
  split at h
  · cases h
  · rename_i hkind
    split at h
    · cases h
    · rename_i m hm
      refine ⟨m.completes, by simpa using hkind, ?_, ?_⟩
      · split at h
        · cases hdraft : r.complete db <;> rw [hdraft] at h <;> cases h
          exact hm
        · cases h
          exact hm
      · split at h
        · rename_i hcompletes
          cases hdraft : r.complete db <;> rw [hdraft] at h <;> cases h
          rw [if_pos hcompletes]
        · rename_i hcompletes
          cases h
          rw [if_neg hcompletes]

theorem Steps.sound {completes : Bool} (h : Steps db r t next completes) :
    r.place.Sound t ⟨next.place, next.part, completes⟩ := Place.sound_of_nextOf _ h.move

/-- Only a semicolon ends a statement: behind an option, what ends it is an error of the option. -/
theorem isSign_of_finished (hr : r.Coherent) (h : r.step db t = .ok next) (hnext : next.place = .finished) :
    t.isSign ";" = true := by
  obtain ⟨completes, hsteps⟩ := steps_of_step h
  rcases hsteps.sound.finished hnext with ht | hplace
  · exact ht
  · have hmove := hsteps.move
    rw [Coherent, hplace] at hr
    obtain ⟨name, hpart⟩ := hr
    rw [hplace, Place.nextOf] at hmove
    split at hmove
    · obtain ⟨-, -, rfl⟩ := Move.mk.inj (Option.some.inj hmove)
      have hdraft := hsteps.draft
      rw [if_pos rfl, complete, hpart] at hdraft
      cases hdraft
    · cases hmove

theorem run_cons (hr : r.Coherent) (ht : t.isSign ";" = false) (ts : List Token) :
    r.run db (t :: ts) = r.step db t >>= fun next => next.run db ts := by
  rw [run]
  cases hstep : r.step db t with
  | error e => rfl
  | ok next =>
    have hplace : (next.place == .finished) = false := beq_eq_false_iff_ne.mpr fun hnext => by
      rw [isSign_of_finished hr hstep hnext] at ht
      cases ht
    show (if (next.place == .finished) = true then _ else _) = next.run db ts
    rw [hplace, if_neg Bool.false_ne_true]

theorem exists_of_run_cons {ts : List Token} {ending : Ending} (hr : r.Coherent) (ht : t.isSign ";" = false)
    (h : r.run db (t :: ts) = .ok ending) : ∃ next, r.step db t = .ok next ∧ next.run db ts = .ok ending := by
  rw [run_cons hr ht] at h
  cases hstep : r.step db t with
  | error e =>
    rw [hstep] at h
    cases h
  | ok next =>
    rw [hstep] at h
    exact ⟨next, rfl, h⟩

/-! ### Behind the table's name -/

/-- A reading behind the table's name. -/
structure Beyond (r : Reading) : Prop where
  coherent : r.Coherent
  name : r.place.isBeyondName = true

theorem Beyond.step (hr : r.Beyond) (h : r.step db t = .ok next) : next.Beyond := by
  obtain ⟨completes, hsteps⟩ := steps_of_step h
  exact ⟨hsteps.sound.awaits, hsteps.sound.beyondName hr.name⟩

theorem Beyond.complete_congr (hr : r.Beyond) (db db' : Database) : r.complete db = r.complete db' := by
  unfold complete
  cases hpart : r.part with
  | none => rfl
  | some part => exact Draft.apply_congr (Place.isName_of_awaits hr.name (hpart ▸ hr.coherent)) db db' r.draft

theorem Beyond.isRejection_of_complete (hr : r.Beyond) (h : r.complete db = .error e) : e.isRejection = true := by
  unfold complete at h
  cases hpart : r.part with
  | none =>
    rw [hpart] at h
    cases h
  | some part =>
    rw [hpart] at h
    exact Draft.isRejection_of_apply (Place.isName_of_awaits hr.name (hpart ▸ hr.coherent)) h

theorem Beyond.step_congr (hr : r.Beyond) (db db' : Database) (t : Token) : r.step db t = r.step db' t := by
  rw [Reading.step, Reading.step, hr.complete_congr db db']

theorem Beyond.isRejection_of_step (hr : r.Beyond) (h : r.step db t = .error e) : e.isRejection = true := by
  unfold Reading.step at h
  split at h
  · cases h
    rfl
  · split at h
    · cases h
      rfl
    · split at h
      · cases hdraft : r.complete db <;> rw [hdraft] at h <;> cases h
        exact hr.isRejection_of_complete hdraft
      · cases h

/-- What the rest of a statement comes to does not depend on the database. -/
theorem Beyond.run_congr (hr : r.Beyond) (db db' : Database) (ts : List Token) : r.run db ts = r.run db' ts := by
  induction ts generalizing r with
  | nil => rw [run, run, hr.complete_congr db db']
  | cons t ts ih =>
    rw [run, run, hr.step_congr db db']
    cases hstep : r.step db' t with
    | error e => rfl
    | ok next =>
      dsimp only
      rw [ih (hr.step hstep)]

theorem Beyond.isRejection_of_run (hr : r.Beyond) {ts : List Token} (h : r.run db ts = .error e) :
    e.isRejection = true := by
  induction ts generalizing r with
  | nil =>
    rw [run] at h
    split at h
    · cases h
    · split at h
      · cases h
        rfl
      · cases hdraft : r.complete db <;> rw [hdraft] at h <;> cases h
        exact hr.isRejection_of_complete hdraft
  | cons t ts ih =>
    rw [run] at h
    cases hstep : r.step db t with
    | error e' =>
      rw [hstep] at h
      cases h
      exact hr.isRejection_of_step hstep
    | ok next =>
      rw [hstep] at h
      dsimp only at h
      split at h
      · cases h
      · exact ih (hr.step hstep) h

/-- The same reading of a statement whose table exists. -/
def onExisting (r : Reading) : Reading := ⟨r.place, r.part, .existing⟩

theorem Beyond.onExisting (hr : r.Beyond) : r.onExisting.Beyond := ⟨hr.coherent, hr.name⟩

/-- What taking effect makes of a new table; the same part leaves an existing table as it is. -/
theorem Beyond.complete_fresh (hr : r.Beyond) {table : Table} {integer hasKey : Bool}
    (hdraft : r.draft = .fresh table integer hasKey) {d : Draft} (h : r.complete db = .ok d) :
    (∃ table' integer' hasKey', d = .fresh table' integer' hasKey' ∧ Part.Grows r.part table table') ∧
      r.onExisting.complete db = .ok .existing := by
  obtain ⟨p, part, draft⟩ := r
  cases hdraft
  cases part with
  | none =>
    cases h
    exact ⟨⟨_, _, _, rfl, .refl rfl rfl⟩, rfl⟩
  | some part =>
    have hpart := Place.isName_of_awaits hr.name hr.coherent
    change (Draft.fresh table integer hasKey).apply db part = .ok d at h
    rcases Draft.apply_fresh db table integer hasKey hpart with
      ⟨e, he, -⟩ | ⟨table', integer', hasKey', hok, hoption, hgrows⟩
    · cases he.symm.trans h
    · cases hok.symm.trans h
      refine ⟨⟨_, _, _, rfl, hgrows⟩, ?_⟩
      rcases Draft.apply_of_not_fresh db (.inl rfl) hpart with ⟨hoption', -⟩ | ⟨-, hexisting⟩
      · cases hoption.symm.trans hoption'
      · exact hexisting

theorem Beyond.step_fresh (hr : r.Beyond) {table : Table} {integer hasKey : Bool}
    (hdraft : r.draft = .fresh table integer hasKey) (h : r.step db t = .ok next) :
    (∃ table' integer' hasKey', next.draft = .fresh table' integer' hasKey' ∧ table'.name = table.name) ∧
      r.onExisting.step db t = .ok next.onExisting := by
  obtain ⟨completes, hsteps⟩ := steps_of_step h
  have hmove : r.onExisting.place.nextOf t = _ := hsteps.move
  have hkind : (t.kind == .bad) = false := beq_eq_false_iff_ne.mpr hsteps.kind
  cases completes with
  | true =>
    obtain ⟨⟨table', integer', hasKey', hnext, hgrows⟩, hexisting⟩ := hr.complete_fresh hdraft hsteps.draft
    refine ⟨⟨table', integer', hasKey', hnext, hgrows.name⟩, ?_⟩
    rw [Reading.step, hkind, if_neg Bool.false_ne_true, hmove]
    dsimp only
    rw [if_pos rfl, hexisting]
    rfl
  | false =>
    refine ⟨⟨table, integer, hasKey, hsteps.draft.trans hdraft, rfl⟩, ?_⟩
    rw [Reading.step, hkind, if_neg Bool.false_ne_true, hmove]
    rfl

/-- A statement that makes a table keeps the table's name, and on an existing table it changes nothing. -/
theorem Beyond.run_fresh (hr : r.Beyond) {table : Table} {integer hasKey : Bool}
    (hdraft : r.draft = .fresh table integer hasKey) {ts : List Token} {ending : Ending}
    (h : r.run db ts = .ok ending) :
    (∃ table' integer' hasKey', ending.draft = .fresh table' integer' hasKey' ∧ table'.name = table.name) ∧
      r.onExisting.run db ts = .ok { ending with draft := .existing } := by
  induction ts generalizing r table integer hasKey with
  | nil =>
    have hplace : (r.place == .statement) = false := beq_eq_false_iff_ne.mpr fun hp => by
      have hname := hr.name
      rw [hp] at hname
      cases hname
    rw [run, hplace, if_neg Bool.false_ne_true] at h
    split at h
    · cases h
    · rename_i m hm
      cases hcomplete : r.complete db with
      | error e =>
        rw [hcomplete] at h
        cases h
      | ok d =>
        rw [hcomplete] at h
        cases h
        obtain ⟨⟨table', integer', hasKey', hd, hgrows⟩, hexisting⟩ := hr.complete_fresh hdraft hcomplete
        have hm' : r.onExisting.place.nextOf endToken = some m := hm
        refine ⟨⟨table', integer', hasKey', hd, hgrows.name⟩, ?_⟩
        rw [run, show (r.onExisting.place == .statement) = false from hplace, if_neg Bool.false_ne_true, hm']
        dsimp only
        rw [hexisting]
        rfl
  | cons t ts ih =>
    rw [run] at h
    cases hstep : r.step db t with
    | error e =>
      rw [hstep] at h
      cases h
    | ok next =>
      rw [hstep] at h
      dsimp only at h
      obtain ⟨⟨table', integer', hasKey', hnext, hname⟩, hexisting⟩ := hr.step_fresh hdraft hstep
      rw [run, hexisting]
      dsimp only
      split at h
      · rename_i hplace
        cases h
        exact ⟨⟨table', integer', hasKey', hnext, hname⟩, if_pos hplace⟩
      · rename_i hplace
        obtain ⟨⟨table'', integer'', hasKey'', hd, hname'⟩, hrun⟩ := ih (hr.step hstep) hnext h
        exact ⟨⟨table'', integer'', hasKey'', hd, hname'.trans hname⟩, (if_neg hplace).trans hrun⟩

theorem Beyond.complete_existing (hr : r.Beyond) (hdraft : r.draft = .existing) {d : Draft}
    (h : r.complete db = .ok d) : d = .existing := by
  obtain ⟨p, part, draft⟩ := r
  cases hdraft
  cases part with
  | none =>
    cases h
    rfl
  | some part =>
    rcases Draft.apply_of_not_fresh db (.inl rfl) (Place.isName_of_awaits hr.name hr.coherent) with
      ⟨-, e, he, -⟩ | ⟨-, hok⟩
    · cases he.symm.trans h
    · cases hok.symm.trans h
      rfl

/-- A statement makes nothing where the table exists. -/
theorem Beyond.run_existing (hr : r.Beyond) (hdraft : r.draft = .existing) {ts : List Token} {ending : Ending}
    (h : r.run db ts = .ok ending) : ending.draft = .existing := by
  induction ts generalizing r with
  | nil =>
    rw [run] at h
    split at h
    · rename_i hp
      have hname := hr.name
      rw [beq_iff_eq.mp hp] at hname
      cases hname
    · split at h
      · cases h
      · cases hcomplete : r.complete db <;> rw [hcomplete] at h <;> cases h
        exact hr.complete_existing hdraft hcomplete
  | cons t ts ih =>
    rw [run] at h
    cases hstep : r.step db t with
    | error e =>
      rw [hstep] at h
      cases h
    | ok next =>
      rw [hstep] at h
      dsimp only at h
      have hnext : next.draft = .existing := by
        obtain ⟨completes, hsteps⟩ := steps_of_step hstep
        cases completes with
        | true => exact hr.complete_existing hdraft hsteps.draft
        | false => exact hsteps.draft.trans hdraft
      split at h
      · cases h
        exact hnext
      · exact ih (hr.step hstep) hnext h

end Reading
end Schemata.Sql
