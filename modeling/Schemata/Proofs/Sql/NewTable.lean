import Schemata.Proofs.Sql.Runs
import Schemata.Proofs.Text.Basic

/-! The table that a list makes, step by step. While the list is read, the columns of the draft with the one that waits
    are those declared so far, no two of them the same name, and as long as no target of a reference is read, no key is
    added. A clause that is begun goes on at the depth of the list, up to the comma or the parenthesis behind it. -/

namespace Schemata.Sql

/-- The first element that fits a property is the only one, where no two elements have it together. -/
theorem find?_of_pairwise {α : Type} {l : List α} {R : α → α → Prop} {p : α → Bool} {a : α} (hl : l.Pairwise R)
    (hp : ∀ a b, p a = true → p b = true → ¬R a b) (ha : a ∈ l) (hpa : p a = true) : l.find? p = some a := by
  induction hl with
  | nil => cases ha
  | @cons x l hx _ ih =>
    by_cases hpx : p x = true
    · rcases List.mem_cons.mp ha with rfl | ha
      · exact List.find?_cons_of_pos hpa
      · exact absurd (hx a ha) (hp x a hpx hpa)
    · rw [List.find?_cons_of_neg hpx]
      rcases List.mem_cons.mp ha with rfl | ha
      · exact absurd hpa hpx
      · exact ih ha

/-- Whether no two columns of a table have the same name. -/
def Table.Distinct (t : Table) : Prop := t.columns.Pairwise fun a b => Text.sameFolded a b = false

namespace Table
variable {t : Table} {name : Text}

theorem sameFolded_of_column? (h : t.column? name = none) {c : Text} (hc : c ∈ t.columns) :
    Text.sameFolded c name = false := by
  simpa using List.find?_eq_none.mp h c hc

/-- A declared column is found under its name. -/
theorem Distinct.column? (h : t.Distinct) (hname : name ∈ t.columns) : t.column? name = some name :=
  find?_of_pairwise h (fun _ _ ha hb => by simp [Text.sameFolded_of_sameFolded ha hb]) hname (by simp [Text.sameFolded])

end Table

theorem Part.Grows.distinct {part : Option Part} {t t' : Table} (h : Part.Grows part t t') (ht : t.Distinct) :
    t'.Distinct := by
  have hpart : (part.elim [] Part.columns).Pairwise fun a b => Text.sameFolded a b = false := by
    rcases part with _ | part
    · exact .nil
    · cases part with
      | column name integer => exact List.pairwise_singleton _ _
      | _ => exact .nil
  rw [Table.Distinct, h.columns]
  exact List.pairwise_append.mpr ⟨ht, hpart, fun a ha b hb => Table.sameFolded_of_column? (h.new b hb) ha⟩

namespace Reading
variable {db : Database} {r next : Reading} {t : Token} {keys : List TableKey} {names : List Text}

/-- A reading of the list of a new table, outside the targets of references: the table has the given keys, and the given
    columns with the one that waits. -/
structure Within (keys : List TableKey) (names : List Text) (r : Reading) : Prop where
  beyond : r.Beyond
  target : r.place.readsTarget = false
  table : ∃ table integer hasKey, r.draft = .fresh table integer hasKey ∧ table.keys = keys ∧ table.Distinct ∧
    table.columns ++ r.place.waiting r.part = names

theorem Within.step (h : Within keys names r) (hstep : r.step db t = .ok next) (ht : t.isWord "references" = false) :
    Within keys (names ++ r.place.declared t) next := by
  obtain ⟨completes, hsteps⟩ := steps_of_step hstep
  have hsound := hsteps.sound
  refine ⟨h.beyond.step hstep, ?_, ?_⟩
  · cases htarget : next.place.readsTarget with
    | false => rfl
    | true =>
      rcases hsound.target htarget with hr | hword
      · exact absurd hr (by simp [h.target])
      · exact absurd hword (by simp [ht])
  · -- What waits goes to the table or waits on, and in either case the columns together are the same.
    obtain ⟨table, integer, hasKey, hdraft, hkeys, hdistinct, hcolumns⟩ := h.table
    have hwaiting := hsound.columns r.part h.beyond.coherent
    cases completes with
    | true =>
      obtain ⟨⟨table', integer', hasKey', hnext, hgrows⟩, -⟩ := h.beyond.complete_fresh hdraft hsteps.draft
      obtain ⟨added, hadded, hkeys'⟩ := hgrows.keys
      refine ⟨table', integer', hasKey', hnext, ?_, hgrows.distinct hdistinct, ?_⟩
      · rw [hkeys', Place.adds_of_awaits h.target h.beyond.coherent hadded, List.append_nil, hkeys]
      · rw [if_pos rfl] at hwaiting
        rw [hgrows.columns, List.append_assoc, hwaiting, ← List.append_assoc, hcolumns]
    | false =>
      refine ⟨table, integer, hasKey, hsteps.draft.trans hdraft, hkeys, hdistinct, ?_⟩
      rw [if_neg Bool.false_ne_true, List.nil_append] at hwaiting
      rw [hwaiting, ← List.append_assoc, hcolumns]

/-! ### Clauses -/

/-- Where a clause begins. -/
structure Begins (keys : List TableKey) (names : List Text) (r : Reading) : Prop extends Within keys names r where
  begins : r.place.begins = true
  part : r.part = none

/-- In the course of a clause, behind the given number of open parentheses. -/
structure Inside (depth : Nat) (keys : List TableKey) (names : List Text) (r : Reading) : Prop
    extends Within keys names r where
  depth : r.place.depth = depth
  begins : r.place.begins = false

/-- Behind the list. -/
structure Closed (keys : List TableKey) (names : List Text) (r : Reading) : Prop extends Within keys names r where
  place : r.place = .closed
  part : r.part = none

theorem depth_of_begins {p : Place} (h : p.begins = true) : p.depth = 1 := by
  cases p with
  | firstColumn | item | tableConstraint => rfl
  | _ => cases h

theorem readsTarget_of_begins {p : Place} (h : p.begins = true) : p.readsTarget = false := by
  cases p with
  | firstColumn | item | tableConstraint => rfl
  | _ => cases h

theorem Inside.step {depth depth' : Nat} (h : Inside depth keys names r) (hstep : r.step db t = .ok next)
    (hread : next.place ≠ .unread) (hword : t.isWord "references" = false)
    (hlevel : depth' + t.closes = depth + t.opens)
    (hbegins : depth' = 2 ∨ t.isSign "," = false ∧ t.isSign "(" = false) : Inside depth' keys names next := by
  obtain ⟨completes, hsteps⟩ := steps_of_step hstep
  have hdepth : next.place.depth = depth' := by
    rcases hsteps.sound.depth with hunread | hdepth
    · exact absurd hunread hread
    · have := h.depth
      dsimp only at hdepth
      omega
  have hwithin := h.toWithin.step hstep hword
  rw [Place.declared, h.begins, if_neg Bool.false_ne_true, List.append_nil] at hwithin
  refine ⟨hwithin, hdepth, ?_⟩
  cases hnext : next.place.begins with
  | false => rfl
  | true =>
    have hone := depth_of_begins hnext
    rcases hbegins with htwo | ⟨hcomma, hopen⟩
    · omega
    · rcases hsteps.sound.begins hnext with ht | ht
      · exact absurd ht (by simp [hcomma])
      · exact absurd ht (by simp [hopen])

/-- The first token of a clause declares a column if it is a name. -/
theorem Begins.step (h : Begins keys names r) (hstep : r.step db t = .ok next) (hread : next.place ≠ .unread)
    (hkind : t.kind ≠ .symbol) (hword : t.isWord "references" = false) :
    Inside 1 keys (names ++ t.name?.toList) next := by
  obtain ⟨completes, hsteps⟩ := steps_of_step hstep
  obtain ⟨hopens, hcloses⟩ := Token.level_of_kind hkind
  have hwithin := h.toWithin.step hstep hword
  rw [Place.declared, h.begins, if_pos rfl] at hwithin
  refine ⟨hwithin, ?_, ?_⟩
  · rcases hsteps.sound.depth with hunread | hdepth
    · exact absurd hunread hread
    · have := depth_of_begins h.begins
      dsimp only at hdepth
      omega
  · cases hnext : next.place.begins with
    | false => rfl
    | true =>
      rcases hsteps.sound.begins hnext with ht | ht
      · exact absurd ht (by simp [Token.isSign_of_kind hkind])
      · exact absurd ht (by simp [Token.isSign_of_kind hkind])

theorem next_of_goTo {q : Place} {part : Option Part} (hstep : r.step db t = .ok next)
    (hmove : r.place.nextOf t = q.goTo part) :
    next.place = q ∧ next.part = part ∧ r.complete db = .ok next.draft := by
  obtain ⟨completes, hsteps⟩ := steps_of_step hstep
  obtain ⟨hplace, hpart, hcompletes⟩ := Move.mk.inj (Option.some.inj (hsteps.move.symm.trans hmove))
  have hdraft := hsteps.draft
  rw [if_pos hcompletes] at hdraft
  exact ⟨hplace, hpart, hdraft⟩

theorem not_step_of_none (hmove : r.place.nextOf t = none) : r.step db t ≠ .ok next := fun hstep => by
  obtain ⟨completes, hsteps⟩ := steps_of_step hstep
  cases hsteps.move.symm.trans hmove

/-- A comma behind a clause lets the rest of the clause take effect, and another one begins. -/
theorem next_of_comma (hstep : r.step db t = .ok next) (ht : t.isSign "," = true) (hdepth : r.place.depth = 1) :
    next.place.begins = true ∧ next.part = none ∧ r.complete db = .ok next.draft := by
  rcases Place.nextOf_comma ht hdepth with hmove | hmove | hmove
  · obtain ⟨hplace, hrest⟩ := next_of_goTo hstep hmove
    exact ⟨hplace ▸ rfl, hrest⟩
  · obtain ⟨hplace, hrest⟩ := next_of_goTo hstep hmove
    exact ⟨hplace ▸ rfl, hrest⟩
  · exact absurd hstep (not_step_of_none hmove)

theorem next_of_close (hstep : r.step db t = .ok next) (ht : t.isSign ")" = true) (hdepth : r.place.depth = 1) :
    next.place = .closed ∧ next.part = none ∧ r.complete db = .ok next.draft := by
  rcases Place.nextOf_close ht hdepth with hmove | hmove
  · exact next_of_goTo hstep hmove
  · exact absurd hstep (not_step_of_none hmove)

/-- Behind a clause that is complete: what waits makes the table one with the given keys and columns. -/
structure Ends (keys : List TableKey) (names : List Text) (r : Reading) : Prop where
  beyond : r.Beyond
  depth : r.place.depth = 1
  table : ∀ db d, r.complete db = .ok d → ∃ table integer hasKey, d = .fresh table integer hasKey ∧
    table.keys = keys ∧ table.Distinct ∧ table.columns = names

theorem sizedColumn?_of_depth {p : Place} (h : p.depth ≠ 2) : p.sizedColumn? = none := by
  cases p with
  | size name second signed => exact absurd rfl h
  | sized name second => exact absurd rfl h
  | _ => rfl

theorem Inside.ends (h : Inside 1 keys names r) : Ends keys names r := by
  refine ⟨h.beyond, h.depth, fun db d hd => ?_⟩
  obtain ⟨table, integer, hasKey, hdraft, hkeys, hdistinct, hcolumns⟩ := h.table
  obtain ⟨⟨table', integer', hasKey', rfl, hgrows⟩, -⟩ := h.beyond.complete_fresh hdraft hd
  obtain ⟨added, hadded, hkeys'⟩ := hgrows.keys
  refine ⟨table', integer', hasKey', rfl, ?_, hgrows.distinct hdistinct, ?_⟩
  · rw [hkeys', Place.adds_of_awaits h.target h.beyond.coherent hadded, List.append_nil, hkeys]
  · rw [Place.waiting, sizedColumn?_of_depth (by rw [h.depth]; decide), Option.toList_none, List.append_nil] at hcolumns
    rw [hgrows.columns, hcolumns]

theorem Ends.within (h : Ends keys names r) (hstep : r.step db t = .ok next)
    (hcomplete : r.complete db = .ok next.draft) (htarget : next.place.readsTarget = false)
    (hdepth : next.place.depth ≠ 2) (hpart : next.part = none) : Within keys names next := by
  obtain ⟨table, integer, hasKey, hdraft, hkeys, hdistinct, hcolumns⟩ := h.table db next.draft hcomplete
  refine ⟨h.beyond.step hstep, htarget, table, integer, hasKey, hdraft, hkeys, hdistinct, ?_⟩
  rw [Place.waiting, hpart, sizedColumn?_of_depth hdepth, hcolumns]
  exact List.append_nil _

theorem Ends.comma (h : Ends keys names r) (hstep : r.step db t = .ok next) (ht : t.isSign "," = true) :
    Begins keys names next := by
  obtain ⟨hbegins, hpart, hcomplete⟩ := next_of_comma hstep ht h.depth
  exact ⟨h.within hstep hcomplete (readsTarget_of_begins hbegins) (by rw [depth_of_begins hbegins]; decide) hpart,
    hbegins, hpart⟩

theorem Ends.close (h : Ends keys names r) (hstep : r.step db t = .ok next) (ht : t.isSign ")" = true) :
    Closed keys names next := by
  obtain ⟨hplace, hpart, hcomplete⟩ := next_of_close hstep ht h.depth
  exact ⟨h.within hstep hcomplete (by rw [hplace]; rfl) (by rw [hplace]; decide) hpart, hplace, hpart⟩

end Reading
end Schemata.Sql
