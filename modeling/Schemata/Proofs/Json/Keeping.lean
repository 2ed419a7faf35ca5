import Schemata.Json.Read

/-! What holds of all that is read, whatever the text. A reader of members goes from state to state, so it keeps what
    each member keeps; a record keeps what each of its fields keeps, be it written as an object or as a list. -/

namespace Schemata.Json

variable {α σ : Type}

theorem exists_of_bind_eq_ok {β : Type} {x : Except Fault α} {f : α → Except Fault β} {b : β} (h : x >>= f = .ok b) :
    ∃ a, x = .ok a ∧ f a = .ok b := by
  cases x with
  | error e => cases h
  | ok a => exact ⟨a, rfl, h⟩

theorem exists_of_map_eq_ok {β : Type} {x : Except Fault α} {f : α → β} {b : β} (h : x.map f = .ok b) :
    ∃ a, x = .ok a ∧ f a = b := by
  cases x with
  | error e => cases h
  | ok a => exact ⟨a, rfl, Except.ok.inj h⟩

/-- The reader keeps the property of the states that it goes through. -/
def Keeping (P : σ → Prop) (read : σ → Text → Reading σ) : Prop :=
  ∀ state text next rest, P state → read state text = .ok (next, rest) → P next

/-- What every member keeps, an object keeps. -/
theorem readMembers_keeping {P : σ → Prop} {kept : Bool} {read : σ → Text → Text → Reading σ}
    (h : ∀ key, Keeping P fun state text => read state key text) (n : Nat) (first : Bool) :
    Keeping P (readMembers kept read n first) := by
  intro state text final rest hstate hread
  induction n generalizing first state text with
  | zero => cases hread
  | succ n ih =>
    rw [readMembers] at hread
    obtain ⟨⟨_ | key, behind⟩, -, hread⟩ := exists_of_bind_eq_ok hread
    · cases hread
      exact hstate
    · obtain ⟨⟨next, later⟩, hmember, hread⟩ := exists_of_bind_eq_ok hread
      exact ih false next later (h key state behind next later hstate hmember) hread

namespace Fields
variable {fields : Fields σ} {P : σ → Prop}

theorem readMember_keeping (h : ∀ field ∈ fields, Keeping P field.2) (key : Text) :
    Keeping (fun state => P state.2) fun state text => fields.readMember state key text := by
  intro state text next rest hstate hread
  unfold readMember at hread
  dsimp only at hread
  split at hread
  · obtain ⟨_, -, hread⟩ := exists_of_bind_eq_ok hread
    obtain ⟨_, -, hread⟩ := exists_of_bind_eq_ok hread
    cases hread
    exact hstate
  · rename_i read hlookup
    split at hread
    · cases hread
    · obtain ⟨behind, -, hread⟩ := exists_of_bind_eq_ok hread
      obtain ⟨⟨value, later⟩, hvalue, hread⟩ := exists_of_bind_eq_ok hread
      cases hread
      obtain ⟨before, after, rfl, -⟩ := List.lookup_eq_some_iff.mp hlookup
      exact h (key, read) (by simp) state.2 behind value later hstate hvalue

theorem readInOrder_keeping (h : ∀ field ∈ fields, Keeping P field.2) (first : Bool) :
    Keeping P (fields.readInOrder first) := by
  intro value text final rest hvalue hread
  induction fields generalizing first value text with
  | nil =>
    obtain ⟨_, -, heq⟩ := exists_of_map_eq_ok hread
    cases heq
    exact hvalue
  | cons field fields ih =>
    obtain ⟨hfield, hfields⟩ := List.forall_mem_cons.mp h
    rw [readInOrder] at hread
    obtain ⟨⟨more, behind⟩, -, hread⟩ := exists_of_bind_eq_ok hread
    cases more with
    | false =>
      cases hread
      exact hvalue
    | true =>
      obtain ⟨⟨next, later⟩, hnext, hread⟩ := exists_of_bind_eq_ok hread
      exact ih hfields false next later (hfield value behind next later hvalue hnext) hread

/-- What every field keeps, a record keeps, be it an object or a list. -/
theorem read_keeping (h : ∀ field ∈ fields, Keeping P field.2) : Keeping P fields.read := by
  intro start text final rest hstart hread
  unfold read at hread
  split at hread
  · obtain ⟨⟨⟨seen, value⟩, behind⟩, hmembers, heq⟩ := exists_of_map_eq_ok hread
    cases heq
    exact readMembers_keeping (readMember_keeping h) _ _ _ _ _ _ hstart hmembers
  · exact readInOrder_keeping h true _ _ _ _ hstart hread
  · cases hread

end Fields

theorem mem_of_readOptional {read : Text → Reading α} {text rest : Text} {o : Option α} {a : α}
    (h : readOptional read text = .ok (o, rest)) (ha : a ∈ o) : ∃ inside, read inside = .ok (a, rest) := by
  unfold readOptional at h
  split at h
  · obtain ⟨_, -, heq⟩ := exists_of_map_eq_ok h
    cases heq
    cases ha
  · obtain ⟨⟨a', _⟩, hread, heq⟩ := exists_of_map_eq_ok h
    cases heq
    cases ha
    exact ⟨_, hread⟩

end Schemata.Json
