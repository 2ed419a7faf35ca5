import Schemata.Text.Word

/-! Shapes looked for in a text. A pattern reads one match at the front of a text; a scan takes the leftmost
    match, goes on behind it, and keeps what it passes over. Nothing is lost: the gaps and the matches, written
    one after the other, are the text. -/

namespace Schemata

/-- Whether a text that follows a word character (`before`) ends in one. -/
def endsInWord (before : Bool) (s : Text) : Bool := s.foldl (fun _ c => isWord c) before

/-- A shape: `read? afterWord s` reads one match at the front of `s`, told whether a word character stands right
    before `s`, and gives it with the rest. `render` writes a match as it was read. -/
structure Pattern (α : Type) where
  read? : Bool → Text → Option (α × Text)
  render : α → Text
  render_append : ∀ {b s a r}, read? b s = some (a, r) → render a ++ r = s
  render_ne_nil : ∀ {b s a r}, read? b s = some (a, r) → render a ≠ []

/-- The matches in a text, each with the gap before it, and the text behind the last one. -/
structure Scan (α : Type) where
  hits : List (Text × α)
  tail : Text

namespace Pattern
variable {α : Type} (p : Pattern α)

/-- The leftmost match: what stands before it, the match, and what stands behind. -/
def find? : Bool → Text → Option (Text × α × Text)
  | _, [] => none
  | b, c :: s =>
    match p.read? b (c :: s) with
    | some (a, r) => some ([], a, r)
    | none => (find? (isWord c) s).map fun (g, a, r) => (c :: g, a, r)

theorem find?_append {b : Bool} {s g r : Text} {a : α} (h : p.find? b s = some (g, a, r)) :
    g ++ (p.render a ++ r) = s := by
  induction s generalizing b g with
  | nil => simp [find?] at h
  | cons c s ih =>
    unfold find? at h
    split at h
    · rename_i a' r' hr
      cases h
      exact p.render_append hr
    · obtain ⟨⟨g', a', r'⟩, hf, he⟩ := Option.map_eq_some_iff.mp h
      cases he
      rw [List.cons_append, ih hf]

theorem find?_length {b : Bool} {s g r : Text} {a : α} (h : p.find? b s = some (g, a, r)) :
    r.length < s.length := by
  induction s generalizing b g with
  | nil => simp [find?] at h
  | cons c s ih =>
    unfold find? at h
    split at h
    · rename_i a' r' hr
      cases h
      have hne := List.length_pos_iff.mpr (p.render_ne_nil hr)
      rw [← p.render_append hr, List.length_append]
      omega
    · obtain ⟨⟨g', a', r'⟩, hf, he⟩ := Option.map_eq_some_iff.mp h
      cases he
      exact Nat.lt_succ_of_lt (ih hf)

def scan (b : Bool) (s : Text) : Scan α :=
  match _h : p.find? b s with
  | none => ⟨[], s⟩
  | some (g, a, r) =>
    let next := scan (endsInWord b (g ++ p.render a)) r
    ⟨(g, a) :: next.hits, next.tail⟩
termination_by s.length
decreasing_by exact p.find?_length (by assumption)

end Pattern
end Schemata
