import Schemata.Proofs.Text.Scan

/-! Texts made of shapes and the gaps between them. A grammar says which shapes may stand between which texts, without
    reading any. Each text has one factorisation into gaps and shapes in which no shape begins inside a gap, if the
    shapes are those that a pattern reads; and it is the one that a scan for the pattern finds. -/

namespace Schemata

/-- Shapes of text, and between which texts each of them may stand. -/
structure Grammar (α : Type) where
  render : α → Text
  Fits (before : Text) (a : α) (behind : Text) : Prop

namespace Grammar
variable {α : Type} (g : Grammar α)

/-- A shape begins between the two texts. -/
def Begins (before behind : Text) : Prop := ∃ a rest, g.Fits before a rest ∧ g.render a ++ rest = behind

/-- No shape begins at any place of a gap. -/
def IsGap (before gap behind : Text) : Prop :=
  ∀ front back, back ≠ [] → front ++ back = gap → ¬g.Begins (before ++ front) (back ++ behind)

/-- The text of gaps and shapes, one after the other. -/
def written (hits : List (Text × α)) (tail : Text) : Text := hits.flatMap (fun (gap, a) => gap ++ g.render a) ++ tail

/-- Behind the given text, all gaps are free of shapes and all shapes fit. -/
def Cuts (before : Text) : List (Text × α) → Text → Prop
  | [], tail => g.IsGap before tail []
  | (gap, a) :: hits, tail =>
    g.IsGap before gap (g.render a ++ g.written hits tail) ∧ g.Fits (before ++ gap) a (g.written hits tail) ∧
      Cuts (before ++ gap ++ g.render a) hits tail

/-- A text cut into shapes, each with the gap before it, and the gap behind the last one. -/
structure Factors (s : Text) (f : Scan α) : Prop where
  text : g.written f.hits f.tail = s
  cuts : g.Cuts [] f.hits f.tail

variable {g}

theorem isGap_nil (before behind : Text) : g.IsGap before [] behind := fun _ _ hback h =>
  absurd (List.append_eq_nil_iff.mp h).2 hback

theorem isGap_cons {before gap behind : Text} {c : Char} :
    g.IsGap before (c :: gap) behind ↔
      ¬g.Begins before (c :: gap ++ behind) ∧ g.IsGap (before ++ [c]) gap behind := by
  constructor
  · refine fun h => ⟨fun hbegins => ?_, fun front back hback heq => ?_⟩
    · exact h [] (c :: gap) (List.cons_ne_nil _ _) rfl (by rwa [List.append_nil])
    · rw [List.append_assoc]
      exact h (c :: front) back hback (congrArg (c :: ·) heq)
  · rintro ⟨hfirst, hrest⟩ front back hback heq
    cases front with
    | nil =>
      obtain rfl : back = c :: gap := heq
      rwa [List.append_nil]
    | cons x front =>
      obtain ⟨rfl, rfl⟩ := List.cons.inj heq
      rw [List.append_cons]
      exact hrest front back hback rfl

end Grammar

namespace Pattern
variable {α : Type} {p : Pattern α} {g : Grammar α}

/-- A pattern that reads the shapes of a grammar where they fit, and nothing else. -/
structure Reads (p : Pattern α) (g : Grammar α) : Prop where
  render : p.render = g.render
  read?_iff : ∀ {before s a r}, p.read? (endsInWord false before) s = some (a, r) ↔
    g.Fits before a r ∧ g.render a ++ r = s

/-- The leftmost match stands behind text in which none begins. -/
theorem find?_eq_some_iff {b : Bool} {s gap r : Text} {a : α} :
    p.find? b s = some (gap, a, r) ↔
      gap ++ (p.render a ++ r) = s ∧ p.passes b gap (p.render a ++ r) = true ∧
        p.read? (endsInWord b gap) (p.render a ++ r) = some (a, r) := by
  constructor
  · intro h
    refine ⟨p.find?_append h, ?_⟩
    induction s generalizing b gap with
    | nil => cases h
    | cons c s ih =>
      unfold find? at h
      split at h
      · rename_i hread
        cases h
        rw [p.render_append hread]
        exact ⟨rfl, hread⟩
      · rename_i hread
        obtain ⟨⟨gap', a', r'⟩, hfind, heq⟩ := Option.map_eq_some_iff.mp h
        cases heq
        obtain ⟨hpasses, hmatch⟩ := ih hfind
        rw [passes, List.cons_append, p.find?_append hfind, hread, hpasses]
        exact ⟨rfl, hmatch⟩
  · rintro ⟨rfl, hpasses, hread⟩
    rw [find?_of_passes hpasses, p.find?_read hread]
    simp

/-- A text without a match is passed over. -/
theorem find?_eq_none_iff {b : Bool} {s : Text} : p.find? b s = none ↔ p.passes b s [] = true := by
  constructor
  · intro h
    induction s generalizing b with
    | nil => rfl
    | cons c s ih =>
      unfold find? at h
      split at h
      · cases h
      · rename_i hread
        rw [passes, List.append_nil, hread, ih (Option.map_eq_none_iff.mp h)]
        rfl
  · intro h
    have hfind := find?_of_passes h
    rwa [List.append_nil] at hfind

theorem scan_eq_nil_iff {b : Bool} {s tail : Text} : p.scan b s = ⟨[], tail⟩ ↔ s = tail ∧ p.find? b s = none := by
  rcases hfind : p.find? b s with _ | ⟨gap, a, r⟩
  · simp [p.scan_none hfind]
  · simp [p.scan_some hfind]

theorem scan_eq_cons_iff {b : Bool} {s gap tail : Text} {a : α} {hits : List (Text × α)} :
    p.scan b s = ⟨(gap, a) :: hits, tail⟩ ↔
      ∃ r, p.find? b s = some (gap, a, r) ∧ p.scan (endsInWord b (gap ++ p.render a)) r = ⟨hits, tail⟩ := by
  rcases hfind : p.find? b s with _ | ⟨gap', a', r⟩
  · simp [p.scan_none hfind]
  · rw [p.scan_some hfind]
    constructor
    · intro h
      cases h
      exact ⟨r, rfl, rfl⟩
    · rintro ⟨r', heq, hscan⟩
      cases heq
      rw [hscan]

namespace Reads
variable (hp : p.Reads g)
include hp

theorem begins_iff {before s : Text} : g.Begins before s ↔ (p.read? (endsInWord false before) s).isSome = true := by
  rw [Option.isSome_iff_exists]
  constructor
  · rintro ⟨a, r, h⟩
    exact ⟨(a, r), hp.read?_iff.mpr h⟩
  · rintro ⟨⟨a, r⟩, h⟩
    exact ⟨a, r, hp.read?_iff.mp h⟩

theorem isGap_iff {before gap behind : Text} :
    g.IsGap before gap behind ↔ p.passes (endsInWord false before) gap behind = true := by
  induction gap generalizing before with
  | nil => exact iff_of_true (Grammar.isGap_nil before behind) rfl
  | cons c gap ih =>
    rw [Grammar.isGap_cons, ih, hp.begins_iff, endsInWord_snoc, passes, Bool.and_eq_true, Option.isNone_iff_eq_none,
      Bool.not_eq_true, Option.isSome_eq_false_iff, Option.isNone_iff_eq_none]

/-- A gap with a shape behind it is what the first match of a scan leaves before it. -/
theorem find?_iff {before s gap r : Text} {a : α} :
    p.find? (endsInWord false before) s = some (gap, a, r) ↔
      gap ++ (g.render a ++ r) = s ∧ g.IsGap before gap (g.render a ++ r) ∧ g.Fits (before ++ gap) a r := by
  rw [find?_eq_some_iff, hp.render, ← hp.isGap_iff, ← endsInWord_append, hp.read?_iff, and_iff_left rfl]

theorem cuts_iff {before tail : Text} {hits : List (Text × α)} :
    g.Cuts before hits tail ↔ p.scan (endsInWord false before) (g.written hits tail) = ⟨hits, tail⟩ := by
  induction hits generalizing before with
  | nil =>
    rw [Grammar.Cuts, hp.isGap_iff, ← find?_eq_none_iff, scan_eq_nil_iff]
    exact (and_iff_right rfl).symm
  | cons hit hits ih =>
    obtain ⟨gap, a⟩ := hit
    have htext : g.written ((gap, a) :: hits) tail = gap ++ (g.render a ++ g.written hits tail) := by
      simp [Grammar.written]
    have hend : endsInWord (endsInWord false before) (gap ++ p.render a) =
        endsInWord false (before ++ gap ++ g.render a) := by
      rw [hp.render, ← endsInWord_append, List.append_assoc]
    rw [Grammar.Cuts, ih, scan_eq_cons_iff, hend, htext]
    constructor
    · rintro ⟨hgap, hfits, hscan⟩
      exact ⟨_, hp.find?_iff.mpr ⟨rfl, hgap, hfits⟩, hscan⟩
    · rintro ⟨r, hfind, hscan⟩
      obtain ⟨htext, hgap, hfits⟩ := hp.find?_iff.mp hfind
      obtain rfl := List.append_cancel_left (List.append_cancel_left htext)
      exact ⟨hgap, hfits, hscan⟩

/-- The factorisation of a text is what a scan finds in it. -/
theorem factors_iff {s : Text} {f : Scan α} : g.Factors s f ↔ p.scan false s = f := by
  have hcuts : g.Cuts [] f.hits f.tail ↔ p.scan false (g.written f.hits f.tail) = f := hp.cuts_iff
  constructor
  · rintro ⟨rfl, h⟩
    exact hcuts.mp h
  · rintro rfl
    have htext : g.written (p.scan false s).hits (p.scan false s).tail = s := by
      have hscan := p.hits_append_tail false s
      rwa [hp.render] at hscan
    exact ⟨htext, hcuts.mpr (by rw [htext])⟩

end Reads
end Pattern
end Schemata
