import Schemata.Proofs.Text.Basic
import Schemata.Text.Pattern

/-! What a scan finds. The gaps and the matches, written one after the other, are the text; each match is one that
    the pattern reads at its place; blanks in front of a text or behind it change no match of a pattern that takes
    no notice of them. A text in which no match begins is passed over, and what is found in a text is found with more
    text behind if matches are closed by a character. -/

namespace Schemata

theorem endsInWord_append (b : Bool) (s t : Text) : endsInWord b (s ++ t) = endsInWord (endsInWord b s) t :=
  List.foldl_append

theorem endsInWord_snoc (b : Bool) (s : Text) (c : Char) : endsInWord b (s ++ [c]) = isWord c := by
  rw [endsInWord_append]
  rfl

theorem endsInWord_blank {s : Text} (h : IsBlank s) : endsInWord false s = false := by
  induction s with
  | nil => rfl
  | cons c s ih =>
    obtain ⟨hc, hs⟩ := IsBlank.cons.mp h
    show endsInWord (isWord c) s = false
    rw [isWord_of_isBlank hc, ih hs]

/-- A scan with more text in front of it. -/
def Scan.behind {α : Type} (g : Text) : Scan α → Scan α
  | ⟨[], tail⟩ => ⟨[], g ++ tail⟩
  | ⟨(gap, a) :: hits, tail⟩ => ⟨(g ++ gap, a) :: hits, tail⟩

theorem Scan.behind_behind {α : Type} (u v : Text) (s : Scan α) : (s.behind v).behind u = s.behind (u ++ v) := by
  rcases s with ⟨_ | ⟨⟨gap, a⟩, hits⟩, tail⟩ <;> simp [behind]

/-- A scan with another one behind it. -/
def Scan.append {α : Type} (s t : Scan α) : Scan α :=
  ⟨s.hits ++ (t.behind s.tail).hits, (t.behind s.tail).tail⟩

/-- A part of a text: one that a scan passes over, or a match. -/
inductive Piece (α : Type)
  | passed (text : Text)
  | found (a : α)

/-- The parts of a text in their order. -/
def Scan.pieces {α : Type} (s : Scan α) : List (Piece α) :=
  (s.hits.flatMap fun (g, a) => [.passed g, .found a]) ++ [.passed s.tail]

theorem Scan.pieces_cons {α : Type} (gap : Text) (a : α) (hits : List (Text × α)) (tail : Text) :
    (⟨(gap, a) :: hits, tail⟩ : Scan α).pieces = .passed gap :: .found a :: (⟨hits, tail⟩ : Scan α).pieces := rfl

theorem Scan.mem_pieces_found {α : Type} {s : Scan α} {a : α} : Piece.found a ∈ s.pieces ↔ ∃ g, (g, a) ∈ s.hits := by
  simp [pieces]

namespace Pattern
variable {α : Type} (p : Pattern α)

def pieceText : Piece α → Text
  | .passed text => text
  | .found a => p.render a

/-! ### One match after the other -/

theorem scan_none {b : Bool} {s : Text} (h : p.find? b s = none) : p.scan b s = ⟨[], s⟩ := by
  rw [scan]
  split
  · rfl
  · rename_i h'
    rw [h] at h'
    cases h'

theorem scan_some {b : Bool} {s g r : Text} {a : α} (h : p.find? b s = some (g, a, r)) :
    p.scan b s =
      ⟨(g, a) :: (p.scan (endsInWord b (g ++ p.render a)) r).hits,
        (p.scan (endsInWord b (g ++ p.render a)) r).tail⟩ := by
  rw [scan]
  split
  · rename_i h'
    rw [h] at h'
    cases h'
  · rename_i h'
    rw [h] at h'
    cases h'
    rfl

/-- A match that is read at the front of a text is the first one found. -/
theorem find?_read {b : Bool} {s r : Text} {a : α} (h : p.read? b s = some (a, r)) :
    p.find? b s = some ([], a, r) := by
  cases s with
  | nil =>
    have hs := p.render_append h
    exact absurd (List.append_eq_nil_iff.mp hs).1 (p.render_ne_nil h)
  | cons c s => rw [find?, h]

theorem scan_read {b : Bool} {s r : Text} {a : α} (h : p.read? b s = some (a, r)) :
    p.scan b s =
      ⟨([], a) :: (p.scan (endsInWord b (p.render a)) r).hits, (p.scan (endsInWord b (p.render a)) r).tail⟩ :=
  p.scan_some (p.find?_read h)

/-- What is found is what the pattern reads there. -/
theorem read?_of_find? {b : Bool} {s g r : Text} {a : α} (h : p.find? b s = some (g, a, r)) :
    ∃ b', p.read? b' (p.render a ++ r) = some (a, r) := by
  induction s generalizing b g with
  | nil => simp [find?] at h
  | cons c s ih =>
    unfold find? at h
    split at h
    · rename_i hr
      cases h
      exact ⟨b, by rw [p.render_append hr, hr]⟩
    · obtain ⟨⟨g', a', r'⟩, hf, he⟩ := Option.map_eq_some_iff.mp h
      cases he
      exact ih hf

/-! ### The whole scan -/

/-- Nothing is lost. -/
theorem text_pieces (b : Bool) (s : Text) : (p.scan b s).pieces.flatMap p.pieceText = s := by
  induction b, s using scan.induct p with
  | case1 b s h => simp [p.scan_none h, Scan.pieces, pieceText]
  | case2 b s g a r h ih =>
    rw [p.scan_some h]
    simp only [Scan.pieces, List.flatMap_cons, List.cons_append, List.nil_append, pieceText] at ih ⊢
    rw [ih, p.find?_append h]

theorem hits_append_tail (b : Bool) (s : Text) :
    ((p.scan b s).hits.flatMap fun (g, a) => g ++ p.render a) ++ (p.scan b s).tail = s := by
  have h := p.text_pieces b s
  simp only [Scan.pieces, List.flatMap_append, List.flatMap_assoc, List.flatMap_cons, List.flatMap_nil, pieceText,
    List.append_nil] at h
  exact h

theorem read?_of_mem_hits {b : Bool} {s : Text} {hit : Text × α} (h : hit ∈ (p.scan b s).hits) :
    ∃ b' r, p.read? b' (p.render hit.2 ++ r) = some (hit.2, r) := by
  induction b, s using scan.induct p with
  | case1 b s hf => simp [p.scan_none hf] at h
  | case2 b s g a r hf ih =>
    rw [p.scan_some hf] at h
    rcases List.mem_cons.mp h with rfl | h
    · obtain ⟨b', hr⟩ := p.read?_of_find? hf
      exact ⟨b', r, hr⟩
    · exact ih h

/-- Matches that do not depend on the character before them are found whatever stands before the text. -/
theorem scan_congr (hp : ∀ b b' s, p.read? b s = p.read? b' s) (b b' : Bool) (s : Text) :
    p.scan b s = p.scan b' s := by
  have hfind : ∀ b b' s, p.find? b s = p.find? b' s := fun b b' s => by
    cases s with
    | nil => rfl
    | cons c s => rw [find?, find?, hp b b']
  induction b, s using scan.induct p generalizing b' with
  | case1 b s h => rw [p.scan_none h, p.scan_none ((hfind b' b s).trans h)]
  | case2 b s g a r h ih => rw [p.scan_some h, p.scan_some ((hfind b' b s).trans h), ih]

/-- The first matches of a scan, at most as many as given. Unlike the whole scan it can be evaluated. -/
def scanUpTo : Nat → Bool → Text → Scan α
  | 0, _, s => ⟨[], s⟩
  | n + 1, b, s =>
    match p.find? b s with
    | none => ⟨[], s⟩
    | some (g, a, r) =>
      let next := scanUpTo n (endsInWord b (g ++ p.render a)) r
      ⟨(g, a) :: next.hits, next.tail⟩

theorem scanUpTo_eq_scan {n : Nat} {s : Text} (h : s.length ≤ n) (b : Bool) : p.scanUpTo n b s = p.scan b s := by
  induction n generalizing b s with
  | zero =>
    rw [List.length_eq_zero_iff.mp (Nat.le_zero.mp h), p.scan_none rfl]
    rfl
  | succ n ih =>
    rw [scanUpTo]
    rcases hf : p.find? b s with _ | ⟨g, a, r⟩
    · exact (p.scan_none hf).symm
    · have hr := p.find?_length hf
      rw [p.scan_some hf, ← ih (s := r) (by omega)]

/-! ### Texts that are passed over -/

/-- Whether no match begins in a text that stands before another one. -/
def passes : Bool → Text → Text → Bool
  | _, [], _ => true
  | b, c :: s, t => (p.read? b (c :: s ++ t)).isNone && passes (isWord c) s t

variable {p}

theorem passes_append {b : Bool} {s s' t : Text} :
    p.passes b (s ++ s') t = true ↔ p.passes b s (s' ++ t) = true ∧ p.passes (endsInWord b s) s' t = true := by
  induction s generalizing b with
  | nil => simp [passes, endsInWord]
  | cons c s ih =>
    rw [List.cons_append, passes, passes, Bool.and_eq_true, Bool.and_eq_true, ih, and_assoc, ← List.cons_append,
      List.append_assoc]
    rfl

theorem find?_of_passes {b : Bool} {s t : Text} (h : p.passes b s t = true) :
    p.find? b (s ++ t) = (p.find? (endsInWord b s) t).map fun (g, a, r) => (s ++ g, a, r) := by
  induction s generalizing b with
  | nil => simp [endsInWord]
  | cons c s ih =>
    obtain ⟨hc, hs⟩ := Bool.and_eq_true_iff.mp h
    rw [List.cons_append, find?, ← List.cons_append, Option.isNone_iff_eq_none.mp hc, ih hs, Option.map_map]
    rfl

theorem scan_of_passes {b : Bool} {s t : Text} (h : p.passes b s t = true) :
    p.scan b (s ++ t) = (p.scan (endsInWord b s) t).behind s := by
  have hfind := find?_of_passes h
  rcases ht : p.find? (endsInWord b s) t with _ | ⟨g, a, r⟩
  · rw [ht] at hfind
    rw [p.scan_none hfind, p.scan_none ht, Scan.behind]
  · rw [ht] at hfind
    rw [p.scan_some hfind, p.scan_some ht, Scan.behind, List.append_assoc, endsInWord_append b s]

/-! ### Blanks -/

/-- A pattern whose matches start with something else than a blank. -/
def SkipsBlanks (p : Pattern α) : Prop := ∀ b c s, isBlank c = true → p.read? b (c :: s) = none

theorem SkipsBlanks.passes (hp : p.SkipsBlanks) {g : Text} (hg : IsBlank g) (b : Bool) (s : Text) :
    p.passes b g s = true := by
  induction g generalizing b with
  | nil => rfl
  | cons c g ih =>
    obtain ⟨hc, hg⟩ := IsBlank.cons.mp hg
    rw [Pattern.passes, List.cons_append, hp b c _ hc, ih hg]
    rfl

theorem SkipsBlanks.find?_eq_none (hp : p.SkipsBlanks) {g : Text} (hg : IsBlank g) (b : Bool) : p.find? b g = none := by
  rw [← List.append_nil g, find?_of_passes (hp.passes hg b [])]
  rfl

theorem SkipsBlanks.scan_append (hp : p.SkipsBlanks) {g : Text} (hg : IsBlank g) (b : Bool) (s : Text) :
    p.scan b (g ++ s) = (p.scan (endsInWord b g) s).behind g :=
  scan_of_passes (hp.passes hg b s)

theorem SkipsBlanks.scan_blank (hp : p.SkipsBlanks) {g : Text} (hg : IsBlank g) (b : Bool) : p.scan b g = ⟨[], g⟩ :=
  p.scan_none (hp.find?_eq_none hg b)

/-! ### More text behind -/

/-- A pattern that reads the same before one more character. -/
def Ignores (p : Pattern α) (c : Char) : Prop :=
  ∀ b s, p.read? b (s ++ [c]) = (p.read? b s).map fun (a, r) => (a, r ++ [c])

theorem Ignores.find?_snoc {c : Char} (hp : p.Ignores c) (b : Bool) (s : Text) :
    p.find? b (s ++ [c]) = (p.find? b s).map fun (g, a, r) => (g, a, r ++ [c]) := by
  induction s generalizing b with
  | nil =>
    have hnil : p.read? b [] = none := by
      rcases h : p.read? b [] with _ | ⟨a, r⟩
      · rfl
      · exact absurd (List.append_eq_nil_iff.mp (p.render_append h)).1 (p.render_ne_nil h)
    have hread := hp b []
    rw [hnil, Option.map_none, List.nil_append] at hread
    simp [find?, hread]
  | cons x s ih =>
    rw [List.cons_append, find?, ← List.cons_append, hp b (x :: s), find?]
    rcases p.read? b (x :: s) with _ | ⟨a, r⟩
    · simp only [Option.map_none, ih, Option.map_map]
      rfl
    · rfl

theorem Ignores.scan_snoc {c : Char} (hp : p.Ignores c) (b : Bool) (s : Text) :
    p.scan b (s ++ [c]) = ⟨(p.scan b s).hits, (p.scan b s).tail ++ [c]⟩ := by
  induction b, s using scan.induct p with
  | case1 b s h =>
    have hfind := hp.find?_snoc b s
    rw [h] at hfind
    rw [p.scan_none h, p.scan_none hfind]
  | case2 b s g a r h ih =>
    have hfind := hp.find?_snoc b s
    rw [h] at hfind
    rw [p.scan_some h, p.scan_some hfind, ih]

theorem Ignores.scan_append {g : Text} (hp : ∀ c ∈ g, p.Ignores c) (b : Bool) (s : Text) :
    p.scan b (s ++ g) = ⟨(p.scan b s).hits, (p.scan b s).tail ++ g⟩ := by
  induction g generalizing s with
  | nil => rw [List.append_nil, List.append_nil]
  | cons c g ih =>
    obtain ⟨hc, hg⟩ := List.forall_mem_cons.mp hp
    rw [List.append_cons, ih hg, hc.scan_snoc, ← List.append_cons]

/-- A pattern whose matches all hold a character, and that reads the same before more text where this character
    stands. -/
structure ClosedBy (p : Pattern α) (c : Char) : Prop where
  mem_render : ∀ {b s a r}, p.read? b s = some (a, r) → c ∈ p.render a
  read?_append : ∀ {s}, c ∈ s → ∀ b t, p.read? b (s ++ t) = (p.read? b s).map fun (a, r) => (a, r ++ t)

/-- No match ends in any other character than the closing one. -/
theorem ClosedBy.ignores {c x : Char} (hp : p.ClosedBy c) (hx : x ≠ c) : p.Ignores x := by
  intro b s
  have hopen : ∀ t, c ∉ t → p.read? b t = none := fun t ht => by
    rcases h : p.read? b t with _ | ⟨a, r⟩
    · rfl
    · exact absurd (p.render_append h ▸ List.mem_append_left r (hp.mem_render h)) ht
  by_cases hs : c ∈ s
  · exact hp.read?_append hs b [x]
  · rw [hopen s hs, hopen (s ++ [x]) (by simp [hs, Ne.symm hx])]
    rfl

theorem ClosedBy.find?_append {c : Char} (hp : p.ClosedBy c) {b : Bool} {s g r : Text} {a : α}
    (h : p.find? b s = some (g, a, r)) (t : Text) : p.find? b (s ++ t) = some (g, a, r ++ t) := by
  induction s generalizing b g with
  | nil => cases h
  | cons x s ih =>
    have hclosed : c ∈ x :: s := by
      obtain ⟨_, hread⟩ := p.read?_of_find? h
      rw [← p.find?_append h]
      exact List.mem_append_right _ (List.mem_append_left _ (hp.mem_render hread))
    rw [List.cons_append, find?, ← List.cons_append, hp.read?_append hclosed]
    rw [find?] at h
    split at h
    · rename_i hread
      cases h
      rw [hread]
      rfl
    · rename_i hread
      obtain ⟨⟨g', a', r'⟩, hfind, heq⟩ := Option.map_eq_some_iff.mp h
      cases heq
      rw [hread, Option.map_none, ih hfind]
      rfl

/-- What is found in a text is found with more text behind, and the scan goes on with what stands behind the last
    match. -/
theorem ClosedBy.scan_append {c : Char} (hp : p.ClosedBy c) (b : Bool) (s t : Text) :
    ∃ b', p.scan b (s ++ t) = (⟨(p.scan b s).hits ++ (p.scan b' ((p.scan b s).tail ++ t)).hits,
      (p.scan b' ((p.scan b s).tail ++ t)).tail⟩ : Scan α) := by
  induction b, s using scan.induct p with
  | case1 b s h => exact ⟨b, by rw [p.scan_none h, List.nil_append]⟩
  | case2 b s g a r h ih =>
    obtain ⟨b', hscan⟩ := ih
    refine ⟨b', ?_⟩
    rw [p.scan_some (hp.find?_append h t), p.scan_some h, hscan]
    rfl

/-- Where no match begins between two texts, both are scanned on their own. -/
theorem ClosedBy.scan_append_append {c : Char} (hp : p.ClosedBy c) {b : Bool} {s v t : Text}
    (hpass : ∀ b', p.passes b' ((p.scan b s).tail ++ v) t = true)
    (hend : ∀ b', endsInWord b' ((p.scan b s).tail ++ v) = false) :
    p.scan b (s ++ (v ++ t)) = (p.scan b s).append ((p.scan false t).behind v) := by
  obtain ⟨b', hscan⟩ := hp.scan_append b s (v ++ t)
  rw [hscan, ← List.append_assoc, scan_of_passes (hpass b'), hend, Scan.append, Scan.behind_behind]

end Pattern
end Schemata
