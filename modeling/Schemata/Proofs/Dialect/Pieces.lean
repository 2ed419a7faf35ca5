import Schemata.Proofs.Dialect.Tokens

/-! The pieces of a constraint list. A piece has its quoted values closed and no comma outside them, so it is cut
    nowhere, and pieces with commas between them are cut into these pieces. Blanks leave the place of a reading as it
    is, inside quotes and outside, so a piece stays one when it is trimmed. -/

namespace Schemata

/-! ### Places -/

namespace ListPlace

/-- A place that is outside quotes, or inside those that open values. -/
def IsRead : ListPlace → Prop
  | outside _ => True
  | inside q => q ∈ ['"', '\'', '`']

def isInside : ListPlace → Bool
  | outside _ => false
  | inside _ => true

/-- The place behind a text, whatever separates tokens in it. -/
def after (p : ListPlace) (s : Text) : ListPlace := s.foldl next p

theorem IsRead.next {p : ListPlace} (h : p.IsRead) (c : Char) : (p.next c).IsRead := by
  cases p with
  | outside valueStart =>
    rw [ListPlace.next]
    split
    · rename_i hquote
      simp only [Bool.and_eq_true, Bool.or_eq_true, beq_iff_eq] at hquote
      simpa [IsRead, or_assoc] using hquote.2
    · split
      · trivial
      · split <;> trivial
  | inside q =>
    rw [ListPlace.next]
    split
    · trivial
    · exact h

theorem IsRead.after {p : ListPlace} (h : p.IsRead) (s : Text) : (p.after s).IsRead := by
  induction s generalizing p with
  | nil => exact h
  | cons c s ih => exact ih (h.next c)

theorem after_append (p : ListPlace) (a b : Text) : p.after (a ++ b) = (p.after a).after b := List.foldl_append

/-- Blanks leave every place as it is. -/
theorem IsRead.next_blank {p : ListPlace} (h : p.IsRead) {c : Char} (hc : isBlank c = true) : p.next c = p := by
  have hne : ∀ x, isBlank x = false → c ≠ x := fun x hx heq => by
    rw [heq, hx] at hc
    cases hc
  cases p with
  | outside valueStart =>
    simp [ListPlace.next, hne '"' (by decide), hne '\'' (by decide), hne '`' (by decide), hne ',' (by decide),
      hne ':' (by decide), hc]
  | inside q =>
    have hq : isBlank q = false := by
      rcases List.mem_cons.mp h with rfl | h
      · decide
      · rcases List.mem_cons.mp h with rfl | h
        · decide
        · obtain rfl := List.mem_singleton.mp h
          decide
    exact if_neg (by simpa using hne q hq)

theorem IsRead.after_blank {p : ListPlace} (h : p.IsRead) {s : Text} (hs : IsBlank s) : p.after s = p := by
  induction s with
  | nil => rfl
  | cons c s ih =>
    obtain ⟨hc, hs⟩ := IsBlank.cons.mp hs
    rw [ListPlace.after, List.foldl_cons, h.next_blank hc]
    exact ih hs

theorem IsRead.next_comma {p : ListPlace} (h : p.IsRead) :
    (p.next ',').next ',' = p.next ',' ∧ (p.next ',').isInside = p.isInside := by
  cases p with
  | outside valueStart => cases valueStart <;> exact ⟨rfl, rfl⟩
  | inside q =>
    have hq : (inside q).next ',' = inside q := by
      refine if_neg ?_
      rw [beq_iff_eq]
      rintro rfl
      exact absurd (show ',' ∈ ['"', '\'', '`'] from h) (by decide)
    rw [hq]
    exact ⟨hq, rfl⟩

end ListPlace

/-! ### Pieces on their own -/

/-- A piece of a list: a text with its quoted values closed and no comma outside them. -/
def IsPiece (s : Text) : Prop := quotedPieces (.outside true) s = some [s]

instance (s : Text) : Decidable (IsPiece s) := inferInstanceAs (Decidable (_ = _))

theorem quotedPieces_comma (valueStart : Bool) (s : Text) :
    quotedPieces (.outside valueStart) (',' :: s) = (quotedPieces (.outside true) s).map ([] :: ·) := by
  cases valueStart <;> rfl

theorem exists_follow {p : ListPlace} {s : Text} {pieces : List Text} (h : quotedPieces p s = some pieces) :
    ∃ first rest valueStart, pieces = first :: rest ∧ p.follow first = some (.outside valueStart) ∧
      ∀ piece ∈ rest, ∃ valueStart, (ListPlace.outside true).follow piece = some (.outside valueStart) := by
  induction s generalizing p pieces with
  | nil =>
    cases p with
    | inside q => cases h
    | outside valueStart =>
      cases h
      exact ⟨[], [], valueStart, rfl, rfl, List.forall_mem_nil _⟩
  | cons c s ih =>
    rw [quotedPieces] at h
    split at h
    · rename_i hseparates
      obtain ⟨pieces, hpieces, rfl⟩ := Option.map_eq_some_iff.mp h
      cases p with
      | inside q => cases hseparates
      | outside valueStart =>
        obtain rfl : c = ',' := beq_iff_eq.mp hseparates
        have hplace : (ListPlace.outside valueStart).next ',' = .outside true := by cases valueStart <;> rfl
        rw [hplace] at hpieces
        obtain ⟨first, rest, v, rfl, hfirst, hrest⟩ := ih hpieces
        exact ⟨[], first :: rest, valueStart, rfl, rfl, List.forall_mem_cons.mpr ⟨⟨v, hfirst⟩, hrest⟩⟩
    · rename_i hseparates
      obtain ⟨pieces, hpieces, rfl⟩ := Option.map_eq_some_iff.mp h
      obtain ⟨first, rest, v, rfl, hfirst, hrest⟩ := ih hpieces
      refine ⟨c :: first, rest, v, rfl, ?_, hrest⟩
      rw [ListPlace.follow, if_neg hseparates, hfirst]

theorem isPiece_iff {s : Text} :
    IsPiece s ↔ ∃ valueStart, (ListPlace.outside true).follow s = some (.outside valueStart) := by
  constructor
  · intro h
    obtain ⟨first, rest, v, heq, hfollow, -⟩ := exists_follow h
    cases heq
    exact ⟨v, hfollow⟩
  · rintro ⟨v, h⟩
    exact quotedPieces_single h

theorem isPiece_of_mem {s piece : Text} {pieces : List Text} (h : quotedPieces (.outside true) s = some pieces)
    (hpiece : piece ∈ pieces) : IsPiece piece := by
  obtain ⟨first, rest, v, rfl, hfirst, hrest⟩ := exists_follow h
  rw [isPiece_iff]
  rcases List.mem_cons.mp hpiece with rfl | hpiece
  · exact ⟨v, hfirst⟩
  · exact hrest piece hpiece

/-- Pieces with commas between them are cut into these pieces. -/
theorem quotedPieces_intercalate {pieces : List Text} (hne : pieces ≠ []) (h : ∀ piece ∈ pieces, IsPiece piece) :
    quotedPieces (.outside true) ([','].intercalate pieces) = some pieces := by
  induction pieces with
  | nil => exact absurd rfl hne
  | cons piece pieces ih =>
    obtain ⟨hpiece, hpieces⟩ := List.forall_mem_cons.mp h
    cases pieces with
    | nil =>
      rw [List.intercalate_singleton]
      exact hpiece
    | cons second pieces =>
      obtain ⟨v, hfollow⟩ := isPiece_iff.mp hpiece
      rw [List.intercalate_cons_cons, List.append_assoc, quotedPieces_append hfollow, List.singleton_append,
        quotedPieces_comma, ih (List.cons_ne_nil _ _) hpieces]
      simp

/-! ### Blanks around pieces -/

namespace ListPlace

theorem follow_append_eq (p : ListPlace) (a b : Text) : p.follow (a ++ b) = (p.follow a).bind (·.follow b) := by
  cases ha : p.follow a with
  | some q => exact follow_append ha b
  | none =>
    induction a generalizing p with
    | nil => cases ha
    | cons c a ih =>
      rw [follow] at ha
      rw [List.cons_append, follow]
      split at ha
      · rename_i hseparates
        rw [if_pos hseparates]
        rfl
      · rename_i hseparates
        rw [if_neg hseparates]
        exact ih _ ha

theorem after_of_follow {p q : ListPlace} {s : Text} (h : p.follow s = some q) : p.after s = q := by
  induction s generalizing p with
  | nil => exact Option.some.inj h
  | cons c s ih =>
    rw [follow, Option.ite_none_left_eq_some] at h
    exact ih h.2

theorem IsRead.follow_blank {p : ListPlace} (h : p.IsRead) {s : Text} (hs : IsBlank s) : p.follow s = some p := by
  induction s with
  | nil => rfl
  | cons c s ih =>
    obtain ⟨hc, hs⟩ := IsBlank.cons.mp hs
    have hseparates : p.separates c = false := by
      cases p with
      | inside q => rfl
      | outside valueStart =>
        refine beq_eq_false_iff_ne.mpr ?_
        rintro rfl
        exact absurd hc (by decide)
    rw [follow, if_neg (by simp [hseparates]), h.next_blank hc, ih hs]

end ListPlace

/-- Blanks around a text neither make it a piece nor keep it from being one. -/
theorem isPiece_blank_around {before s behind : Text} (hbefore : IsBlank before) (hbehind : IsBlank behind) :
    IsPiece (before ++ (s ++ behind)) ↔ IsPiece s := by
  have hstart : (ListPlace.outside true).IsRead := trivial
  rw [isPiece_iff, isPiece_iff, ListPlace.follow_append (hstart.follow_blank hbefore), ListPlace.follow_append_eq]
  cases hs : (ListPlace.outside true).follow s with
  | none => rfl
  | some q =>
    have hq : q.IsRead := ListPlace.after_of_follow hs ▸ hstart.after s
    rw [Option.bind_some, hq.follow_blank hbehind]

theorem isPiece_trim {s : Text} : IsPiece (Text.trim s) ↔ IsPiece s := by
  obtain ⟨behind, hbehind, hs⟩ := Text.exists_append_trim s
  conv => rhs; rw [← hs]
  exact (isPiece_blank_around (Text.isBlank_takeWhile s) hbehind).symm

end Schemata
