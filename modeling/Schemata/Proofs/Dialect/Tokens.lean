import Schemata.Proofs.Text.Places
import Schemata.Dialect.Constraint

/-! The tokens of a constraint list. The pieces of a list, written one after the other with commas between them, are the
    list, however it is cut; so each token stands in its list as it is, trimmed and not empty. A list without a
    separating comma is one token. -/

namespace Schemata

/-- The pieces of a list are all of it but the commas that separate them. -/
theorem intercalate_quotedPieces {p : ListPlace} {s : Text} {pieces : List Text} (h : quotedPieces p s = some pieces) :
    pieces ≠ [] ∧ [','].intercalate pieces = s := by
  induction s generalizing p pieces with
  | nil =>
    cases p with
    | inside q => cases h
    | outside valueStart =>
      cases h
      exact ⟨List.cons_ne_nil _ _, List.intercalate_singleton⟩
  | cons c s ih =>
    rw [quotedPieces] at h
    split at h
    · rename_i hseparates
      obtain ⟨pieces, hpieces, rfl⟩ := Option.map_eq_some_iff.mp h
      obtain ⟨hne, hs⟩ := ih hpieces
      have hcomma : c = ',' := by
        cases p with
        | inside q => cases hseparates
        | outside valueStart => exact beq_iff_eq.mp hseparates
      obtain ⟨first, rest, rfl⟩ := List.exists_cons_of_ne_nil hne
      exact ⟨List.cons_ne_nil _ _, by rw [List.intercalate_cons_cons, hs, hcomma]; rfl⟩
    · obtain ⟨pieces, hpieces, rfl⟩ := Option.map_eq_some_iff.mp h
      obtain ⟨hne, hs⟩ := ih hpieces
      obtain ⟨first, rest, rfl⟩ := List.exists_cons_of_ne_nil hne
      refine ⟨List.cons_ne_nil _ _, ?_⟩
      rw [← hs, List.modifyHead_cons]
      cases rest with
      | nil => rw [List.intercalate_singleton, List.intercalate_singleton]
      | cons second rest => rw [List.intercalate_cons_cons, List.intercalate_cons_cons]; rfl

/-- A token is a trimmed part of its list. -/
theorem token_of_mem_splitTokens {list token : Text} (h : token ∈ splitTokens list) :
    token ≠ [] ∧ Text.trim token = token ∧ token <:+: list := by
  obtain ⟨h, hne⟩ := List.mem_filter.mp h
  obtain ⟨piece, hpiece, rfl⟩ := List.mem_map.mp h
  have hinside : piece <:+: list := by
    cases hquoted : quotedPieces (.outside true) list with
    | none =>
      rw [hquoted, Option.getD_none] at hpiece
      have hinside : piece <:+: [','].intercalate (list.splitOn ',') := Text.isInfix_intercalate hpiece
      rwa [List.intercalate_splitOn] at hinside
    | some pieces =>
      rw [hquoted, Option.getD_some] at hpiece
      exact (intercalate_quotedPieces hquoted).2 ▸ Text.isInfix_intercalate hpiece
  exact ⟨by simpa using hne, Text.trim_trim piece, (Text.trim_isInfix piece).trans hinside⟩

/-! ### Lists of one token -/

namespace ListPlace

/-- The place behind a text, unless a comma of the text separates tokens. -/
def follow (p : ListPlace) : Text → Option ListPlace
  | [] => some p
  | c :: s => if p.separates c then none else (p.next c).follow s

theorem follow_append {p q : ListPlace} {a : Text} (h : p.follow a = some q) (b : Text) :
    p.follow (a ++ b) = q.follow b := by
  induction a generalizing p with
  | nil =>
    cases h
    rfl
  | cons c a ih =>
    rw [follow, Option.ite_none_left_eq_some] at h
    rw [List.cons_append, follow, if_neg h.1, ih h.2]

/-- A quoted value goes on up to its quote. -/
theorem follow_inside {q : Char} {value : Text} (h : q ∉ value) : (inside q).follow value = some (inside q) := by
  induction value with
  | nil => rfl
  | cons c value ih =>
    obtain ⟨hc, hvalue⟩ := List.ne_and_not_mem_of_not_mem_cons h
    have hnext : (inside q).next c = inside q := if_neg (by simpa using Ne.symm hc)
    rw [follow, if_neg (by simp [separates]), hnext, ih hvalue]

end ListPlace

/-- Text without a separating comma goes in front of the first piece. -/
theorem quotedPieces_append {p q : ListPlace} {a : Text} (h : p.follow a = some q) (s : Text) :
    quotedPieces p (a ++ s) = (quotedPieces q s).map (List.modifyHead (a ++ ·)) := by
  induction a generalizing p with
  | nil =>
    cases h
    show quotedPieces q s = (quotedPieces q s).map (List.modifyHead id)
    rcases quotedPieces q s with _ | _ | ⟨first, rest⟩ <;> rfl
  | cons c a ih =>
    rw [ListPlace.follow, Option.ite_none_left_eq_some] at h
    have hpieces : ∀ t, quotedPieces p (c :: t) = (quotedPieces (p.next c) t).map (List.modifyHead (c :: ·)) := by
      intro t
      rw [quotedPieces, if_neg h.1]
    rw [List.cons_append, hpieces, ih h.2, Option.map_map]
    congr 1
    funext pieces
    rw [Function.comp_apply, List.modifyHead_modifyHead]
    rfl

/-- A text without a separating comma, and with its quotes closed, is one piece. -/
theorem quotedPieces_single {piece : Text} {valueStart : Bool}
    (h : (ListPlace.outside true).follow piece = some (.outside valueStart)) :
    quotedPieces (.outside true) piece = some [piece] := by
  have happend := quotedPieces_append h []
  rw [List.append_nil] at happend
  rw [happend]
  simp [quotedPieces]

theorem splitTokens_single {token : Text} {valueStart : Bool} (hne : token ≠ []) (htrim : Text.trim token = token)
    (h : (ListPlace.outside true).follow token = some (.outside valueStart)) : splitTokens token = [token] := by
  rw [splitTokens, quotedPieces_single h, Option.getD_some, List.map_singleton, htrim]
  simp [hne]

end Schemata
