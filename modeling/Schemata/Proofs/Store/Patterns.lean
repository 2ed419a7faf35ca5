import Schemata.Proofs.Text.Basic
import Schemata.Store.Sqlite

/-! The names that fit the pattern of those that are not listed. In the pattern an underscore stands for any character,
    so not only the names that start with `sqlite_` fit, but all that start with `sqlite` and go on. -/

namespace Schemata

/-! ### Order and case -/

namespace Text

theorem upTo_iff {a b : Text} : upTo a b = true ↔ ¬List.Lex (fun x y : Char => x.toNat < y.toNat) b a := by
  unfold upTo
  rw [Bool.not_eq_true', ← Bool.not_eq_true, List.lex_eq_true_iff_lex]
  simp only [decide_eq_true_eq]

theorem upTo_trans (a b c : Text) (hab : upTo a b = true) (hbc : upTo b c = true) : upTo a c = true :=
  upTo_iff.mpr (@List.le_trans Char _ _ _ _ a b c (upTo_iff.mp hab) (upTo_iff.mp hbc))

theorem upTo_total (a b : Text) : (upTo a b || upTo b a) = true := by
  rw [Bool.or_eq_true, upTo_iff, upTo_iff]
  exact @List.le_total Char _ _ a b

theorem sameFolded_iff {a b : Text} : sameFolded a b = true ↔ lower a = lower b := beq_iff_eq

end Text

namespace Sqlite

/-! ### Patterns -/

theorem like_percent (s : Text) : like ['%'] s = true := by
  rw [like, if_pos (by decide), List.any_eq_true]
  refine ⟨s.length, List.mem_range.mpr (Nat.lt_succ_self _), ?_⟩
  rw [List.drop_length]
  rfl

theorem like_underscore (p s : Text) : like ('_' :: p) s = (!s.isEmpty && like p s.tail) := by
  rw [like, if_neg (by decide)]
  cases s <;> rfl

theorem like_letters {w : Text} (hw : Text.Avoids ['%', '_'] w) (p s : Text) :
    like (w ++ p) s = (Text.sameFolded (s.take w.length) w && like p (s.drop w.length)) := by
  induction w generalizing s with
  | nil => simp [Text.sameFolded]
  | cons x w ih =>
    obtain ⟨hx, hw⟩ := List.forall_mem_cons.mp hw
    simp only [List.mem_cons, List.not_mem_nil, or_false, not_or] at hx
    rw [List.cons_append, like, if_neg (by simpa using hx.1)]
    cases s with
    | nil => rfl
    | cons c s =>
      rw [beq_eq_false_iff_ne.mpr hx.2, List.tail_cons, ih hw, ← Bool.and_assoc]
      rfl

theorem sameFolded_cons {x y : Char} {a b : Text} :
    Text.sameFolded (x :: a) (y :: b) = true ↔ x.toLower = y.toLower ∧ Text.sameFolded a b = true := by
  simp [Text.sameFolded, Text.lower]

/-- Names that are the same up to case fit the same patterns. -/
theorem like_congr (p : Text) {a b : Text} (h : Text.sameFolded a b = true) : like p a = like p b := by
  induction p generalizing a b with
  | nil =>
    cases a <;> cases b
    · rfl
    · cases h
    · cases h
    · rfl
  | cons x p ih =>
    have hlength : a.length = b.length := by
      simpa [Text.lower] using congrArg List.length (Text.sameFolded_iff.mp h)
    rw [like, like, hlength]
    split
    · refine List.any_congr rfl fun n => ih ?_
      rw [Text.sameFolded_iff] at h ⊢
      simp only [Text.lower, List.map_drop] at h ⊢
      rw [h]
    · cases a with
      | nil =>
        cases b with
        | nil => rfl
        | cons d b => cases h
      | cons c a =>
        cases b with
        | nil => cases h
        | cons d b =>
          obtain ⟨hchar, hrest⟩ := sameFolded_cons.mp h
          rw [List.tail_cons, List.tail_cons, ih hrest, List.head?_cons, List.head?_cons, Option.any_some,
            Option.any_some, hchar]

/-! ### Hidden names -/

theorem like_hiddenPattern (name : Text) :
    like hiddenPattern name = (Text.sameFolded (name.take 6) "sqlite" && !(name.drop 6).isEmpty) := by
  have hpattern : hiddenPattern = "sqlite".toList ++ ['_', '%'] := by
    rw [hiddenPattern, Text.ofString_eq]
    rfl
  rw [hpattern, like_letters (by decide), like_underscore, like_percent, Bool.and_true, Text.ofString_eq]
  rfl

/-- A name that starts with `sqlite_` in any case. -/
def IsInternal (name : Text) : Prop := Text.sameFolded (name.take 7) "sqlite_" = true

/-- What SQLite keeps for itself is never listed. -/
theorem IsInternal.hidden {name : Text} (h : IsInternal name) : like hiddenPattern name = true := by
  have hlower := Text.sameFolded_iff.mp h
  have hlength : (name.take 7).length = 7 := by
    have hl := congrArg List.length hlower
    simp only [Text.lower, List.length_map] at hl
    rw [hl, Text.ofString_eq]
    rfl
  rw [like_hiddenPattern, Bool.and_eq_true]
  constructor
  · have htake := congrArg (List.take 6) hlower
    rw [Text.lower, Text.lower, ← List.map_take, List.take_take, Text.ofString_eq] at htake
    rw [Text.sameFolded_iff, Text.ofString_eq]
    exact htake
  · simp only [List.length_take] at hlength
    rw [Bool.not_eq_true', List.isEmpty_eq_false_iff, Ne, List.drop_eq_nil_iff]
    omega

/-! ### The names of a store -/

variable {δ τ ι : Type} {c : Connection δ τ ι} {s : δ} {names : List Text}

/-- The listed names are those of the catalogue that are not hidden, in order. -/
theorem Connection.tableNames_of_names (h : c.names s = .ok names) :
    ∃ listed, c.tableNames s = .ok listed ∧ listed.Perm (names.filter fun name => !like hiddenPattern name) ∧
      listed.Pairwise fun a b => Text.upTo a b = true := by
  refine ⟨_, ?_, List.mergeSort_perm _ _, List.pairwise_mergeSort Text.upTo_trans Text.upTo_total _⟩
  rw [Connection.tableNames, h]

end Sqlite
end Schemata
