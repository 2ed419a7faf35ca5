import Schemata.Proofs.Ddl.Clauses
import Schemata.Proofs.Ddl.Meaning

/-! What stands behind `DEFAULT`. A default token without a value is unknown, and a quoted or bare value is never
    rendered as nothing: quotes come back as those of an SQL string, and what is bare was not blank. But backticks count
    as a value and are taken away, so where only blanks stand between them nothing is left. -/

namespace Schemata

/-! ### Values -/

theorem Text.enclosed?_eq_some_iff {s inner : Text} {c : Char} :
    enclosed? s = some (c, inner) ↔ s = c :: (inner ++ [c]) := by
  constructor
  · intro h
    cases s with
    | nil => cases h
    | cons x s =>
      rw [enclosed?, Option.ite_none_right_eq_some] at h
      obtain ⟨hlast, heq⟩ := h
      cases heq
      obtain ⟨front, rfl⟩ := List.getLast?_eq_some_iff.mp (beq_iff_eq.mp hlast)
      rw [List.dropLast_concat]
  · rintro rfl
    simp [enclosed?]

theorem Text.isBlank_trim_iff {s : Text} : IsBlank (trim s) ↔ IsBlank s := by
  rw [← trim_eq_nil_iff, trim_trim, trim_eq_nil_iff]

theorem not_isBlank_sqlLiteral (value : Text) : ¬IsBlank (sqlLiteral value) := by
  intro h
  have hquote := h '\'' (by simp [sqlLiteral, Text.ofString_eq])
  revert hquote
  decide

namespace DefaultValue

/-- Backticks around blanks or nothing. -/
def IsEmptyExpression (value : Text) : Prop := ∃ inner, IsBlank inner ∧ Text.trim value = '`' :: (inner ++ ['`'])

/-- Nothing is left of a value in backticks if nothing stands between them. -/
theorem isBlank_render_iff {raw : Text} (h : ¬IsBlank raw) (textLike : Bool) :
    IsBlank ((parse raw).render textLike) ↔ IsEmptyExpression raw := by
  have hempty : IsEmptyExpression raw ↔ ∃ inner, IsBlank inner ∧ Text.enclosed? (Text.trim raw) = some ('`', inner) :=
    exists_congr fun inner => and_congr_right fun _ => Text.enclosed?_eq_some_iff.symm
  rw [hempty, parse]
  split
  · rename_i inner henclosed
    rw [henclosed]
    exact iff_of_false (not_isBlank_sqlLiteral inner) (by simp)
  · rename_i inner henclosed
    rw [henclosed]
    exact iff_of_false (not_isBlank_sqlLiteral inner) (by simp)
  · rename_i inner henclosed
    rw [henclosed, render, Text.isBlank_trim_iff]
    simp
  · rename_i hdouble hsingle hbacktick
    refine iff_of_false ?_ fun ⟨inner, _, henclosed⟩ => hbacktick inner henclosed
    cases textLike with
    | true => exact not_isBlank_sqlLiteral _
    | false => exact fun hblank => h (Text.isBlank_trim_iff.mp hblank)

end DefaultValue

/-! ### Tokens -/

namespace ConstraintToken

theorem exists_of_classify_default {token : Text} {v : DefaultValue} (h : classify token = default v) :
    ∃ value, HasValue token "default" value ∧ ¬IsBlank value ∧ .parse value = v := by
  unfold classify at h
  split at h
  · rename_i t hkeyword
    have hspells : Spells token (default v) := keyword?_eq_some_iff.mp (h ▸ hkeyword)
    cases hspells
  · split at h
    · cases h
    · unfold keyed at h
      split at h
      · cases h
      · rename_i written value hcut
        dsimp only at h
        split at h
        · rename_i hkey
          simp only [Bool.and_eq_true, beq_iff_eq, Bool.not_eq_true'] at hkey
          refine ⟨value, ⟨written, hcut, hkey.1⟩, fun hblank => ?_, default.inj h⟩
          rw [Text.allBlank_iff.mpr hblank] at hkey
          cases hkey.2
        · split at h <;> cases h

/-- The value of the first default token that has one. -/
def FirstDefault (tokens : List Text) (value : Text) : Prop :=
  ∃ before token behind, tokens = before ++ token :: behind ∧ HasValue token "default" value ∧ ¬IsBlank value ∧
    ∀ t ∈ before, ∀ v, HasValue t "default" v → IsBlank v

theorem default?_eq_none_iff {token : Text} :
    (classify token).default? = none ↔ ∀ v, HasValue token "default" v → IsBlank v := by
  constructor
  · intro h v hvalue
    by_contra hblank
    rw [classify_of_default hvalue, if_neg hblank] at h
    cases h
  · intro h
    cases hclassify : classify token with
    | default v =>
      obtain ⟨value, hvalue, hblank, -⟩ := exists_of_classify_default hclassify
      exact absurd (h value hvalue) hblank
    | _ => rfl

theorem firstDefault?_eq_some_iff {tokens : List Text} {v : DefaultValue} :
    firstDefault? tokens = some v ↔ ∃ value, FirstDefault tokens value ∧ .parse value = v := by
  rw [firstDefault?, List.findSome?_eq_some_iff]
  constructor
  · rintro ⟨before, token, behind, rfl, hdefault, hbefore⟩
    have hclassify : classify token = default v := by
      cases hclassify : classify token with
      | default v' =>
        rw [hclassify] at hdefault
        exact congrArg default (Option.some.inj hdefault)
      | _ =>
        rw [hclassify] at hdefault
        cases hdefault
    obtain ⟨value, hvalue, hblank, hparse⟩ := exists_of_classify_default hclassify
    exact ⟨value, ⟨before, token, behind, rfl, hvalue, hblank, fun t ht => default?_eq_none_iff.mp (hbefore t ht)⟩,
      hparse⟩
  · rintro ⟨value, ⟨before, token, behind, rfl, hvalue, hblank, hbefore⟩, rfl⟩
    refine ⟨before, token, behind, rfl, ?_, fun t ht => default?_eq_none_iff.mpr (hbefore t ht)⟩
    rw [classify_of_default hvalue, if_neg hblank]
    rfl

end ConstraintToken

/-! ### Lists -/

namespace ConstraintSet
open ConstraintToken

theorem default?_readConstraints {list : Text} {v : DefaultValue} :
    (ofTokens (readConstraints list)).default? = some v ↔
      ∃ value, FirstDefault (splitTokens list) value ∧ .parse value = v := by
  rw [readConstraints, ofTokens_classify]
  exact firstDefault?_eq_some_iff

/-- The clause of a default is `DEFAULT` and the default, and no other clause begins with this word. -/
theorem default_mem_clauses {set : ConstraintSet} {textLike : Bool} {s : Text} :
    ("DEFAULT" : Text) ++ s ∈ set.clauses textLike ↔ ∃ v, set.default? = some v ∧ s = ' ' :: v.render textLike := by
  have hword : ∀ s : Text, ("DEFAULT " : Text) ++ s = ("DEFAULT" : Text) ++ ' ' :: s := by
    intro s
    simp [Text.ofString_eq]
  constructor
  · intro h
    rcases mem_clauses h with hkeyword | ⟨v, hv, heq⟩
    · have hfirst : ∀ keyword ∈ (["PRIMARY KEY", "NOT NULL", "UNIQUE", "AUTOINCREMENT"] : List Text),
          keyword.head? ≠ some 'D' := by decide +kernel
      refine absurd ?_ (hfirst _ hkeyword)
      simp [Text.ofString_eq]
    · rw [hword] at heq
      exact ⟨v, hv, List.append_cancel_left heq⟩
  · rintro ⟨v, hv, rfl⟩
    rw [← hword, clauses, hv]
    simp

/-- The default of a list is the first one that has a value, and its clause is `DEFAULT` and nothing else if and only
    if this value is a pair of backticks with blanks at most between them. A default token without a value is
    unknown. -/
theorem emptyDefault_iff (list : Text) (textLike : Bool) :
    let set := ofTokens (readConstraints list)
    (∀ v, set.default? = some v ↔ ∃ value, FirstDefault (splitTokens list) value ∧ .parse value = v) ∧
      (∀ value, FirstDefault (splitTokens list) value →
        (IsBlank ((DefaultValue.parse value).render textLike) ↔ DefaultValue.IsEmptyExpression value)) ∧
      ((∃ s, IsBlank s ∧ ("DEFAULT" : Text) ++ s ∈ set.clauses textLike) ↔
        ∃ value, FirstDefault (splitTokens list) value ∧ DefaultValue.IsEmptyExpression value) ∧
      ∀ token value, HasValue token "default" value →
        (token ∈ unknownTokens (readConstraints list) ↔ token ∈ splitTokens list ∧ IsBlank value) := by
  intro set
  have hrender : ∀ value, FirstDefault (splitTokens list) value →
      (IsBlank ((DefaultValue.parse value).render textLike) ↔ DefaultValue.IsEmptyExpression value) := by
    rintro value ⟨-, -, -, -, -, hfilled, -⟩
    exact DefaultValue.isBlank_render_iff hfilled textLike
  refine ⟨fun v => default?_readConstraints, hrender, ?_, ?_⟩
  · constructor
    · rintro ⟨s, hs, hclause⟩
      obtain ⟨v, hv, rfl⟩ := default_mem_clauses.mp hclause
      obtain ⟨value, hfirst, rfl⟩ := default?_readConstraints.mp hv
      exact ⟨value, hfirst, (hrender value hfirst).mp (IsBlank.cons.mp hs).2⟩
    · rintro ⟨value, hfirst, hempty⟩
      refine ⟨' ' :: (DefaultValue.parse value).render textLike, ?_, default_mem_clauses.mpr ⟨_, ?_, rfl⟩⟩
      · exact IsBlank.cons.mpr ⟨by decide, (hrender value hfirst).mpr hempty⟩
      · exact default?_readConstraints.mpr ⟨value, hfirst, rfl⟩
  · intro token value hvalue
    rw [readConstraints, unknownTokens_classify, List.mem_filter, decide_eq_true_iff, classify_of_default hvalue]
    by_cases hblank : IsBlank value <;> simp [hblank]

theorem emptyDefault_iff_laterBackticks :
    let list := "default: , DEFAULT : ' ', default: ``".toList
    splitTokens list = ["default:".toList, "DEFAULT : ' '".toList, "default: ``".toList] ∧
      FirstDefault (splitTokens list) " ' '".toList ∧
      ¬(∃ s, IsBlank s ∧ ("DEFAULT" : Text) ++ s ∈ (ofTokens (readConstraints list)).clauses false) ∧
      "default:".toList ∈ unknownTokens (readConstraints list) := by
  intro list
  have htokens : splitTokens list = ["default:".toList, "DEFAULT : ' '".toList, "default: ``".toList] := by
    decide +kernel
  have hcut : Text.cut? ':' "default:".toList = some ("default".toList, []) := by decide +kernel
  have hfirst : FirstDefault (splitTokens list) " ' '".toList := by
    refine ⟨["default:".toList], _, _, htokens, ⟨"DEFAULT ".toList, by decide +kernel, by decide +kernel⟩,
      by decide +kernel, ?_⟩
    rintro t ht v ⟨written, hcut', -⟩
    rw [List.mem_singleton.mp ht, hcut] at hcut'
    cases hcut'
    exact IsBlank.nil
  obtain ⟨hdefault, hrender, hclauses, hunknown⟩ := emptyDefault_iff list false
  have hfilled : ¬DefaultValue.IsEmptyExpression " ' '".toList := by
    rw [← hrender _ hfirst]
    decide +kernel
  refine ⟨htokens, hfirst, fun hempty => ?_, ?_⟩
  · obtain ⟨value, hvalue, hnothing⟩ := hclauses.mp hempty
    have hsame := (hdefault _).mpr ⟨value, hvalue, rfl⟩
    rw [(hdefault _).mpr ⟨_, hfirst, rfl⟩, Option.some_inj] at hsame
    rw [← hrender _ hvalue, ← hsame, hrender _ hfirst] at hnothing
    exact hfilled hnothing
  · exact (hunknown _ [] ⟨_, hcut, by decide +kernel⟩).mpr ⟨htokens ▸ List.mem_cons_self, IsBlank.nil⟩

/-- Backticks around nothing are a default whose clause is `DEFAULT` and a space, and no token is unknown. -/
theorem emptyDefault_backticks :
    let c : Column := ⟨['c'], "int".toList, some "default: ``".toList, 1⟩
    (¬∀ v ∈ c.constraintSet.default?, ∀ textLike, ¬IsBlank (v.render textLike)) ∧
      c.constraintSet.clauses false = ["DEFAULT ".toList] ∧ c.constraintSet.clauses true = ["DEFAULT ".toList] ∧
      c.unknown = [] ∧ c.clause = "c INT DEFAULT ".toList := by
  intro c
  have hdefault : c.constraintSet.default? = some (.expression []) := by decide +kernel
  refine ⟨fun h => h _ hdefault true IsBlank.nil, ?_, ?_, ?_, ?_⟩ <;> decide +kernel

end ConstraintSet
end Schemata
