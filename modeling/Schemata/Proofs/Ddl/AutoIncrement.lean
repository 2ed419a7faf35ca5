import Schemata.Proofs.Dialect.ConstraintSets
import Schemata.Proofs.Ddl.Clauses

/-! Auto-increment keys. Their type becomes `INTEGER`, whatever integer type is declared. The other clauses of the
    column stand between `PRIMARY KEY` and `AUTOINCREMENT`, so the clause begins as the store reads such keys only if
    the list asks for none of them. -/

namespace Schemata

/-! ### The clauses of a key -/

namespace ConstraintSet
variable {set : ConstraintSet} {textLike : Bool} {clause : Text}

/-- The clauses between `PRIMARY KEY` and `AUTOINCREMENT`. -/
def inner (set : ConstraintSet) (textLike : Bool) : List Text :=
  clauses.word set.notNull "NOT NULL" ++ clauses.word set.unique "UNIQUE" ++
    (set.default?.map fun value => ("DEFAULT " : Text) ++ value.render textLike).toList

theorem clauses_of_key (hkey : set.primaryKey = true) (hauto : set.autoIncrement = true) :
    set.clauses textLike = ("PRIMARY KEY" : Text) :: (set.inner textLike ++ [("AUTOINCREMENT" : Text)]) := by
  simp [clauses, inner, clauses.word, hkey, hauto]

theorem mem_inner (h : clause ∈ set.inner textLike) :
    clause = "NOT NULL" ∨ clause = "UNIQUE" ∨ ∃ value ∈ set.default?, clause = "DEFAULT " ++ value.render textLike := by
  simp only [inner, List.mem_append] at h
  rcases h with (h | h) | h
  · exact .inl (eq_of_mem_word h)
  · exact .inr (.inl (eq_of_mem_word h))
  · obtain ⟨value, hvalue, rfl⟩ := Option.map_eq_some_iff.mp (Option.mem_toList.mp h)
    exact .inr (.inr ⟨value, hvalue, rfl⟩)

/-- None of the inner clauses starts as `AUTOINCREMENT` does. -/
theorem head?_of_mem_inner (h : clause ∈ set.inner textLike) : ∃ c rest, clause = c :: rest ∧ c ≠ 'A' := by
  rcases mem_inner h with rfl | rfl | ⟨value, -, rfl⟩
  · rw [Text.ofString_eq]
    exact ⟨_, _, rfl, by decide⟩
  · rw [Text.ofString_eq]
    exact ⟨_, _, rfl, by decide⟩
  · rw [Text.ofString_eq]
    exact ⟨'D', _, rfl, by decide⟩

/-- There are no inner clauses just if no token asks for one. -/
theorem inner_eq_nil_iff {tokens : List ConstraintToken} :
    (ofTokens tokens).inner textLike = [] ↔
      .notNull ∉ tokens ∧ .unique ∉ tokens ∧ ∀ value, .default value ∉ tokens := by
  have hdefault : tokens.findSome? ConstraintToken.default? = none ↔ ∀ value, .default value ∉ tokens := by
    rw [List.findSome?_eq_none_iff]
    constructor
    · intro h value hm
      cases h _ hm
    · intro h t ht
      cases t with
      | default value => exact absurd ht (h value)
      | _ => rfl
  rw [← hdefault, ofTokens_eq]
  simp [inner, clauses.word]

end ConstraintSet

/-! ### The clause of the column -/

namespace Column
variable {c : Column}

/-- A column of an integer type whose list holds the tokens of a primary key and of auto-increment. -/
structure IsAutoIncrementKey (c : Column) : Prop where
  primaryKey : .primaryKey ∈ c.tokens
  autoIncrement : .autoIncrement ∈ c.tokens
  integer : baseType c.declaredType ∈ integerTypes

namespace IsAutoIncrementKey

theorem sets (h : c.IsAutoIncrementKey) :
    c.constraintSet.primaryKey = true ∧ c.constraintSet.autoIncrement = true := by
  rw [constraintSet, ConstraintSet.ofTokens_eq]
  exact ⟨List.contains_iff_mem.mpr h.primaryKey, List.contains_iff_mem.mpr h.autoIncrement⟩

theorem sqlType_eq (h : c.IsAutoIncrementKey) : sqlType c.declaredType c.constraintSet = ("INTEGER" : Text) := by
  obtain ⟨hkey, hauto⟩ := h.sets
  rw [sqlType, hkey, hauto, if_pos]
  simpa using h.integer

/-- The clause of an auto-increment key, with the inner clauses one behind the other. -/
theorem clause_eq (h : c.IsAutoIncrementKey) :
    c.clause = c.name ++ " INTEGER PRIMARY KEY" ++
      (c.constraintSet.inner (isTextType c.declaredType)).flatMap (' ' :: ·) ++ " AUTOINCREMENT" := by
  obtain ⟨hkey, hauto⟩ := h.sets
  rw [Column.clause_eq, h.sqlType_eq, ConstraintSet.clauses_of_key hkey hauto]
  simp [Text.ofString_eq]

end IsAutoIncrementKey

/-- The clause of an auto-increment key begins with its name and `INTEGER PRIMARY KEY AUTOINCREMENT` if and only if its
    list holds no token that asks for a clause of its own: these stand between `PRIMARY KEY` and `AUTOINCREMENT`. -/
theorem clause_autoIncrementKey (h : c.IsAutoIncrementKey) :
    c.clause = c.name ++ " INTEGER PRIMARY KEY" ++
        (c.constraintSet.inner (isTextType c.declaredType)).flatMap (' ' :: ·) ++ " AUTOINCREMENT" ∧
      ((c.name ++ " INTEGER PRIMARY KEY AUTOINCREMENT" : Text) <+: c.clause ↔
        .notNull ∉ c.tokens ∧ .unique ∉ c.tokens ∧ ∀ value, .default value ∉ c.tokens) := by
  have hform : c.name ++ (" INTEGER PRIMARY KEY AUTOINCREMENT" : Text) =
      c.name ++ " INTEGER PRIMARY KEY" ++ " AUTOINCREMENT" := by simp [Text.ofString_eq]
  have hnone : c.constraintSet.inner (isTextType c.declaredType) = [] ↔
      .notNull ∉ c.tokens ∧ .unique ∉ c.tokens ∧ ∀ value, .default value ∉ c.tokens :=
    ConstraintSet.inner_eq_nil_iff
  refine ⟨h.clause_eq, ?_⟩
  rw [h.clause_eq, hform, List.append_assoc (c.name ++ _), List.prefix_append_right_inj, ← hnone]
  constructor
  · intro hprefix
    rcases hinner : c.constraintSet.inner (isTextType c.declaredType) with _ | ⟨clause, rest⟩
    · rfl
    · obtain ⟨x, clause, rfl, hx⟩ := ConstraintSet.head?_of_mem_inner (hinner ▸ List.mem_cons_self)
      have hword : (" AUTOINCREMENT" : Text) = ' ' :: 'A' :: "UTOINCREMENT".toList := Text.ofString_eq _
      rw [hinner, List.flatMap_cons, hword] at hprefix
      exact absurd (List.cons_prefix_cons.mp (List.cons_prefix_cons.mp hprefix).2).1 (Ne.symm hx)
  · intro hinner
    simp [hinner]

theorem clause_autoIncrementKey_noted :
    let c : Column := ⟨"id".toList, "bigint".toList, some "note: 'k, not null', Increment, PK".toList, 1⟩
    c.IsAutoIncrementKey ∧ (c.name ++ " INTEGER PRIMARY KEY AUTOINCREMENT" : Text) <+: c.clause := by
  intro c
  have htokens : c.tokens = [.note, .autoIncrement, .primaryKey] := by decide +kernel
  have h : c.IsAutoIncrementKey := ⟨by simp [htokens], by simp [htokens], by decide +kernel⟩
  exact ⟨h, (clause_autoIncrementKey h).2.mpr (by simp [htokens])⟩

/-- With `not null` the clause begins otherwise. -/
theorem clause_autoIncrementKey_notNull :
    let c : Column := ⟨"id".toList, "int".toList, some "pk, increment, not null".toList, 1⟩
    c.IsAutoIncrementKey ∧ c.clause = "id INTEGER PRIMARY KEY NOT NULL AUTOINCREMENT".toList ∧
      ¬(c.name ++ " INTEGER PRIMARY KEY AUTOINCREMENT" : Text) <+: c.clause := by
  refine ⟨⟨?_, ?_, ?_⟩, ?_, ?_⟩ <;> decide +kernel

end Column
end Schemata
