import Mathlib.Logic.Relation
import Schemata.Proofs.Dialect.ConstraintSets
import Schemata.Proofs.Dialect.Phrases
import Schemata.Proofs.Dialect.Splitting

/-! What a constraint list means for the clause of its column. The clause is told from the spelling of the tokens: a
    flag is there if some token spells it, and the default is that of the first default token. So it stays as it is when
    tokens change their places, default tokens apart, when they are repeated or spelled in another case, and when
    tokens without effect come and go. -/

namespace Schemata
namespace ConstraintToken

/-! ### What a list asks for -/

/-- Some token of the list spells the keyword. -/
def Asks (tokens : List Text) (t : ConstraintToken) : Prop := ∃ token ∈ tokens, Spells token t

instance (tokens : List Text) (t : ConstraintToken) : Decidable (Asks tokens t) :=
  inferInstanceAs (Decidable (∃ token ∈ tokens, Spells token t))

/-- The default of the first token that gives one. -/
def firstDefault? (tokens : List Text) : Option DefaultValue := tokens.findSome? fun token => (classify token).default?

theorem contains_classify {t : ConstraintToken} (ht : t ∈ keywords) (tokens : List Text) :
    (tokens.map classify).contains t = decide (Asks tokens t) := by
  rw [Bool.eq_iff_iff, List.contains_iff_mem, List.mem_map, decide_eq_true_iff]
  exact exists_congr fun token => and_congr_right fun _ => classify_eq_iff ht

end ConstraintToken

open ConstraintToken

theorem ConstraintSet.ofTokens_classify (tokens : List Text) :
    ofTokens (tokens.map classify) =
      ⟨decide (Asks tokens .primaryKey), decide (Asks tokens .notNull), decide (Asks tokens .unique),
        firstDefault? tokens, decide (Asks tokens .autoIncrement)⟩ := by
  rw [ofTokens_eq, contains_classify (by decide), contains_classify (by decide), contains_classify (by decide),
    contains_classify (by decide), List.findSome?_map]
  rfl

/-! ### Rewording -/

namespace ConstraintToken

def isDefault (token : Text) : Bool := (classify token).default?.isSome

/-- One change to the tokens of a list that leaves the clause as it is. -/
inductive Reworded : List Text → List Text → Prop
  | permuted {tokens tokens' : List Text} (perm : tokens.Perm tokens')
    (order : tokens.filter isDefault = tokens'.filter isDefault) : Reworded tokens tokens'
  | repeated {before behind : List Text} {token : Text} (again : token ∈ before ++ behind)
    (plain : isDefault token = false) : Reworded (before ++ behind) (before ++ token :: behind)
  | respelled {before behind : List Text} {token token' : Text} {t : ConstraintToken} (keyword : Spells token t)
    (same : folded token = folded token') : Reworded (before ++ token :: behind) (before ++ token' :: behind)
  | inserted {before behind : List Text} {token : Text} (inert : IsInert token) :
    Reworded (before ++ behind) (before ++ token :: behind)

/-! ### What rewording keeps -/

theorem Asks.perm {tokens tokens' : List Text} (h : tokens.Perm tokens') (t : ConstraintToken) :
    Asks tokens t ↔ Asks tokens' t :=
  exists_congr fun _ => and_congr_left fun _ => h.mem_iff

theorem asks_middle (before behind : List Text) (token : Text) (t : ConstraintToken) :
    Asks (before ++ token :: behind) t ↔ Spells token t ∨ Asks (before ++ behind) t := by
  rw [Asks.perm List.perm_middle]
  simp only [Asks, List.mem_cons, or_and_right, exists_or, exists_eq_left]

/-- The first default is that of the default tokens alone. -/
theorem firstDefault?_filter (tokens : List Text) : firstDefault? (tokens.filter isDefault) = firstDefault? tokens := by
  have htoken : ∀ token, (if isDefault token = true then (classify token).default? else none) =
      (classify token).default? := fun token => by
    rw [isDefault]
    cases (classify token).default? <;> rfl
  rw [firstDefault?, firstDefault?, ← List.head?_filterMap, ← List.head?_filterMap, List.filterMap_filter]
  simp only [htoken]

theorem firstDefault?_middle {token : Text} (h : (classify token).default? = none) (before behind : List Text) :
    firstDefault? (before ++ token :: behind) = firstDefault? (before ++ behind) := by
  simp only [firstDefault?, List.findSome?_append, List.findSome?_cons, h]

/-- Nothing without effect spells a keyword but `null`, or gives a default. -/
theorem IsInert.not_spells {token : Text} (h : IsInert token) {t : ConstraintToken} (ht : t ≠ null) :
    ¬Spells token t := by
  intro hspells
  have hclassify := (classify_eq_iff hspells.mem_keywords).mpr hspells
  have hkeyword := hspells.mem_keywords
  rcases h.classify_cases with hinert | hinert | hinert <;> rw [hinert] at hclassify <;> subst hclassify
  · exact ht rfl
  · simp [keywords] at hkeyword
  · simp [keywords] at hkeyword

theorem IsInert.default? {token : Text} (h : IsInert token) : (classify token).default? = none := by
  rcases h.classify_cases with hinert | hinert | hinert <;> rw [hinert] <;> rfl

namespace Reworded
variable {tokens tokens' : List Text}

theorem asks_iff (h : Reworded tokens tokens') {t : ConstraintToken} (ht : t ≠ null) :
    Asks tokens t ↔ Asks tokens' t := by
  cases h with
  | permuted perm order => exact Asks.perm perm t
  | repeated again plain =>
    rw [asks_middle]
    exact ⟨.inr, fun h => h.elim (fun hspells => ⟨_, again, hspells⟩) id⟩
  | respelled keyword same => rw [asks_middle, asks_middle, Spells, same, Spells]
  | inserted inert =>
    rw [asks_middle]
    exact ⟨.inr, fun h => h.resolve_left (inert.not_spells ht)⟩

theorem firstDefault?_eq (h : Reworded tokens tokens') : firstDefault? tokens = firstDefault? tokens' := by
  cases h with
  | permuted perm order => rw [← firstDefault?_filter, order, firstDefault?_filter]
  | repeated again plain =>
    exact (firstDefault?_middle (Option.isNone_iff_eq_none.mp (Option.isSome_eq_false_iff.mp plain)) ..).symm
  | respelled keyword same =>
    simp only [firstDefault?, List.findSome?_append, List.findSome?_cons, keyword.classify_congr same]
  | inserted inert => exact (firstDefault?_middle inert.default? ..).symm

/-- Rewording leaves what the list says as it is. -/
theorem ofTokens_eq (h : Reworded tokens tokens') :
    ConstraintSet.ofTokens (tokens.map classify) = ConstraintSet.ofTokens (tokens'.map classify) := by
  rw [ConstraintSet.ofTokens_classify, ConstraintSet.ofTokens_classify, h.firstDefault?_eq]
  congr 1 <;> exact decide_eq_decide.mpr (h.asks_iff (by simp))

end Reworded

/-- Any number of changes, forth and back, leaves it as it is. -/
theorem ofTokens_eq_of_eqvGen {tokens tokens' : List Text} (h : Relation.EqvGen Reworded tokens tokens') :
    ConstraintSet.ofTokens (tokens.map classify) = ConstraintSet.ofTokens (tokens'.map classify) := by
  induction h with
  | rel _ _ h => exact h.ofTokens_eq
  | refl _ => rfl
  | symm _ _ _ ih => exact ih.symm
  | trans _ _ _ _ _ ih ih' => exact ih.trans ih'

end ConstraintToken

/-! ### The clause of a column -/

/-- The type of a column with these tokens. -/
def askedType (declaredType : Text) (tokens : List Text) : Text :=
  if Asks tokens .primaryKey ∧ Asks tokens .autoIncrement ∧ baseType declaredType ∈ integerTypes then "INTEGER"
  else Text.upper declaredType

/-- The clauses that tokens ask for, in their fixed order. -/
def askedClauses (textLike : Bool) (tokens : List Text) : List Text :=
  asked .primaryKey "PRIMARY KEY" ++ asked .notNull "NOT NULL" ++ asked .unique "UNIQUE" ++
  ((firstDefault? tokens).map fun value => ("DEFAULT " : Text) ++ value.render textLike).toList ++
  asked .autoIncrement "AUTOINCREMENT"
where
  asked (t : ConstraintToken) (clause : Text) : List Text := if Asks tokens t then [clause] else []

theorem sqlType_ofTokens (declaredType : Text) (tokens : List Text) :
    sqlType declaredType (.ofTokens (tokens.map classify)) = askedType declaredType tokens := by
  rw [ConstraintSet.ofTokens_classify, sqlType, askedType]
  simp only [Bool.and_eq_true, decide_eq_true_eq, List.contains_iff_mem, and_assoc]

theorem ConstraintSet.clauses_ofTokens (textLike : Bool) (tokens : List Text) :
    (ofTokens (tokens.map classify)).clauses textLike = askedClauses textLike tokens := by
  rw [ConstraintSet.ofTokens_classify, clauses, askedClauses]
  simp only [clauses.word, askedClauses.asked, decide_eq_true_eq]

namespace Column
variable {c : Column} {tokens : List TokenLayout} (hlist : c.constraints = some (TokenLayout.list tokens))
include hlist

theorem listTokens_list : c.listTokens = tokens.map TokenLayout.token := by
  rw [listTokens, hlist, Option.elim_some, TokenLayout.splitTokens_list]

theorem constraintSet_list : c.constraintSet = .ofTokens ((tokens.map TokenLayout.token).map classify) := by
  rw [constraintSet, tokens_eq, listTokens_list hlist]

theorem clause_list : c.clause =
    Text.join " " (c.name :: askedType c.declaredType (tokens.map TokenLayout.token) ::
      askedClauses (isTextType c.declaredType) (tokens.map TokenLayout.token)) := by
  rw [clause, constraintSet_list hlist, sqlType_ofTokens, ConstraintSet.clauses_ofTokens]

theorem unknown_list : c.unknown =
    (tokens.map TokenLayout.token).filter fun token => classify token = .unknown token := by
  rw [Column.unknown, tokens_eq, listTokens_list hlist, unknownTokens_classify]

omit hlist

/-- The clause of a column is told from what the tokens of its list spell, and stays as it is when the list is
    reworded. -/
theorem clause_meaning (name declaredType : Text) (line : Nat) (tokens : List TokenLayout) :
    let c : Column := ⟨name, declaredType, some (TokenLayout.list tokens), line⟩
    let written := tokens.map TokenLayout.token
    c.clause = Text.join " "
        (name :: askedType declaredType written :: askedClauses (isTextType declaredType) written) ∧
      c.unknown = written.filter (fun token => classify token = .unknown token) ∧
      ∀ (tokens' : List TokenLayout) (line' : Nat), Relation.EqvGen Reworded written (tokens'.map TokenLayout.token) →
        (Column.mk name declaredType (some (TokenLayout.list tokens')) line').clause = c.clause := by
  refine ⟨clause_list rfl, unknown_list rfl, fun tokens' line' hreworded => ?_⟩
  rw [clause, clause, constraintSet_list rfl, constraintSet_list rfl, ofTokens_eq_of_eqvGen hreworded]

theorem clause_meaning_respelled :
    let spaced (token : Text) (h : IsListToken token) : TokenLayout := ⟨[], token, [' '], IsBlank.nil, h, by decide⟩
    let note := spaced "note: 'a, unique'".toList ⟨by decide, by decide, by decide⟩
    let notNull := spaced "NOT\t NULL".toList ⟨by decide, by decide, by decide⟩
    let default := spaced "default: `1,2`".toList ⟨by decide, by decide, by decide⟩
    let respelled := spaced "not null".toList ⟨by decide, by decide, by decide⟩
    TokenLayout.list [note, notNull, default] = "note: 'a, unique' ,NOT\t NULL ,default: `1,2` ".toList ∧
      (Column.mk ['c'] ['t'] (some (TokenLayout.list [default, respelled])) 1).clause =
        (Column.mk ['c'] ['t'] (some (TokenLayout.list [note, notNull, default])) 1).clause := by
  intro spaced note notNull default respelled
  refine ⟨by decide +kernel, (clause_meaning _ _ _ _).2.2 _ _ ?_⟩
  have hnote : Relation.EqvGen Reworded [notNull.token, default.token] [note.token, notNull.token, default.token] :=
    .rel _ _ (@Reworded.inserted [] _ _ (.inr (.inl ⟨_, _, rfl, by decide +kernel⟩)))
  have hplaces : Relation.EqvGen Reworded [notNull.token, default.token] [default.token, notNull.token] :=
    .rel _ _ (.permuted (.swap ..) (by decide +kernel))
  have hspelling : Relation.EqvGen Reworded [default.token, notNull.token] [default.token, respelled.token] :=
    .rel _ _ (@Reworded.respelled [_] [] _ _ .notNull (by decide +kernel) (by decide +kernel))
  exact .trans _ _ _ (.symm _ _ hnote) (.trans _ _ _ hplaces hspelling)

end Column
end Schemata
