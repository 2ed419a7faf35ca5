import Schemata.Proofs.Dialect.Findings
import Schemata.Proofs.Text.Words

/-! What becomes of a constraint token. Two readers cut the list of a column into the same tokens: one maps them to
    constraints, the other resolves the references among them. Each token is taken up by one of the two and not by
    the other. For a token with the key `ref` holds a colon, and the words that are constraints hold none. -/

namespace Schemata

/-- What becomes of a token: a meaning for its column, a foreign key, or a skip. -/
inductive TokenFate
  | constraint (meaning : ConstraintToken)
  | foreignKey (reference : Reference)
  | malformedReference
  | unknownConstraint
  deriving DecidableEq, Repr

namespace TokenFate

def constraint? : TokenFate → Option ConstraintToken
  | constraint meaning => some meaning
  | _ => none

def foreignKey? : TokenFate → Option Reference
  | foreignKey r => some r
  | _ => none

end TokenFate

namespace ConstraintToken

/-- Whether a token is a constraint, or a `null` or `note` that is accepted without effect. -/
def isKnown : ConstraintToken → Bool
  | reference _ | unknown _ => false
  | _ => true

def unknown? : ConstraintToken → Option Text
  | unknown text => some text
  | _ => none

end ConstraintToken

namespace Column

/-- The tokens of the column's constraint list. -/
def listTokens (c : Column) : List Text := c.constraints.elim [] splitTokens

/-- What the reader of constraints and the reader of references do with a token of the column, each on its own. -/
inductive Takes (c : Column) (token : Text) : TokenFate → Prop
  | constraint (known : (ConstraintToken.classify token).isKnown = true) :
    Takes c token (.constraint (.classify token))
  | foreignKey {r : Reference} (key : Reference.isToken token = true)
    (resolved : Reference.resolve? c.name token = some r) : Takes c token (.foreignKey r)
  | malformedReference (key : Reference.isToken token = true)
    (unresolved : Reference.resolve? c.name token = none) : Takes c token .malformedReference
  | unknownConstraint (unknown : ConstraintToken.classify token = .unknown token) : Takes c token .unknownConstraint

/-- What becomes of a token of the column. -/
def fate (c : Column) (token : Text) : TokenFate :=
  if Reference.isToken token then
    match Reference.resolve? c.name token with
    | some r => .foreignKey r
    | none => .malformedReference
  else if (ConstraintToken.classify token).isKnown then .constraint (.classify token)
  else .unknownConstraint

end Column

/-! ### Words and keys -/

namespace ConstraintToken

/-- A constraint word holds no colon. -/
theorem keyword?_eq_none {token : Text} (h : ':' ∈ token) : keyword? token = none := by
  obtain ⟨w, hw, hm⟩ := Text.mem_words h (by decide)
  have hphrase : ':' ∈ Text.lower (Text.join " " (Text.words token)) :=
    List.mem_map.mpr ⟨':', Text.mem_join hw hm, by decide⟩
  have hne : ∀ s : String, ':' ∉ s.toList → (Text.lower (Text.join " " (Text.words token)) == (s : Text)) = false := by
    intro s hs
    rw [beq_eq_false_iff_ne]
    intro he
    rw [he, Text.ofString_eq] at hphrase
    exact hs hphrase
  unfold keyword?
  simp only [hne "primary key" (by decide), hne "pk" (by decide), hne "not null" (by decide), hne "unique" (by decide),
    hne "null" (by decide), hne "increment" (by decide), hne "auto_increment" (by decide),
    hne "autoincrement" (by decide), Bool.or_self, Bool.false_eq_true, if_false]

theorem isKnown_of_keyword? {token : Text} {t : ConstraintToken} (h : keyword? token = some t) : t.isKnown = true := by
  dsimp only [keyword?] at h
  repeat' split at h
  all_goals cases h
  all_goals rfl

theorem keyed_cases (token : Text) : (keyed token).isKnown = true ∨ keyed token = unknown token := by
  unfold keyed
  split
  · exact Or.inr rfl
  · dsimp only
    split
    · exact Or.inl rfl
    · split
      · exact Or.inl rfl
      · exact Or.inr rfl

theorem classify_of_isToken {token : Text} (h : Reference.isToken token = true) : classify token = reference token := by
  have hcolon : ':' ∈ token := by
    by_contra hm
    rw [Reference.isToken, Text.cut?_eq_none.mpr hm] at h
    cases h
  rw [classify, keyword?_eq_none hcolon]
  exact if_pos h

theorem classify_cases {token : Text} (h : Reference.isToken token = false) :
    (classify token).isKnown = true ∨ classify token = unknown token := by
  unfold classify
  split
  · rename_i t ht
    exact Or.inl (isKnown_of_keyword? ht)
  · rw [h]
    exact keyed_cases token

theorem eq_of_classify_unknown {token text : Text} (h : classify token = unknown text) : text = token := by
  cases hkey : Reference.isToken token with
  | true =>
    rw [classify_of_isToken hkey] at h
    cases h
  | false =>
    rcases classify_cases hkey with hknown | hunknown
    · rw [h] at hknown
      cases hknown
    · exact unknown.inj (h.symm.trans hunknown)

theorem unknownTokens_classify (tokens : List Text) :
    unknownTokens (tokens.map classify) = tokens.filter fun token => classify token = unknown token := by
  have htoken : ∀ token, (classify token).unknown? =
      Option.guard (fun token => decide (classify token = unknown token)) token := by
    intro token
    cases hclassify : classify token with
    | unknown text =>
      obtain rfl := eq_of_classify_unknown hclassify
      simp [Option.guard, hclassify, unknown?]
    | _ => simp [Option.guard, hclassify, unknown?]
  show (tokens.map classify).filterMap unknown? = _
  rw [List.filterMap_map, ← List.filterMap_eq_filter]
  exact congrArg (List.filterMap · tokens) (funext htoken)

end ConstraintToken

/-! ### One fate for each token -/

namespace Column
variable (c : Column)

theorem takes_fate (token : Text) : c.Takes token (c.fate token) := by
  unfold fate
  split
  · rename_i hkey
    split
    · rename_i r hr
      exact .foreignKey hkey hr
    · rename_i hr
      exact .malformedReference hkey hr
  · rename_i hkey
    split
    · rename_i hknown
      exact .constraint hknown
    · rename_i hknown
      rcases ConstraintToken.classify_cases (Bool.not_eq_true _ ▸ hkey) with h | h
      · exact absurd h hknown
      · exact .unknownConstraint h

theorem fate_of_takes {token : Text} {f : TokenFate} (h : c.Takes token f) : c.fate token = f := by
  have hother : ∀ t, ConstraintToken.classify token = t → (∀ text, t ≠ .reference text) →
      Reference.isToken token = false := fun t ht hne => by
    cases hkey : Reference.isToken token with
    | false => rfl
    | true => exact absurd (ht ▸ ConstraintToken.classify_of_isToken hkey) (hne token)
  cases h with
  | constraint known =>
    have hkey := hother _ rfl fun text he => by
      rw [he] at known
      cases known
    simp [fate, hkey, known]
  | foreignKey key resolved => simp [fate, key, resolved]
  | malformedReference key unresolved => simp [fate, key, unresolved]
  | unknownConstraint unknown =>
    have hkey := hother _ unknown fun _ he => by cases he
    simp [fate, hkey, unknown, ConstraintToken.isKnown]

/-- The readers do one thing with each token. -/
theorem takes_iff {token : Text} {f : TokenFate} : c.Takes token f ↔ f = c.fate token :=
  ⟨fun h => (c.fate_of_takes h).symm, fun h => h ▸ c.takes_fate token⟩

/-! ### The tokens of a column by their fate -/

theorem tokens_eq : c.tokens = c.listTokens.map .classify := by
  unfold tokens listTokens
  cases c.constraints <;> rfl

theorem referenceTokens_eq : c.referenceTokens = c.listTokens.filter Reference.isToken := rfl

theorem unknown_eq : c.unknown = c.listTokens.filter fun token => c.fate token = .unknownConstraint := by
  rw [unknown, tokens_eq, ConstraintToken.unknownTokens_classify]
  refine List.filter_congr fun token _ => decide_eq_decide.mpr ?_
  rw [eq_comm (a := c.fate token), ← takes_iff]
  exact ⟨.unknownConstraint, fun h => by cases h; assumption⟩

/-- The constraints of a column are the meanings of its tokens. -/
theorem constraintSet_eq :
    c.constraintSet = .ofTokens (c.listTokens.filterMap fun token => (c.fate token).constraint?) := by
  have htoken : ∀ (set : ConstraintSet) token,
      set.add (.classify token) = (c.fate token).constraint?.elim set set.add := fun set token => by
    have hfate := c.takes_fate token
    generalize c.fate token = f at hfate ⊢
    cases hfate with
    | constraint known => rfl
    | foreignKey key resolved =>
      rw [ConstraintToken.classify_of_isToken key]
      rfl
    | malformedReference key unresolved =>
      rw [ConstraintToken.classify_of_isToken key]
      rfl
    | unknownConstraint unknown =>
      rw [unknown]
      rfl
  rw [constraintSet, ConstraintSet.ofTokens, ConstraintSet.ofTokens, tokens_eq, List.foldl_map, List.foldl_filterMap]
  congr 1
  funext set token
  rw [htoken]
  cases (c.fate token).constraint? <;> rfl

theorem resolved_eq :
    c.referenceTokens.filterMap (Reference.resolve? c.name) =
      c.listTokens.filterMap fun token => (c.fate token).foreignKey? := by
  rw [referenceTokens_eq, List.filterMap_filter]
  congr 1
  funext token
  unfold fate
  split
  · cases Reference.resolve? c.name token <;> rfl
  · split <;> rfl

theorem malformedReferences_eq (table : Text) :
    Body.malformedReferences table c =
      (c.listTokens.filter fun token => c.fate token = .malformedReference).map fun token =>
        ⟨.malformedReference, c.line, token, some table⟩ := by
  rw [Body.malformedReferences, referenceTokens_eq, List.filter_filter]
  congr 2
  funext token
  unfold fate
  cases Reference.isToken token with
  | true => cases Reference.resolve? c.name token <;> simp
  | false => cases (ConstraintToken.classify token).isKnown <;> simp

end Column
end Schemata
