import Schemata.Dialect.Constraint

/-! What a constraint list says as a whole, told from its tokens: a flag is set if one of the tokens sets it, wherever
    it stands and however often, and of several defaults the first one counts. -/

namespace Schemata

/-- The default that a token gives. -/
def ConstraintToken.default? : ConstraintToken → Option DefaultValue
  | default value => some value
  | _ => none

namespace ConstraintSet

/-- Tokens add to what was said before them. -/
theorem foldl_add (set : ConstraintSet) (tokens : List ConstraintToken) :
    tokens.foldl add set =
      ⟨set.primaryKey || tokens.contains .primaryKey, set.notNull || tokens.contains .notNull,
        set.unique || tokens.contains .unique, set.default? <|> tokens.findSome? ConstraintToken.default?,
        set.autoIncrement || tokens.contains .autoIncrement⟩ := by
  induction tokens generalizing set with
  | nil => simp
  | cons t tokens ih =>
    rw [List.foldl_cons, ih]
    obtain ⟨primaryKey, notNull, unique, default, autoIncrement⟩ := set
    cases t with
    | default value => cases default <;> simp [add, ConstraintToken.default?, List.findSome?_cons]
    | _ => simp [add, ConstraintToken.default?, List.findSome?_cons]

theorem ofTokens_eq (tokens : List ConstraintToken) :
    ofTokens tokens =
      ⟨tokens.contains .primaryKey, tokens.contains .notNull, tokens.contains .unique,
        tokens.findSome? ConstraintToken.default?, tokens.contains .autoIncrement⟩ := by
  rw [ofTokens, foldl_add]
  simp [empty]

end ConstraintSet
end Schemata
