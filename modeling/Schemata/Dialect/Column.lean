import Schemata.Dialect.Constraint

/-! Columns and their clauses in a `CREATE TABLE` statement. -/

namespace Schemata

/-- A declared column: its name, its type with its size, the text in its brackets if it has any, and its line. -/
structure Column where
  name : Text
  declaredType : Text
  constraints : Option Text
  line : Nat
  deriving DecidableEq, Repr

/-- Types whose bare defaults are strings. -/
def textTypes : List Text :=
  ["varchar", "char", "character", "nvarchar", "nchar", "text", "tinytext", "mediumtext", "longtext", "string", "clob"]

/-- Types that become `INTEGER` in an auto-increment key. -/
def integerTypes : List Text := ["int", "integer", "bigint", "smallint", "tinyint", "mediumint"]

/-- A declared type without its size, in lower case. -/
def baseType (declaredType : Text) : Text :=
  Text.lower (Text.trim (declaredType.takeWhile (· != '(')))

def isTextType (declaredType : Text) : Bool := textTypes.contains (baseType declaredType)

/-- The SQL type. The store knows auto-increment only on the type `INTEGER`. -/
def sqlType (declaredType : Text) (set : ConstraintSet) : Text :=
  if set.primaryKey && set.autoIncrement && integerTypes.contains (baseType declaredType) then "INTEGER"
  else Text.upper declaredType

namespace Column

/-- What the column's constraint tokens say, in order. -/
def tokens (c : Column) : List ConstraintToken := c.constraints.elim [] readConstraints

def constraintSet (c : Column) : ConstraintSet := .ofTokens c.tokens

def clause (c : Column) : Text :=
  Text.join " "
    (c.name :: sqlType c.declaredType c.constraintSet :: c.constraintSet.clauses (isTextType c.declaredType))

/-- The constraint tokens without a meaning. -/
def unknown (c : Column) : List Text := unknownTokens c.tokens

/-- The constraint tokens with the key `ref`. -/
def referenceTokens (c : Column) : List Text := (c.constraints.elim [] splitTokens).filter Reference.isToken

end Column
end Schemata
