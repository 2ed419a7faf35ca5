import Schemata.Dialect.Default
import Schemata.Dialect.Reference

/-! Constraint lists: how a list is cut into tokens, what each token says, and what a whole list says about its
    column. -/

namespace Schemata

/-! ### Tokens of a list -/

/-- Where the reading of a list stands: outside quotes, at a place where a value may begin or not, or inside a
    quoted value. -/
inductive ListPlace
  | outside (valueStart : Bool)
  | inside (quote : Char)
  deriving DecidableEq, Repr

namespace ListPlace

/-- A quote opens a value only at the start of a token or behind a colon, and is closed by the same character. -/
def next : ListPlace → Char → ListPlace
  | inside q, c => if c == q then outside false else inside q
  | outside valueStart, c =>
    if valueStart && (c == '"' || c == '\'' || c == '`') then inside c
    else if c == ',' || c == ':' then outside true
    else if isBlank c then outside valueStart
    else outside false

/-- A comma separates tokens only outside quotes. -/
def separates : ListPlace → Char → Bool
  | outside _, c => c == ','
  | inside _, _ => false

end ListPlace

/-- The pieces between the commas outside quotes, read from the given place; none if a quoted value stays open. -/
def quotedPieces : ListPlace → Text → Option (List Text)
  | .inside _, [] => none
  | .outside _, [] => some [[]]
  | p, c :: s =>
    if p.separates c then (quotedPieces (p.next c) s).map ([] :: ·)
    else (quotedPieces (p.next c) s).map (List.modifyHead (c :: ·))

/-- The tokens of a constraint list: trimmed and not empty. A list with a quote left open is cut at every comma. -/
def splitTokens (list : Text) : List Text :=
  (((quotedPieces (.outside true) list).getD (list.splitOn ',')).map Text.trim).filter fun t => !t.isEmpty

/-! ### What a token says -/

inductive ConstraintToken
  | primaryKey
  | notNull
  | unique
  | default (value : DefaultValue)
  | autoIncrement
  /-- Accepted, and taken up with the column's references. -/
  | reference (text : Text)
  /-- Accepted without effect. -/
  | null
  /-- Accepted without effect. -/
  | note
  | unknown (text : Text)
  deriving DecidableEq, Repr

namespace ConstraintToken

/-- The tokens that are plain words, up to ASCII case and white space. -/
def keyword? (token : Text) : Option ConstraintToken :=
  let phrase := Text.lower (Text.join " " (Text.words token))
  if phrase == "primary key" || phrase == "pk" then some primaryKey
  else if phrase == "not null" then some notNull
  else if phrase == "unique" then some unique
  else if phrase == "null" then some null
  else if phrase == "increment" || phrase == "auto_increment" || phrase == "autoincrement" then some autoIncrement
  else none

/-- The tokens of the form `key: value`. A default needs a value. -/
def keyed (token : Text) : ConstraintToken :=
  match Text.cut? ':' token with
  | none => unknown token
  | some (key, value) =>
    let key := Text.lower (Text.trim key)
    if key == "default" && !Text.allBlank value then default (.parse value)
    else if key == "note" then note
    else unknown token

def classify (token : Text) : ConstraintToken :=
  match keyword? token with
  | some t => t
  | none => if Reference.isToken token then reference token else keyed token

end ConstraintToken

/-! ### What a list says -/

/-- The constraints of one column. -/
structure ConstraintSet where
  primaryKey : Bool
  notNull : Bool
  unique : Bool
  default? : Option DefaultValue
  autoIncrement : Bool
  deriving DecidableEq, Repr

namespace ConstraintSet

def empty : ConstraintSet := ⟨false, false, false, none, false⟩

/-- Adds what one token says. The first default stays. -/
def add (set : ConstraintSet) : ConstraintToken → ConstraintSet
  | .primaryKey => { set with primaryKey := true }
  | .notNull => { set with notNull := true }
  | .unique => { set with unique := true }
  | .default value => { set with default? := set.default? <|> some value }
  | .autoIncrement => { set with autoIncrement := true }
  | .reference _ | .null | .note | .unknown _ => set

def ofTokens (tokens : List ConstraintToken) : ConstraintSet := tokens.foldl add empty

/-- The clauses in their fixed order. -/
def clauses (set : ConstraintSet) (textLike : Bool) : List Text :=
  word set.primaryKey "PRIMARY KEY" ++ word set.notNull "NOT NULL" ++ word set.unique "UNIQUE" ++
  (set.default?.map fun value => ("DEFAULT " : Text) ++ value.render textLike).toList ++
  word set.autoIncrement "AUTOINCREMENT"
where
  word (present : Bool) (clause : Text) : List Text := if present then [clause] else []

end ConstraintSet

/-- What the tokens of a constraint list say, in order. -/
def readConstraints (list : Text) : List ConstraintToken := (splitTokens list).map .classify

/-- The tokens that say nothing known. -/
def unknownTokens (tokens : List ConstraintToken) : List Text :=
  tokens.filterMap fun
    | .unknown text => some text
    | _ => none

end Schemata
