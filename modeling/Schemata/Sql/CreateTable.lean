import Schemata.Sql.Database

/-! Reading one `CREATE TABLE` statement against a database, token by token. A part of a statement (the table's name,
    a column with its type, a key) takes effect when a token shows that the part is complete. If that token does not
    fit behind the part, its own error stands before any error of the part. -/

namespace Schemata.Sql

/-! ### Parts that wait to take effect -/

/-- A foreign key as read so far. A key that is part of a column has no columns of its own. -/
structure KeyDraft where
  columns : Option (List Text)
  table : Token
  remote : List Text
  deriving DecidableEq, Repr

/-- A complete part of a statement. -/
inductive Part
  /-- The table's name; `lenient` if an existing table is left as it is. -/
  | name (token : Token) (lenient : Bool)
  /-- A column; `integer` if its type is just `INTEGER`. -/
  | column (name : Text) (integer : Bool)
  | primaryKey (autoIncrement : Bool)
  | foreignKey (key : KeyDraft)
  /-- A key of columns that are named behind them. -/
  | tableKey (primary : Bool) (columns : List Token)
  | option (name : Text)
  deriving DecidableEq, Repr

/-- What the parts so far describe: nothing yet, a table that exists and is left as it is, or a new table. `integer`
    tells of the last column, and `hasKey` whether a column is the primary key. -/
inductive Draft
  | unnamed
  | existing
  | fresh (table : Table) (integer hasKey : Bool)
  deriving DecidableEq, Repr

namespace Draft

def isReservedName (name : Text) : Bool := Text.sameFolded (name.take 7) "sqlite_"

/-- The columns of a foreign key with the remote ones, as declared. -/
def pairColumns (t : Table) : List Text → List (Option Text) → Except SqlError (List (Text × Option Text))
  | column :: columns, remote :: remotes =>
    match t.column? column with
    | some declared => (pairColumns t columns remotes).map ((declared, remote) :: ·)
    | none => .error (.unknownKeyColumn column)
  | _, _ => .ok []

/-- A foreign key of the table, whose last column has the reference if the key names no columns. -/
def key (t : Table) (k : KeyDraft) : Except SqlError TableKey :=
  match k.columns with
  | none =>
    let column := t.columns.getLastD []
    if k.remote.length > 1 then .error (.wideColumnKey column k.table)
    else .ok ⟨k.table.name?.getD [], [(column, k.remote.head?)]⟩
  | some columns =>
    if !k.remote.isEmpty && k.remote.length != columns.length then .error .unevenKey
    else
      let remotes := if k.remote.isEmpty then columns.map fun _ => none else k.remote.map some
      (pairColumns t columns remotes).map fun pairs => ⟨k.table.name?.getD [], pairs⟩

/-- What a statement describes once a part takes effect. -/
def apply (db : Database) (d : Draft) : Part → Except SqlError Draft
  | .name token lenient =>
    let name := token.name?.getD []
    if isReservedName name then .error (.reservedName name)
    else if !db.readable then .error .notADatabase
    else match db.table? name with
      | some _ => if lenient then .ok existing else .error (.tableExists token)
      | none => .ok (fresh ⟨name, [], []⟩ false false)
  | .column name integer =>
    match d with
    | fresh t _ hasKey =>
      if (t.column? name).isSome then .error (.duplicateColumn name)
      else .ok (fresh { t with columns := t.columns ++ [name] } integer hasKey)
    | _ => .ok d
  | .primaryKey autoIncrement =>
    match d with
    | fresh t integer hasKey =>
      if hasKey then .error (.secondPrimaryKey t.name)
      else if autoIncrement && !integer then .error .autoIncrementType
      else .ok (fresh t integer true)
    | _ => .ok d
  | .foreignKey k =>
    match d with
    | fresh t integer hasKey => (key t k).map fun key => fresh { t with keys := t.keys ++ [key] } integer hasKey
    | _ => .ok d
  | .tableKey primary columns =>
    match d with
    | fresh t integer hasKey =>
      if primary && hasKey then .error (.secondPrimaryKey t.name)
      else match columns.find? fun c => (t.column? (c.name?.getD [])).isNone with
        | some c => .error (.unknownColumn c)
        | none => .ok (fresh t integer (hasKey || primary))
    | _ => .ok d
  | .option name => .error (.unknownOption name)

end Draft

/-! ### What may come next -/

/-- Where the reading stands, by what is expected next. -/
inductive Place
  | statement
  /-- Behind `CREATE`. -/
  | create
  /-- Behind `TABLE`. -/
  | table
  /-- Behind `IF`. -/
  | ifWord
  /-- Behind `IF NOT`. -/
  | ifNot
  /-- A table name that must come. -/
  | tableName
  /-- Behind the table's name. -/
  | named
  /-- A column that must come. -/
  | firstColumn
  /-- A further column or a table constraint. -/
  | item
  /-- Behind a column's name and the words of its type. -/
  | typed (column : Text) (words : List Text)
  /-- Inside the size of a type: `second` behind its comma, `signed` behind a sign. -/
  | size (column : Text) (second signed : Bool)
  /-- Behind a number of a size. -/
  | sized (column : Text) (second : Bool)
  /-- Behind a column or one of its constraints. -/
  | constraints
  | primary
  /-- Behind `PRIMARY KEY`. -/
  | key
  | notWord
  | defaultWord
  /-- Behind `DEFAULT` and a sign. -/
  | signedDefault
  /-- Behind `REFERENCES`. -/
  | references (columns : Option (List Text))
  /-- Behind the remote table. -/
  | remoteTable (key : KeyDraft)
  /-- Inside the remote columns: before a name or behind one. -/
  | remote (key : KeyDraft) (named : Bool)
  /-- Behind the remote columns. -/
  | remoteEnd (key : KeyDraft)
  | foreignWord
  /-- Behind `FOREIGN KEY`. -/
  | foreignKey
  /-- Inside the columns of a key: before a name or behind one. -/
  | keyColumns (columns : List Text) (named : Bool)
  /-- Behind the columns of a key. -/
  | keyColumnsEnd (columns : List Text)
  /-- A table constraint that must come. -/
  | tableConstraint
  /-- Behind `PRIMARY` at the start of a table constraint. -/
  | tablePrimary
  /-- Behind `PRIMARY KEY` or `UNIQUE` there. -/
  | tableKey (primary : Bool)
  /-- Inside the columns of such a key: before a name or behind one. -/
  | tableKeyColumns (primary : Bool) (columns : List Token) (named : Bool)
  /-- Behind a table constraint that is complete. -/
  | constraintEnd
  /-- Behind `CHECK` or `AS`. -/
  | check
  /-- Inside a clause that is not read. -/
  | unread
  /-- Behind `CONSTRAINT` in a column. -/
  | constraintName
  /-- Behind `CONSTRAINT` there. -/
  | constraintWord
  /-- Behind the closing parenthesis. -/
  | closed
  /-- Behind a comma that follows it. -/
  | closedComma
  /-- Behind a word that follows it. -/
  | option
  /-- Behind the semicolon. -/
  | finished
  deriving DecidableEq, Repr

/-- Where a token leads, and the part that waits from there on. A token either completes the part that waited, or
    continues it. -/
structure Move where
  place : Place
  part : Option Part
  completes : Bool
  deriving DecidableEq, Repr

namespace Place

/-- A move that completes what waited. -/
def goTo (p : Place) (part : Option Part := none) : Option Move := some ⟨p, part, true⟩

/-- A move that continues what waited. -/
def extend (p : Place) (part : Option Part := none) : Option Move := some ⟨p, part, false⟩

/-- Whether the words of a type are the one word `INTEGER`. -/
def isInteger : List Text → Bool
  | [word] => Text.sameFolded word "integer"
  | _ => false

/-- Behind a column: one of its constraints, a comma, or the end of the list. -/
def behindColumn (t : Token) : Option Move :=
  if t.isWord "primary" then goTo primary
  else if t.isWord "not" then goTo notWord
  else if t.isWord "null" || t.isWord "unique" then goTo constraints
  else if t.isWord "default" then goTo defaultWord
  else if t.isWord "references" then goTo (references none)
  else if t.isWord "deferrable" then goTo constraints
  else if t.isWord "constraint" then goTo constraintName
  else if t.isWord "check" || t.isWord "as" then goTo check
  else if t.isWord "collate" || t.isWord "generated" then goTo unread
  else if t.isSign "," then goTo item
  else if t.isSign ")" then goTo closed
  else none

/-- The first word of a table constraint. -/
def constraintStart (t : Token) : Option Move :=
  if t.isWord "foreign" then goTo foreignWord
  else if t.isWord "primary" then goTo tablePrimary
  else if t.isWord "unique" then goTo (tableKey false)
  else if t.isWord "check" then goTo check
  else if t.isWord "constraint" then goTo constraintWord
  else none

/-- Behind a table constraint: another one, with or without a comma, or the end of the list. -/
def behindConstraint (t : Token) : Option Move :=
  if t.isSign "," then goTo tableConstraint else if t.isSign ")" then goTo closed else constraintStart t

/-- Behind a foreign key. -/
def behindKey (k : KeyDraft) (t : Token) : Option Move :=
  if k.columns.isSome then behindConstraint t else behindColumn t

/-- The column that a token names. -/
def column (t : Token) : Option Move := t.name?.bind fun name => goTo (typed name []) (some (.column name false))

def nextOf (p : Place) (t : Token) : Option Move :=
  match p with
  | statement => if t.isSign ";" then goTo statement else if t.isWord "create" then goTo create else none
  | create => if t.isWord "table" then goTo table else none
  | table =>
    if t.isWord "if" then goTo ifWord else t.name?.bind fun _ => goTo named (some (.name t false))
  | ifWord => if t.isWord "not" then goTo ifNot else none
  | ifNot => if t.isWord "exists" then goTo tableName else none
  | tableName => t.name?.bind fun _ => goTo named (some (.name t true))
  | named => if t.isSign "(" then goTo firstColumn else none
  | firstColumn => column t
  | item => constraintStart t <|> column t
  | typed name words =>
    match t.typeName? with
    | some word => extend (typed name (words ++ [word])) (some (.column name (isInteger (words ++ [word]))))
    | none => if t.isSign "(" && !words.isEmpty then extend (size name false false) else behindColumn t
  | size name second signed =>
    if t.kind == .number then goTo (sized name second)
    else if !signed && (t.isSign "+" || t.isSign "-") then goTo (size name second true)
    else none
  | sized name second =>
    if t.isSign ")" then goTo constraints (some (.column name false))
    else if !second && t.isSign "," then goTo (size name true false)
    else none
  | constraints => behindColumn t
  | primary => if t.isWord "key" then goTo key (some (.primaryKey false)) else none
  | key => if t.isWord "autoincrement" then extend constraints (some (.primaryKey true)) else behindColumn t
  | notWord => if t.isWord "null" || t.isWord "deferrable" then goTo constraints else none
  | defaultWord =>
    if t.isSign "+" || t.isSign "-" then goTo signedDefault
    else if t.isLiteral || t.typeName?.isSome || t.isWord "indexed" then goTo constraints
    else none
  | signedDefault => if t.isLiteral then goTo constraints else none
  | references columns =>
    t.name?.bind fun _ =>
      let k : KeyDraft := ⟨columns, t, []⟩
      goTo (remoteTable k) (some (.foreignKey k))
  | remoteTable k => if t.isSign "(" then extend (remote k false) else behindKey k t
  | remote k false => t.name?.bind fun name => goTo (remote { k with remote := k.remote ++ [name] } true)
  | remote k true =>
    if t.isSign ")" then goTo (remoteEnd k) (some (.foreignKey k))
    else if t.isSign "," then goTo (remote k false)
    else none
  | remoteEnd k => behindKey k t
  | foreignWord => if t.isWord "key" then goTo foreignKey else none
  | foreignKey => if t.isSign "(" then goTo (keyColumns [] false) else none
  | keyColumns columns false => t.name?.bind fun name => goTo (keyColumns (columns ++ [name]) true)
  | keyColumns columns true =>
    if t.isSign ")" then goTo (keyColumnsEnd columns)
    else if t.isSign "," then goTo (keyColumns columns false)
    else none
  | keyColumnsEnd columns => if t.isWord "references" then goTo (references (some columns)) else none
  | tableConstraint => constraintStart t
  | tablePrimary => if t.isWord "key" then goTo (tableKey true) else none
  | tableKey isPrimary => if t.isSign "(" then goTo (tableKeyColumns isPrimary [] false) else none
  | tableKeyColumns isPrimary columns false =>
    t.name?.bind fun _ => goTo (tableKeyColumns isPrimary (columns ++ [t]) true)
  | tableKeyColumns isPrimary columns true =>
    if t.isSign ")" then goTo constraintEnd (some (.tableKey isPrimary columns))
    else if t.isSign "," then goTo (tableKeyColumns isPrimary columns false)
    else none
  | constraintEnd => behindConstraint t
  | check => if t.isSign "(" then goTo unread else none
  | unread => none
  | constraintName => t.name?.bind fun _ => goTo constraints
  | constraintWord => t.name?.bind fun _ => goTo constraintEnd
  | closed =>
    if t.isSign ";" then goTo finished
    else if t.isSign "," then goTo closedComma
    else t.name?.bind fun _ => goTo option (some (.option t.text))
  | closedComma => t.name?.bind fun _ => goTo option (some (.option t.text))
  | option => if t.isSign ";" || t.isSign "," then goTo finished else none
  | finished => none

end Place

/-! ### Reading a statement -/

/-- The reading of a statement: where it stands, the part that waits, and what the parts so far describe. -/
structure Reading where
  place : Place
  part : Option Part
  draft : Draft
  deriving DecidableEq, Repr

namespace Reading

def start : Reading := ⟨.statement, none, .unnamed⟩

/-- Lets the waiting part take effect. -/
def complete (db : Database) (r : Reading) : Except SqlError Draft :=
  match r.part with
  | some part => r.draft.apply db part
  | none => .ok r.draft

def step (db : Database) (r : Reading) (t : Token) : Except SqlError Reading :=
  if t.kind == .bad then .error (.unrecognized t)
  else match r.place.nextOf t with
    | none => .error (.near t)
    | some m =>
      if m.completes then (r.complete db).map fun draft => ⟨m.place, m.part, draft⟩
      else .ok ⟨m.place, m.part, r.draft⟩

/-- The semicolon that the end of a text stands for. -/
def endToken : Token := ⟨.symbol, ";", 0⟩

end Reading

/-- What a statement describes, the tokens behind it, and where the text behind it starts. -/
structure Ending where
  draft : Draft
  rest : List Token
  stop : Nat
  deriving DecidableEq, Repr

namespace Reading

/-- Reads up to the end of one statement. A text that ends is read as if a semicolon ended it; if none fits there,
    the text is cut short. -/
def run (db : Database) (r : Reading) : List Token → Except SqlError Ending
  | [] =>
    if r.place == .statement then .ok ⟨.unnamed, [], 0⟩
    else match r.place.nextOf endToken with
      | none => .error .incomplete
      | some _ => (r.complete db).map fun draft => ⟨draft, [], 0⟩
  | t :: rest =>
    match r.step db t with
    | .error e => .error e
    | .ok next => if next.place == .finished then .ok ⟨next.draft, rest, t.start + t.text.length⟩ else run db next rest

end Reading
end Schemata.Sql
