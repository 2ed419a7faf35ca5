import Schemata.Store.Basic

/-! The store that SQLite keeps, over a connection to it. A write has a transaction of its own: it is begun before the
    write and committed behind it, and one that is not committed is dropped. -/

namespace Schemata.Sqlite

/-! ### Connections -/

/-- The kinds of errors that SQLite reports, as far as they are told apart. -/
inductive ErrorCode
  | cannotOpen
  | notADatabase
  | corrupt
  | inputOutput
  | other
  deriving DecidableEq, Repr

structure Error where
  code : ErrorCode
  message : Text
  deriving DecidableEq, Repr

/-- A file that cannot be used is a lost connection, and all else a rejected statement. -/
def Error.classify (e : Error) : StoreError :=
  match e.code with
  | .cannotOpen | .notADatabase | .corrupt | .inputOutput => .connection e.message
  | .other => .statement e.message

/-- A foreign key as the pragma reports it: its column, the remote table, and the remote column if one is named. -/
structure KeyRow where
  column : Text
  remoteTable : Text
  remoteColumn : Option Text
  deriving DecidableEq, Repr

def KeyRow.foreignKey (row : KeyRow) : ForeignKey := ⟨row.column, row.remoteTable, row.remoteColumn.getD []⟩

/-- The name of the pragma that tells the foreign keys of a table. -/
def keyPragma : Text := "pragma_foreign_key_list"

/-- A connection to a database: what it holds between transactions, what it is inside one, and the statements it reads
    in a text. -/
structure Connection (δ τ ι : Type) where
  transaction : δ → Except Error τ
  /-- The first statement of a text, which may be an empty one. -/
  first : Text → ι
  /-- The statements of a script, up to the last that is not empty. -/
  statements : Text → List ι
  execute : τ → ι → Except Error Unit × τ
  commit : τ → Except Error Unit × τ
  /-- What is left when a transaction is dropped, committed or not. -/
  drop : τ → δ
  /-- The names of the tables in the catalogue. -/
  names : δ → Except Error (List Text)
  /-- The rows of the pragma for a table. -/
  keyRows : δ → Text → Except Error (List KeyRow)

/-! ### Patterns -/

/-- Whether a text fits a pattern: a percent sign stands for any number of characters, an underscore for one, and each
    other character for itself, letters in any ASCII case. -/
def like : Text → Text → Bool
  | [], s => s.isEmpty
  | x :: p, s =>
    if x == '%' then (List.range (s.length + 1)).any fun n => like p (s.drop n)
    else s.head?.any (fun c => x == '_' || c.toLower == x.toLower) && like p s.tail

/-- The pattern of the names that are not listed. -/
def hiddenPattern : Text := "sqlite_%"

/-! ### The store -/

namespace Connection
variable {δ τ ι : Type} (c : Connection δ τ ι)

/-- Executes statements in order, up to the first that fails. -/
def executeAll (t : τ) : List ι → Except Error Unit × τ
  | [] => (.ok (), t)
  | st :: rest =>
    match c.execute t st with
    | (.ok (), t') => executeAll t' rest
    | (.error e, t') => (.error e, t')

/-- A write in a transaction of its own. -/
def write (run : τ → Except Error Unit × τ) (s : δ) : Except StoreError Unit × δ :=
  match c.transaction s with
  | .error e => (.error e.classify, s)
  | .ok t =>
    match run t with
    | (.error e, t') => (.error e.classify, c.drop t')
    | (.ok (), t') =>
      match c.commit t' with
      | (.error e, t'') => (.error e.classify, c.drop t'')
      | (.ok (), t'') => (.ok (), c.drop t'')

def executeStatement (s : δ) (sql : Text) : Except StoreError Unit × δ := c.write (c.execute · (c.first sql)) s

def executeScript (s : δ) (script : Text) : Except StoreError Unit × δ :=
  c.write (c.executeAll · (c.statements script)) s

/-- The names of the tables that do not fit the pattern, by their code points. -/
def tableNames (s : δ) : Except StoreError (List Text) :=
  match c.names s with
  | .error e => .error e.classify
  | .ok names => .ok ((names.filter fun name => !like hiddenPattern name).mergeSort Text.upTo)

def foreignKeys (s : δ) (table : Text) : Except StoreError (List ForeignKey) :=
  match c.keyRows s table with
  | .error e => .error e.classify
  | .ok rows => .ok (rows.map KeyRow.foreignKey)

/-- The store over a connection; `backend` tells whether the database is kept in a file or in memory. -/
def store (backend : Text) : SchemaStore δ where
  backend := backend
  executeStatement := c.executeStatement
  executeScript := c.executeScript
  tableNames := c.tableNames
  foreignKeys := c.foreignKeys

end Connection
end Schemata.Sqlite
