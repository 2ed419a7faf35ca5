import Schemata.Sql.Token
import Schemata.Store.Sqlite

/-! How a statement is refused. -/

namespace Schemata.Sql

inductive SqlError
  /-- The first token that does not fit. -/
  | near (token : Token)
  | unrecognized (token : Token)
  | incomplete
  | reservedName (name : Text)
  | tableExists (name : Token)
  | duplicateColumn (name : Text)
  | secondPrimaryKey (table : Text)
  | autoIncrementType
  | unknownOption (name : Text)
  /-- A foreign key on a column that the table does not have. -/
  | unknownKeyColumn (name : Text)
  /-- A column's reference to several columns. -/
  | wideColumnKey (column : Text) (table : Token)
  /-- A primary or unique key on a column that the table does not have. -/
  | unknownColumn (column : Token)
  /-- A foreign key whose two column lists differ in length. -/
  | unevenKey
  /-- There is no statement to execute. -/
  | nothing
  /-- A transaction is to end where none is open. -/
  | noTransaction (verb : Text)
  /-- A transaction is to begin where one is open. -/
  | openTransaction
  /-- The pragma is asked for where a table has its name. -/
  | notAFunction (name : Text)
  | notADatabase
  /-- A table whose stored definition cannot be read back. -/
  | unreadableSchema (table : Text)
  deriving DecidableEq, Repr

namespace SqlError

/-- A message that shows where a token stands in the text from `base` on, in bytes. -/
def placed (sql : Text) (base : Nat) (t : Token) (message : Text) : Text :=
  let before := (sql.drop base).take (t.start - base)
  message ++ " in " ++ sql.drop base ++ " at offset " ++ decimal (before.foldl (fun n c => n + c.utf8Size) 0)

/-- The message about a statement that starts at `base`. -/
def message (sql : Text) (base : Nat) : SqlError → Text
  | near t => placed sql base t ("near \"" ++ t.text ++ "\": syntax error")
  | unrecognized t => placed sql base t ("unrecognized token: \"" ++ t.text ++ "\"")
  | incomplete => "incomplete input"
  | reservedName name => "object name reserved for internal use: " ++ name
  | tableExists t => placed sql base t ("table " ++ t.text ++ " already exists")
  | duplicateColumn name => "duplicate column name: " ++ name
  | secondPrimaryKey table => "table \"" ++ table ++ "\" has more than one primary key"
  | autoIncrementType => "AUTOINCREMENT is only allowed on an INTEGER PRIMARY KEY"
  | unknownOption name => "unknown table option: " ++ name
  | unknownKeyColumn name => "unknown column \"" ++ name ++ "\" in foreign key definition"
  | wideColumnKey column table =>
    placed sql base table
      ("foreign key on " ++ column ++ " should reference only one column of table " ++ table.text)
  | unknownColumn t => placed sql base t ("no such column: " ++ t.text)
  | unevenKey =>
    "number of columns in foreign key does not match the number of columns in the referenced table"
  | nothing => "not an error"
  | noTransaction verb => "cannot " ++ verb ++ " - no transaction is active"
  | openTransaction => "cannot start a transaction within a transaction"
  | notAFunction name => "'" ++ name ++ "' is not a function"
  | notADatabase => "file is not a database"
  | unreadableSchema table => "malformed database schema (" ++ table ++ ") - near \"(\": syntax error"

def code : SqlError → Sqlite.ErrorCode
  | notADatabase => .notADatabase
  | unreadableSchema _ => .corrupt
  | _ => .other

/-- The error as it is reported of a statement that starts at `base`. -/
def report (sql : Text) (base : Nat) (e : SqlError) : Sqlite.Error := ⟨e.code, e.message sql base⟩

end SqlError
end Schemata.Sql
