import Schemata.Sql.Store
import Schemata.Text.Utf8

/-! Databases as bytes: a header that is no text, and a script that makes the tables again. -/

namespace Schemata.Sql

/-- A name between double quotes, of which those inside are doubled. -/
def quoteName (name : Text) : Text := "\"" ++ name.flatMap (fun c => if c == '"' then ['"', '"'] else [c]) ++ "\""

/-- Names between parentheses. -/
def nameList (names : List Text) : Text := "(" ++ Text.join ", " (names.map quoteName) ++ ")"

namespace Table

/-- A foreign key as a clause of its table. -/
def keyClause (k : TableKey) : Text :=
  let remote := k.columns.filterMap Prod.snd
  let target : Text := if remote.isEmpty then [] else nameList remote
  "FOREIGN KEY " ++ nameList (k.columns.map Prod.fst) ++ " REFERENCES " ++ quoteName k.remoteTable ++ target

/-- The statement that makes a table. -/
def definition (t : Table) : Text :=
  "CREATE TABLE " ++ quoteName t.name ++ "(" ++ Text.join ", " (t.columns.map quoteName ++ t.keys.map keyClause) ++
    ");\n"

end Table

namespace Database

/-- The script that makes a database. -/
def script (db : Database) : Text := db.tables.flatMap Table.definition

/-- What every database file starts with. -/
def fileHeader : Bytes := Utf8.encode "SQLite format 3" ++ [0, 0xFF]

def toBytes (db : Database) : Bytes := fileHeader ++ Utf8.encode db.script

/-- The database that bytes hold, if they start as they must and the script can be executed. -/
def ofBytes? (bytes : Bytes) : Option Database :=
  if fileHeader.isPrefixOf bytes then
    match Utf8.decode? (bytes.drop fileHeader.length) with
    | some script =>
      match connection.executeScript empty script with
      | (.ok (), db) => some db
      | _ => none
    | none => none
  else none

end Database
end Schemata.Sql
