import Schemata.Config.Settings
import Schemata.Files.Basic
import Schemata.Sql.Store
import Schemata.Store.Server

/-! A session: a tree of files with a working and a home directory, the variables of the environment, and the client
    that connects to servers. Runs read and change its files, and open stores in them or on a server. -/

namespace Schemata

structure Session where
  files : FileTree
  workingDirectory : Path
  homeDirectory : Path
  environment : Environment
  client : Client

/-- Why a text file cannot be read. -/
inductive ReadError
  | refused (e : OsError)
  | notText
  deriving DecidableEq, Repr

def ReadError.message : ReadError → Text
  | refused e => e.message
  | notText => "stream did not contain valid UTF-8"

/-- Why there is no configuration although there is a file for it. -/
inductive ConfigError
  | unreadable (path : Text) (e : ReadError)
  | invalid (fault : Json.Fault)
  deriving DecidableEq, Repr

def ConfigError.message : ConfigError → Text
  | unreadable path e => "Failed to read " ++ path ++ ": " ++ e.message
  | invalid .cutShort => "The configuration ends too early"
  | invalid .malformed => "The configuration is not JSON"
  | invalid .mistyped => "The configuration has another shape"

namespace Session

/-- A session whose two directories are empty, and whose client reaches no server. -/
def start : Session where
  files := ⟨[["tmp", "session", "work"], ["tmp", "session", "home"]], []⟩
  workingDirectory := ["tmp", "session", "work"]
  homeDirectory := ["tmp", "session", "home"]
  environment := .empty
  client := .unconnected

/-! ### Files -/

def locate (s : Session) (written : Text) : Path := Path.resolve s.workingDirectory written

/-- Writes a file and makes the directories that lead to it. -/
def write (s : Session) (written : Text) (bytes : Bytes) : Session :=
  { s with files := s.files.write (s.locate written) (.bytes bytes) }

/-- What programs see: the files of the session, and behind them what every system has. -/
def readFile (s : Session) : ReadFile := fun written =>
  match s.files.read s.workingDirectory written with
  | .error .notFound => noFiles written
  | result => result

def readText (s : Session) (written : Text) : Except ReadError Text :=
  match s.readFile written with
  | .error e => .error (.refused e)
  | .ok bytes =>
    match Utf8.decode? bytes with
    | some text => .ok text
    | none => .error .notText

/-- The names in the working directory. -/
def list (s : Session) : List Text := s.files.names s.workingDirectory

/-! ### Settings -/

def configName : Text := ".tablewright.json"

/-- Reads the configuration in a directory, if there is one. -/
def configIn (s : Session) (directory : Path) (shown : Text) : Option (Except ConfigError Config) :=
  if s.files.isDirectory (directory ++ [configName]) then some (.error (.unreadable shown (.refused .isADirectory)))
  else match s.files.file? (directory ++ [configName]) with
    | none => none
    | some content =>
      match Utf8.decode? content.toBytes with
      | none => some (.error (.unreadable shown .notText))
      | some text => some ((Config.read text).mapError .invalid)

/-- The configuration: the one in the working directory, or else the one at home. -/
def config (s : Session) : Except ConfigError (Option Config) :=
  let home := ("/" ++ Text.join "/" (s.homeDirectory ++ [configName]))
  match s.configIn s.workingDirectory configName <|> s.configIn s.homeDirectory home with
  | none => .ok none
  | some result => result.map some

def settings (s : Session) (url : Option Text) : Except ConfigError Settings :=
  s.config.map fun config => .resolve url config s.environment

/-! ### Stores -/

/-- An open store: a database with the file it is kept in, if any, or a store on a server. -/
inductive OpenStore
  | database (backend : Text) (path : Option Path) (content : Sql.Database)
  | server (remote : Server)

def OpenStore.backend : OpenStore → Text
  | database backend _ _ => backend
  | server remote => remote.store.backend

/-- Opens the database in a file, which is made if it is missing. Its directory must be there. -/
def openFile (s : Session) (written : Text) : Except StoreError (OpenStore × Session) :=
  if written.isEmpty || written == ":memory:" then .ok (.database Sql.Database.inFile none .empty, s)
  else match written.findIdx? fun c => c.toNat == 0 with
    | some i =>
      let position := decimal (Utf8.encode (written.take i)).length
      .error (.unopened written (OsError.nulInArgument.reason ++ " at position: " ++ position))
    | none =>
      let path := s.locate written
      if s.files.isDirectory path || !s.files.isDirectory path.dropLast then
        .error (.unopened written ("unable to open database file: " ++ written))
      else match s.files.file? path with
        | none =>
          .ok (.database Sql.Database.inFile (some path) .empty, { s with files := s.files.write path (.bytes []) })
        | some (.bytes bytes) =>
          .ok (.database Sql.Database.inFile (some path) (if bytes.isEmpty then .empty else .garbage), s)
        | some (.database db) => .ok (.database Sql.Database.inFile (some path) db, s)

/-- Opens a store. -/
def openStore (s : Session) (c : Connection) : Except StoreError (OpenStore × Session) :=
  match c with
  | .memory => .ok (.database Sql.Database.inMemory none .empty, s)
  | .file path => s.openFile path
  | .server settings =>
    match settings.write with
    | .error e => .error e
    | .ok target => (s.client.connect target).map fun remote => (.server remote, s)

/-- Keeps a database in its file. The file is written when there is a table to keep. -/
def save (s : Session) (path : Option Path) (content : Sql.Database) : Session :=
  match path with
  | none => s
  | some path => if content.tables.isEmpty then s else { s with files := s.files.write path (.database content) }

end Session
end Schemata
