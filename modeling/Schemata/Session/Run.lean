import Schemata.Arguments.Parse
import Schemata.Session.Basic

/-! Running commands in a session: arguments first, then the settings, then the command. A command reads its file
    before it opens the store, and a generator runs before that too. -/

namespace Schemata

/-- Why a run gives no report. -/
inductive RunError
  | usage (e : UsageError)
  | config (e : ConfigError)
  | generator (e : GeneratorError)
  | store (e : StoreError)
  /-- The file of a command cannot be read. -/
  | unreadable (path : Text) (e : ReadError)
  deriving DecidableEq, Repr

def RunError.message : RunError → Text
  | usage e => e.message
  | config e => e.message
  | generator e => e.message
  | store e => e.message
  | unreadable path e => "Failed to read " ++ path ++ ": " ++ e.message

namespace Session

def readSource (s : Session) (path : Text) : Except RunError Text := (s.readText path).mapError (.unreadable path)

/-- Applies a source to a store, and keeps what a database holds then. What a server holds is not part of a session. -/
def apply (s : Session) (c : Connection) (name : Text) (source : Source) : Except RunError ApplyReport × Session :=
  match s.openStore c with
  | .error e => (.error (.store e), s)
  | .ok (.database backend path content, s) =>
    let (report, content) := ApplyReport.collect (Sql.Database.store backend).toStore content name source
    (report.mapError .store, s.save path content)
  | .ok (.server remote, s) =>
    ((ApplyReport.collect remote.store.toStore [] name source).1.mapError .store, s)

/-- Applies the file of a command. -/
def applyFile (s : Session) (c : Connection) (path : Text) (source : Text → Source) :
    Except RunError ApplyReport × Session :=
  match s.readSource path with
  | .error e => (.error e, s)
  | .ok text => s.apply c path (source text)

/-- Generates a schema and applies it, unless the run is a dry one. -/
def generate (s : Session) (settings : Settings) (description : Text) (dryRun : Bool) (line : Option Text) :
    Except RunError GenerateReport × Session :=
  match line.bind GeneratorCommand.ofLine? <|> settings.generator with
  | none => (.error (.generator .notConfigured), s)
  | some command =>
    match (command.generator s.readFile).describe description with
    | .error e => (.error (.generator e), s)
    | .ok text =>
      let source := Source.ofGenerated text
      let report (applied : Option ApplyReport) : GenerateReport :=
        ⟨description, command.command, source.mode, text, dryRun, applied⟩
      if dryRun then (.ok (report none), s)
      else
        let (applied, s) := s.apply settings.database "generated" source
        (applied.map fun r => report (some r), s)

/-- The tables of a store. -/
def tables (s : Session) (c : Connection) : Except RunError TablesReport × Session :=
  match s.openStore c with
  | .error e => (.error (.store e), s)
  | .ok (.database backend _ content, s) =>
    ((TablesReport.collect (Sql.Database.store backend) content).mapError .store, s)
  | .ok (.server remote, s) => ((TablesReport.collect remote.store []).mapError .store, s)

/-- Runs a command with settings, and gives its report as it is printed. -/
def runCommand (s : Session) (settings : Settings) (format : OutputFormat) : Command → Except RunError Text × Session
  | .compile file => ((s.readSource file).map fun text => (CompileReport.mk file (compile text)).render format, s)
  | .apply file =>
    let (report, s) := s.applyFile settings.database file .structured
    (report.map (·.render format), s)
  | .applySql file =>
    let (report, s) := s.applyFile settings.database file .script
    (report.map (·.render format), s)
  | .generate description dryRun line =>
    let (report, s) := s.generate settings description dryRun line
    (report.map (·.render format), s)
  | .tables =>
    let (report, s) := s.tables settings.database
    (report.map (·.render format), s)

/-- Runs a command line. -/
def run (s : Session) (arguments : List Text) : Except RunError Text × Session :=
  match Invocation.parse arguments with
  | .error e => (.error (.usage e), s)
  | .ok invocation =>
    match s.settings invocation.database with
    | .error e => (.error (.config e), s)
    | .ok settings => s.runCommand settings invocation.format invocation.command

end Session
end Schemata
