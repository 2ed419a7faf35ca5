import Schemata.Report

/-! The parameters of the command line: how they are written, and the values they take. -/

namespace Schemata

inductive Parameter
  | database
  | format
  | verbose
  | quiet
  | file
  | description
  | dryRun
  | generatorCommand
  | help
  | version
  deriving DecidableEq, Repr

/-- Why arguments are not run. -/
inductive UsageError
  | noArguments
  | noCommand
  | helpWanted
  | versionWanted
  | unknownCommand
  | unknownArgument
  | invalidValue
  /-- A parameter that is given twice, or that excludes another. -/
  | conflict
  /-- A value for a parameter that takes none. -/
  | unwantedValue
  | missingParameter
  deriving DecidableEq, Repr

/-- What is said about arguments that are not run. -/
def UsageError.message : UsageError → Text
  | noArguments | helpWanted =>
    ("usage: schemata [--db URL] [-o table|json|toon] [-v] [-q] COMMAND\n" : Text) ++
      "commands: compile -f FILE, apply -f FILE, apply-sql -f FILE, tables,\n" ++
      "  generate -d TEXT [--dry-run] [--generator-cmd LINE]"
  | versionWanted => "schemata 0.1.0"
  | noCommand => "a command is missing"
  | unknownCommand => "there is no such command"
  | unknownArgument => "there is no such argument"
  | invalidValue => "a value is missing or not allowed"
  | conflict => "an argument is given twice or excludes another"
  | unwantedValue => "an argument takes no value"
  | missingParameter => "a required argument is missing"

def OutputFormat.name : OutputFormat → Text
  | table => "table"
  | json => "json"
  | toon => "toon"

def OutputFormat.ofName? (s : Text) : Option OutputFormat := [table, json, toon].find? fun f => f.name == s

namespace Parameter

/-- The name behind two dashes. -/
def long : Parameter → Text
  | database => "db"
  | format => "format"
  | verbose => "verbose"
  | quiet => "quiet"
  | file => "file"
  | description => "description"
  | dryRun => "dry-run"
  | generatorCommand => "generator-cmd"
  | help => "help"
  | version => "version"

/-- The letter behind one dash. -/
def short : Parameter → Option Char
  | format => some 'o'
  | verbose => some 'v'
  | quiet => some 'q'
  | file => some 'f'
  | description => some 'd'
  | help => some 'h'
  | version => some 'V'
  | database | dryRun | generatorCommand => none

def takesValue : Parameter → Bool
  | database | format | file | description | generatorCommand => true
  | verbose | quiet | dryRun | help | version => false

/-- Whether a value is allowed. -/
def accepts (p : Parameter) (value : Text) : Bool :=
  match p with
  | format => (OutputFormat.ofName? value).isSome
  | file | description => !value.isEmpty
  | _ => true

/-- The parameters that may stand before a command and behind it. -/
def shared : List Parameter := [database, format, verbose, quiet, help]

end Parameter

inductive CommandName
  | compile
  | apply
  | applySql
  | generate
  | tables
  deriving DecidableEq, Repr

namespace CommandName

def name : CommandName → Text
  | compile => "compile"
  | apply => "apply"
  | applySql => "apply-sql"
  | generate => "generate"
  | tables => "tables"

def ofName? (s : Text) : Option CommandName := [compile, apply, applySql, generate, tables].find? fun c => c.name == s

/-- The parameters of a command that must be given. -/
def required : CommandName → List Parameter
  | compile | apply | applySql => [.file]
  | generate => [.description]
  | tables => []

/-- The parameters of a command. -/
def parameters : CommandName → List Parameter
  | generate => [.description, .dryRun, .generatorCommand]
  | command => command.required

end CommandName

/-- A command with its parameters. -/
inductive Command
  | compile (file : Text)
  | apply (file : Text)
  | applySql (file : Text)
  | generate (description : Text) (dryRun : Bool) (generatorLine : Option Text)
  | tables
  deriving DecidableEq, Repr

/-- What the arguments ask for. -/
structure Invocation where
  database : Option Text
  format : OutputFormat
  verbose : Bool
  quiet : Bool
  command : Command
  deriving DecidableEq, Repr

/-- The least level that is logged. -/
def Invocation.logLevel (i : Invocation) : Text := if i.verbose then "debug" else if i.quiet then "warn" else "info"

end Schemata
