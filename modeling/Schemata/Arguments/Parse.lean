import Schemata.Arguments.Parameter

/-! Reading arguments. There are two levels, the one before the command and the one behind it, and each keeps what it
    is given. A value in an argument of its own is looked at when the next parameter comes or the level ends, so a
    mistake in between is reported first. -/

namespace Schemata

/-- What a level was given: parameters with their values, and at the end one that is not looked at yet. It may still
    wait for its value. -/
structure Given where
  values : List (Parameter × Text)
  pending : Option (Parameter × Option Text)
  deriving DecidableEq, Repr

namespace Given

def empty : Given := ⟨[], none⟩

def has (g : Given) (p : Parameter) : Bool := (g.values.lookup p).isSome

def awaits (g : Given) : Bool := g.pending.any fun p => p.2.isNone

/-- Takes a parameter with its value. It may be given once, and a value must be allowed. -/
def put (g : Given) (p : Parameter) (value : Text) : Except UsageError Given :=
  if g.has p then .error .conflict
  else if !p.accepts value then .error .invalidValue
  else .ok { g with values := g.values ++ [(p, value)] }

/-- Looks at what is pending. -/
def settle (g : Given) : Except UsageError Given :=
  match g.pending with
  | none => .ok g
  | some (_, none) => .error .invalidValue
  | some (p, some value) => { g with pending := none }.put p value

/-- Takes a parameter without a value. -/
def putFlag (g : Given) (p : Parameter) : Except UsageError Given := do
  let g ← g.settle
  match p with
  | .help => .error .helpWanted
  | .version => .error .versionWanted
  | p => g.put p []

/-- Takes a parameter that has a value, attached or to come. -/
def putOption (g : Given) (p : Parameter) (attached : Option Text) : Except UsageError Given := do
  let g ← g.settle
  match attached with
  | some value => g.put p value
  | none => .ok { g with pending := some (p, none) }

/-- Takes an argument behind two dashes. -/
def putLong (g : Given) (allowed : List Parameter) (argument : Text) : Except UsageError Given :=
  let name := argument.takeWhile (· != '=')
  let attached := (argument.dropWhile (· != '=')).tail?
  match allowed.find? fun p => p.long == name with
  | none => .error .unknownArgument
  | some p =>
    if p.takesValue then g.putOption p attached
    else if attached.isSome then .error .unwantedValue
    else g.putFlag p

/-- The value attached to a letter, with an equals sign or without. -/
def attachedValue (s : Text) : Option Text :=
  match s with
  | [] => none
  | '=' :: value => some value
  | value => some value

/-- Takes the letters behind one dash. What stands behind a letter with a value is the value. -/
def putShort (g : Given) (allowed : List Parameter) : Text → Except UsageError Given
  | [] => .ok g
  | c :: s =>
    match allowed.find? fun p => p.short == some c with
    | none => .error .unknownArgument
    | some p =>
      if p.takesValue then g.putOption p (attachedValue s)
      else
        match g.putFlag p with
        | .ok g => g.putShort allowed s
        | .error e => .error e

end Given

/-- What stands behind the parameters of a level. -/
inductive Stop
  | ended
  | command (name : CommandName) (rest : List Text)
  deriving DecidableEq, Repr

/-- The answer to a call for help, with the words behind it: one of them may name a command. -/
def helpFor : List Text → UsageError
  | [] => .helpWanted
  | [word] => if (CommandName.ofName? word).isSome || word == "help" then .helpWanted else .unknownCommand
  | _ => .unknownCommand

/-- What is wrong with a word behind two dashes alone: they do not go before a command. -/
def strayWord (beforeCommand : Bool) (word : Text) : UsageError :=
  if beforeCommand && (CommandName.ofName? word).isNone && word != "help" then .unknownCommand else .unknownArgument

/-- Reads the parameters of a level, up to the command if it stands before one. -/
def readLevel (allowed : List Parameter) (beforeCommand : Bool) (g : Given) :
    List Text → Except UsageError (Given × Stop)
  | [] => .ok (g, .ended)
  | argument :: rest =>
    match argument with
    | ['-', '-'] =>
      match rest with
      | [] => .ok (g, .ended)
      | word :: _ => .error (strayWord beforeCommand word)
    | '-' :: '-' :: long =>
      match g.putLong allowed long with
      | .ok g => readLevel allowed beforeCommand g rest
      | .error e => .error e
    | '-' :: c :: short =>
      match g.putShort allowed (c :: short) with
      | .ok g => readLevel allowed beforeCommand g rest
      | .error e => .error e
    | word =>
      match g.pending with
      | some (p, none) => readLevel allowed beforeCommand { g with pending := some (p, some word) } rest
      | _ =>
        if !beforeCommand then .error .unknownArgument
        else if word == "help" then .error (helpFor rest)
        else match CommandName.ofName? word with
          | some name => .ok (g, .command name rest)
          | none => .error .unknownCommand

/-- The parameters of a level that has ended, if they go together and none is missing. -/
def Given.close (g : Given) (required : List Parameter) : Except UsageError Given := do
  let g ← g.settle
  if g.has .verbose && g.has .quiet then .error .conflict
  else if required.all g.has then .ok g
  else .error .missingParameter

/-- The command of a name with the parameters behind it. -/
def Command.ofGiven (name : CommandName) (g : Given) : Command :=
  let value (p : Parameter) : Text := (g.values.lookup p).getD []
  match name with
  | .compile => compile (value .file)
  | .apply => apply (value .file)
  | .applySql => applySql (value .file)
  | .generate => generate (value .description) (g.has .dryRun) (g.values.lookup .generatorCommand)
  | .tables => tables

/-- What two levels ask for together. A value behind the command goes before one in front of it. -/
def Invocation.ofGiven (front behind : Given) (name : CommandName) : Invocation :=
  let value (p : Parameter) : Option Text := behind.values.lookup p <|> front.values.lookup p
  { database := value .database
    format := ((value .format).bind OutputFormat.ofName?).getD .table
    verbose := front.has .verbose || behind.has .verbose
    quiet := front.has .quiet || behind.has .quiet
    command := .ofGiven name behind }

/-- What arguments ask for. Mistakes behind the command are reported before those that the end of the level in front
    of it brings to light. -/
def Invocation.parse (arguments : List Text) : Except UsageError Invocation := do
  match ← readLevel (.version :: Parameter.shared) true .empty arguments with
  | (front, .ended) =>
    let front ← front.settle
    .error (if front.values.isEmpty then .noArguments else .noCommand)
  | (front, .command name rest) =>
    let (behind, _) ← readLevel (name.parameters ++ Parameter.shared) false .empty rest
    let behind ← behind.close name.required
    let front ← front.close []
    .ok (.ofGiven front behind name)

end Schemata
