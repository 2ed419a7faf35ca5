import Schemata.Shell.Programs
import Schemata.Shell.Syntax

/-! Running scripts and programs: what they write and how they end, given their arguments, their input and the files
    they can read. A number bounds how deep calls go. -/

namespace Schemata.Shell

/-! ### The state of a shell -/

/-- What a script runs with, and what it has done so far. With `strict`, it ends when a command fails. `ended` tells
    that it ends here. -/
structure State where
  name : Text
  args : List Text
  bindings : List (Text × Text)
  /-- The names whose values programs are given. -/
  exported : List Text
  strict : Bool
  input : Bytes
  output : Bytes
  errors : Bytes
  status : Nat
  ended : Option ExitStatus

/-- The number of the shell's process. -/
def processNumber : Text := "4711"

namespace State

def start (name : Text) (args : List Text) (bindings : List (Text × Text)) (strict : Bool) (input : Bytes) : State :=
  ⟨name, args, bindings, bindings.map Prod.fst, strict, input, [], [], 0, none⟩

def complain (s : State) (message : Text) (status : Nat) : State :=
  { s with errors := s.errors ++ Utf8.encode (s.name ++ ": 1: " ++ message ++ "\n"), status := status }

/-- The value of a parameter; none if it is not set. -/
def value? (s : State) (name : Text) : Option Text :=
  if name == "?" then some (decimal s.status)
  else if name == "$" then some processNumber
  else if name == "#" then some (decimal s.args.length)
  else if name == "0" then some s.name
  else if name == "@" || name == "*" then some (Text.join " " s.args)
  else if name.all Char.isDigit && !name.isEmpty then s.args[natOf name - 1]?
  else s.bindings.lookup name

/-- The value of what stands in braces: of a parameter or, behind a sign that says when, of another text; or its
    length. -/
def braceValue (s : State) (inner : Text) : Text :=
  match inner with
  | '#' :: c :: name => decimal ((s.value? (c :: name)).getD []).length
  | _ =>
    let length := (inner.takeWhile isNameChar).length
    let name := inner.take (if length = 0 then 1 else length)
    let value := s.value? name
    match inner.drop name.length with
    | ':' :: '-' :: other | ':' :: '=' :: other => if value.getD [] == [] then other else value.getD []
    | ':' :: '+' :: other => if value.getD [] == [] then [] else other
    | '-' :: other | '=' :: other => value.getD other
    | '+' :: other => if value.isSome then other else []
    | _ => value.getD []

def forget (s : State) (name : Text) : State :=
  { s with bindings := s.bindings.filter (·.1 != name), exported := s.exported.filter (· != name) }

def assign (s : State) (name value : Text) : State :=
  { s with bindings := (name, value) :: s.bindings.filter (·.1 != name) }

/-- Takes back assignments that were made for one command. -/
def restore (s before : State) (names : List Text) : State :=
  let restored := names.foldl (fun s name => (before.bindings.lookup name).elim (s.forget name) (s.assign name)) s
  { restored with exported := before.exported }

/-- The values that programs are given. -/
def environment (s : State) : List (Text × Text) := s.bindings.filter (s.exported.contains ·.1)

/-- Whether a character separates fields. -/
def separates (s : State) (c : Char) : Bool := List.elem c ((s.bindings.lookup ("IFS" : Text)).getD " \t\n")

/-- How the shell ends, if nothing ended it before. -/
def completion (s : State) : Completion := ⟨s.output, s.errors, s.ended.getD (.exited s.status)⟩

end State

/-! ### Fields of words -/

/-- Fields under construction: the finished ones, and the one at the end if it is still open. -/
structure Fields where
  done : List Text
  last : Option Text

namespace Fields

def empty : Fields := ⟨[], none⟩

def add (f : Fields) (s : Text) : Fields := ⟨f.done, some (f.last.getD [] ++ s)⟩

def cut (f : Fields) : Fields := ⟨f.done ++ f.last.toList, none⟩

/-- Adds text that is cut at separators. -/
def addCut (separates : Char → Bool) (f : Fields) (s : Text) : Fields :=
  s.foldl (fun f c => if separates c then f.cut else f.add [c]) f

def put (separates : Char → Bool) (quoted : Bool) (f : Fields) (s : Text) : Fields :=
  if quoted then f.add s else f.addCut separates s

/-- Adds texts that are fields of their own, but for the ends that touch their surroundings. -/
def putAll (separates : Char → Bool) (quoted : Bool) (f : Fields) : List Text → Fields
  | [] => f
  | s :: rest => rest.foldl (fun f s => f.cut.put separates quoted s) (f.put separates quoted s)

def toList (f : Fields) : List Text := f.cut.done

end Fields

/-! ### Where output goes -/

/-- What a descriptor is. -/
inductive Sink
  | output
  | errors
  | nowhere
  deriving DecidableEq, Repr

/-- Gives what was written to the two descriptors to what they are. -/
def State.deliver (s : State) (sinks : Sink × Sink) (output errors : Bytes) : State :=
  let put (s : State) (sink : Sink) (b : Bytes) : State :=
    match sink with
    | .output => { s with output := s.output ++ b }
    | .errors => { s with errors := s.errors ++ b }
    | .nowhere => s
  put (put s sinks.1 output) sinks.2 errors

/-! ### Programs -/

/-- The name of a program without its directory. -/
def programName (command : Text) : Text :=
  match ([("/bin/" : Text), "/usr/bin/"].findSome? (Text.dropPrefix? · command)) with
  | some name => name
  | none => command

/-- A program other than the shell, with whether it takes its input. `builtin` tells that a shell runs it. -/
def program? (read : ReadFile) (builtin : Bool) (name : Text) : Option ((Bytes → List Text → Completion) × Bool) :=
  if name == "cat" then some (cat read, true)
  else if name == "echo" then
    some (fun _ args => if builtin then echoBuiltin args else echoProgram false true args, false)
  else if name == "printf" then some (fun _ args => printf builtin args, false)
  else if name == "true" then some (fun _ _ => .success [], false)
  else if name == "false" then some (fun _ _ => ⟨[], [], .exited 1⟩, false)
  else if name == "tr" then some (tr, true)
  else if name == "wc" then some (wc read, true)
  else if name == "tail" then some (tail read, true)
  else if name == "head" then some (head read, true)
  else if name == "sleep" then some (fun _ _ => .success [], false)
  else none

/-- The status a shell sees. -/
def statusCode : ExitStatus → Nat
  | .exited code => code
  | .killed signal => 128 + signal

/-- The signal that an option of `kill` names. -/
def signalOf (option : Text) : Nat :=
  if option.all Char.isDigit then natOf option
  else
    let name := (Text.dropPrefix? "SIG" option).getD option
    ((signalNames.find? (·.2 == name)).map Prod.fst).getD 15

def kill (s : State) (args : List Text) : State :=
  let (signal, targets) := match args with
    | ['-', 's'] :: name :: rest => (signalOf name, rest)
    | ('-' :: option) :: rest => (signalOf option, rest)
    | rest => (15, rest)
  if targets.contains processNumber && signal != 0 then { s with ended := some (.killed signal) }
  else { s with status := 0 }

/-- Compares texts, as `test` does. -/
def test (args : List Text) : Bool :=
  match args with
  | [a] => !a.isEmpty
  | [op, a] => if op == "-n" then !a.isEmpty else if op == "-z" then a.isEmpty else op == "!" && a.isEmpty
  | [a, op, b] =>
    if op == "=" then a == b else if op == "!=" then a != b
    else if op == "-eq" then natOf a == natOf b else if op == "-ne" then natOf a != natOf b
    else if op == "-gt" then natOf a > natOf b else if op == "-lt" then natOf a < natOf b
    else if op == "-ge" then natOf a ≥ natOf b else op == "-le" && natOf a ≤ natOf b
  | _ => false

/-- The name and the value's word of a word that is an assignment. -/
def assignment? (w : Word) : Option (Text × Word) := go [] w
where
  go (name : Text) : Word → Option (Text × Word)
    | .text [c] false :: rest =>
      if c == '=' && name.head?.any isNameStart then some (name, rest)
      else if isNameChar c then go (name ++ [c]) rest
      else none
    | _ => none

/-- How `exit` ends a shell. -/
def exitWith (s : State) (args : List Text) : State :=
  match args with
  | [] => { s with ended := some (.exited s.status) }
  | code :: _ =>
    if code.all Char.isDigit && !code.isEmpty then { s with ended := some (.exited (natOf code % 256)) }
    else
      let s := s.complain ("exit: Illegal number: " ++ code) 2
      { s with ended := some (.exited 2) }

/-- `set`: options, and arguments instead of those there are. -/
def setWith (s : State) : List Text → State
  | [] => s
  | arg :: rest =>
    match arg with
    | ['-', '-'] => { s with args := rest }
    | '-' :: letters => setWith { s with strict := s.strict || letters.contains 'e' } rest
    | '+' :: letters => setWith { s with strict := s.strict && !letters.contains 'e' } rest
    | _ => { s with args := arg :: rest }

/-- `export`: names, or assignments. -/
def exportAll (s : State) (args : List Text) : State :=
  args.foldl (fun s arg =>
    match Text.cut? '=' arg with
    | some (name, value) => { s.assign name value with exported := name :: s.exported }
    | none => { s with exported := arg :: s.exported }) { s with status := 0 }

/-- Gives the fields of a line to names, the last of which gets what is left. -/
def assignFields (s : State) (line : Text) : List Text → State
  | [] => s
  | [name] =>
    let cut (t : Text) : Text := t.dropWhile s.separates
    s.assign name (cut (cut line).reverse).reverse
  | name :: rest =>
    let line := line.dropWhile s.separates
    let field := line.takeWhile (!s.separates ·)
    assignFields (s.assign name field) (line.drop field.length) rest

/-- `read`: gives the next line of the input to names. -/
def readLine (s : State) (args : List Text) : State :=
  let line := s.input.takeWhile (· != newline)
  let s := assignFields { s with input := s.input.drop (line.length + 1), status := if line = s.input then 1 else 0 }
    (Utf8.decodeLossy line) (args.filter (!isOption ·))
  s

/-- The commands of a shell that only change its state. -/
def builtin? (name : Text) : Option (State → List Text → State) :=
  if [(":" : Text), "cd", "trap", "wait"].contains name then some fun s _ => { s with status := 0 }
  else if name == "exit" then some exitWith
  else if name == "kill" then some kill
  else if name == "test" then some fun s args => { s with status := if test args then 0 else 1 }
  else if name == "[" then some fun s args => { s with status := if test args.dropLast then 0 else 1 }
  else if name == "shift" then some fun s _ => { s with args := s.args.tail, status := 0 }
  else if name == "set" then some fun s args => setWith { s with status := 0 } args
  else if name == "unset" then some fun s args => args.foldl State.forget { s with status := 0 }
  else if name == "export" then some exportAll
  else if name == "read" then some readLine
  else none

def isOutput : Piece → Bool
  | .output _ _ => true
  | _ => false

/-- The word of an assignment's value, which is not cut. -/
def uncut (w : Word) : Word :=
  w.map fun p =>
    match p with
    | .parameter name _ => .parameter name true
    | .output script _ => .output script true
    | p => p

/-- The assignments in front of a command, and its other words. -/
def readAssignments : List Word → List (Text × Word) × List Word
  | [] => ([], [])
  | w :: rest =>
    match assignment? w with
    | some assignment =>
      let (assignments, words) := readAssignments rest
      (assignment :: assignments, words)
    | none => ([], w :: rest)

/-! ### Running -/

mutual

/-- The fields that words stand for. -/
def expand (read : ReadFile) : Nat → State → Fields → Word → Fields × State
  | 0, s, f, _ => (f, s)
  | _ + 1, s, f, [] => (f, s)
  | n + 1, s, f, piece :: rest =>
    match piece with
    | .text t _ =>
      let isNothing := t.isEmpty && s.args.isEmpty && rest.head? = some (.parameter ['@'] true)
      expand read n s (if isNothing then f else f.add t) rest
    | .parameter name quoted =>
      let f :=
        if name == "@" || name == "*" && !quoted then f.putAll s.separates quoted s.args
        else f.put s.separates quoted (s.braceValue name)
      expand read n s f rest
    | .output script quoted =>
      let inner := runScript read n { s with output := [], ended := none } script
      let text := (Utf8.decodeLossy inner.output).reverse.dropWhile (· == '\n') |>.reverse
      expand read n
        { s with input := inner.input, errors := inner.errors, status := statusCode inner.completion.status }
        (f.put s.separates quoted text) rest

/-- The fields of several words. -/
def expandAll (read : ReadFile) : Nat → State → List Word → List Text × State
  | 0, s, _ => ([], s)
  | _ + 1, s, [] => ([], s)
  | n + 1, s, w :: rest =>
    let (f, s) := expand read n s .empty w
    let (fields, s) := expandAll read n s rest
    (f.toList ++ fields, s)

/-- Where output goes behind redirections, and the input that they name. A file that cannot be read is an error. -/
def redirect (read : ReadFile) : Nat → State → Sink × Sink → List Redirection → Except State ((Sink × Sink) × State)
  | 0, s, sinks, _ => .ok (sinks, s)
  | _ + 1, s, sinks, [] => .ok (sinks, s)
  | n + 1, s, sinks, r :: rest =>
    let (f, s) := expand read n s .empty r.target
    let target := f.toList.headD []
    if r.descriptor == 0 then
      match read target with
      | .ok bytes => redirect read n { s with input := bytes } sinks rest
      | .error _ =>
        if r.duplicates || target == "/dev/stdin" then redirect read n s sinks rest
        else .error (s.complain ("cannot open " ++ target ++ ": No such file") 2)
    else
      let sink : Sink :=
        if target == (if r.duplicates then "1" else "/dev/stdout" : Text) then sinks.1
        else if target == (if r.duplicates then "2" else "/dev/stderr" : Text) then sinks.2
        else .nowhere
      redirect read n s (if r.descriptor == 2 then (sinks.1, sink) else (sink, sinks.2)) rest

/-- A command with its name and arguments. -/
def runNamed (read : ReadFile) : Nat → State → Text → List Text → State
  | 0, s, _, _ => s
  | n + 1, s, command, args =>
    let name := programName command
    if name == "exec" then
      let s := runNamed read n s (args.headD ":") args.tail
      { s with ended := some (s.ended.getD (.exited s.status)) }
    else if name == "eval" then runScript read n s (Text.join " " args)
    else if name == "sh" then
      let done := runShell read n command s.environment false s.input args
      { s with
        input := [], output := s.output ++ done.output, errors := s.errors ++ done.errors,
        status := statusCode done.status }
    else match builtin? name, program? read (name == command) name with
      | some run, _ => run s args
      | none, some (run, takes) =>
        let done := run s.input args
        { s with
          input := if takes then [] else s.input
          output := s.output ++ done.output
          errors := s.errors ++ done.errors
          status := statusCode done.status }
      | none, none => s.complain (command ++ ": not found") 127

/-- Assignments in order. -/
def runAssignments (read : ReadFile) : Nat → State → List (Text × Word) → State
  | 0, s, _ => s
  | _ + 1, s, [] => s
  | n + 1, s, (name, value) :: rest =>
    let (f, s) := expand read n s .empty (uncut value)
    runAssignments read n (s.assign name (Text.join " " f.toList)) rest

/-- A simple command: the command that the first field names, with the values that assignments in front give it. If
    there are only assignments, they last. -/
def runSimple (read : ReadFile) : Nat → State → List Word → State
  | 0, s, _ => s
  | n + 1, s, words =>
    let (assignments, words) := readAssignments words
    let (fields, expanded) := expandAll read n s words
    let assigned := runAssignments read n expanded assignments
    match fields with
    | [] =>
      let runs := (words ++ assignments.map Prod.snd).any (List.any · isOutput)
      { assigned with status := if runs then assigned.status else 0 }
    | command :: args =>
      let names := assignments.map Prod.fst
      let given := { assigned with exported := names ++ assigned.exported }
      let done := runNamed read n given command args
      if names.isEmpty then done else done.restore s names

/-- A command with its redirections. -/
def runCommand (read : ReadFile) : Nat → State → Command → State
  | 0, s, _ => s
  | n + 1, s, command =>
    let redirections := match command with
      | .simple _ r | .group _ r | .subshell _ r | .branch _ _ _ r | .loop _ _ _ r | .each _ _ _ r => r
    match redirect read n s (.output, .errors) redirections with
    | .error s => s
    | .ok (sinks, redirected) =>
      let inner := { redirected with output := [], errors := [] }
      let after := match command with
        | .simple words _ => runSimple read n inner words
        | .group steps _ => runSteps read n inner steps
        | .subshell steps _ =>
          let sub := runSteps read n inner steps
          let ended := match sub.ended with
            | some (ExitStatus.killed signal) => some (ExitStatus.killed signal)
            | _ => none
          { inner with
            input := sub.input, output := sub.output, errors := sub.errors, ended := ended,
            status := statusCode sub.completion.status }
        | .branch condition yes no _ =>
          let after := runCondition read n inner condition
          if after.status == 0 then runSteps read n after yes
          else runSteps read n { after with status := 0 } no
        | .loop negated condition body _ => runLoop read n inner 0 negated condition body
        | .each name none body _ => runEach read n inner name inner.args body
        | .each name (some words) body _ =>
          let (fields, inner) := expandAll read n inner words
          runEach read n inner name fields body
      let input := if redirections.any (·.descriptor == 0) then s.input else after.input
      { after with input := input, output := s.output, errors := redirected.errors }.deliver sinks after.output
        after.errors

/-- Steps whose status decides something, so that a failure among them ends nothing. -/
def runCondition (read : ReadFile) : Nat → State → List Step → State
  | 0, s, _ => s
  | n + 1, s, steps =>
    let after := runSteps read n { s with strict := false } steps
    { after with strict := s.strict }

/-- Repeats steps under a condition; `status` is the one of the last round. -/
def runLoop (read : ReadFile) : Nat → State → Nat → Bool → List Step → List Step → State
  | 0, s, _, _, _, _ => s
  | n + 1, s, status, negated, condition, body =>
    let after := runCondition read n s condition
    if after.ended.isSome then after
    else if (after.status == 0) != negated then
      let round := runSteps read n after body
      if round.ended.isSome then round else runLoop read n round round.status negated condition body
    else { after with status := status }

/-- Runs steps once for each value of a name. -/
def runEach (read : ReadFile) : Nat → State → Text → List Text → List Step → State
  | 0, s, _, _, _ => s
  | _ + 1, s, _, [], _ => s
  | n + 1, s, name, value :: rest, body =>
    let round := runSteps read n (s.assign name value) body
    if round.ended.isSome then round else runEach read n round name rest body

/-- The commands of a pipeline. Each but the last gives its output to the next. -/
def runStages (read : ReadFile) : Nat → State → List Command → State
  | 0, s, _ => s
  | _ + 1, s, [] => s
  | n + 1, s, [command] => runCommand read n s command
  | n + 1, s, command :: rest =>
    let stage := runCommand read n { s with output := [] } command
    let last := runStages read n { s with input := stage.output, errors := stage.errors } rest
    let killed := [stage.ended, last.ended].findSome? fun ended =>
      match ended with
      | some (.killed signal) => some (ExitStatus.killed signal)
      | _ => none
    { s with
      input := stage.input, output := last.output, errors := last.errors, ended := killed,
      status := last.ended.elim last.status statusCode }

/-- Steps in order, each as its condition says, up to one that ends the shell. -/
def runSteps (read : ReadFile) : Nat → State → List Step → State
  | 0, s, _ => s
  | _ + 1, s, [] => s
  | n + 1, s, (join, negated, stages) :: rest =>
    let runs := match join with
      | .always => true
      | .onSuccess => s.status == 0
      | .onFailure => s.status != 0
    if s.ended.isSome then s
    else if !runs then runSteps read n s rest
    else
      let after := runStages read n s stages
      let status := if negated then (if after.status == 0 then 1 else 0) else after.status
      let decides := negated || rest.head?.any (·.1 != .always)
      let ended := if after.strict && !decides && status != 0 then some (.exited status) else none
      runSteps read n { after with status := status, ended := after.ended <|> ended } rest

/-- A script in a shell. -/
def runScript (read : ReadFile) : Nat → State → Text → State
  | 0, s, _ => s
  | n + 1, s, script =>
    match parse? script with
    | some steps => runSteps read n s steps
    | none => s.complain "Syntax error: Unterminated quoted string" 2

/-- The shell as a program with its name and the values it is given: a script as an argument behind `-c`, from a file,
    or from its input. -/
def runShell (read : ReadFile) :
    Nat → Text → List (Text × Text) → Bool → Bytes → List Text → Completion
  | 0, _, _, _, _, _ => .success []
  | n + 1, name, bindings, strict, input, args =>
    match args with
    | [] => (runScript read n (.start name [] bindings strict []) (Utf8.decodeLossy input)).completion
    | option :: rest =>
      if option.head? == some '-' then
        let strict := strict || option.any (· == 'e')
        if option.any (· == 'c') then
          match rest with
          | script :: rest =>
            (runScript read n (.start (rest.headD name) rest.tail bindings strict input) script).completion
          | [] => .failure (name ++ ": 0: -c requires an argument\n") 2
        else if option == "-s" || option == "-" then
          (runScript read n (.start name rest bindings strict []) (Utf8.decodeLossy input)).completion
        else runShell read n name bindings strict input rest
      else match read option with
        | .ok bytes =>
          (runScript read n (.start option rest bindings strict input) (Utf8.decodeLossy bytes)).completion
        | .error _ => .failure (name ++ ": 0: cannot open " ++ option ++ ": No such file\n") 2

end

/-! ### Starting a program -/

/-- A bound on calls for a command with the given arguments and input. -/
def depth (input : Bytes) (args : List Text) : Nat :=
  1000 + 20 * (args.flatten.length + input.length)

/-- Starts a program by its name with arguments and an input. -/
def spawn (read : ReadFile) (command : Text) (args : List Text) (input : Bytes) : Except OsError Completion :=
  let name := programName command
  if (command :: args).any fun a => a.any fun c => c.toNat == 0 then .error .nulInArgument
  else if name == "sh" || name == "dash" then .ok (runShell read (depth input args) command [] false input args)
  else match program? read false name with
    | some (run, _) => .ok (run input args)
    | none =>
      if command.any (· == '/') || command == "." || command == ".." then
        match read command with
        | .error .isADirectory => .error .permissionDenied
        | .error e => .error e
        | .ok _ => .error .permissionDenied
      else .error .notFound

end Schemata.Shell
