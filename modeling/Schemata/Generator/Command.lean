import Schemata.Generator.Basic
import Schemata.Shell.Run

/-! Generators that are programs: the prompt is their input, and their output is the answer. -/

namespace Schemata

/-- A program with its arguments. -/
structure GeneratorCommand where
  command : Text
  args : List Text
  deriving DecidableEq, Repr

namespace GeneratorCommand

/-- The command of a line of words; none if the line is blank. -/
def ofLine? (line : Text) : Option GeneratorCommand :=
  match Text.words line with
  | [] => none
  | command :: args => some ⟨command, args⟩

/-- The answer of a program that ended: its output if it was successful. -/
def answer (command : Text) (done : Completion) : Except GeneratorError Text :=
  if done.status = .exited 0 then .ok (Utf8.decodeLossy done.output)
  else .error (.failed command done.status.display (Text.trim (Utf8.decodeLossy done.errors)))

/-- The program as a generator, given the files that it can read. -/
def generator (g : GeneratorCommand) (read : ReadFile) : Generator where
  name := g.command
  complete prompt :=
    match Shell.spawn read g.command g.args (Utf8.encode prompt) with
    | .error e => .error (.notStarted g.command e.message)
    | .ok done => answer g.command done

end GeneratorCommand
end Schemata
