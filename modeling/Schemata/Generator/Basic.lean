import Schemata.Generator.Fence

/-! Generators of schema text: a prompt goes in, and the fenced part of what comes out is the schema. -/

namespace Schemata

inductive GeneratorError
  /-- The program cannot be started. -/
  | notStarted (command reason : Text)
  | inputOutput (reason : Text)
  /-- The program ended without success. -/
  | failed (command status complaint : Text)
  | emptyOutput (command : Text)
  | notConfigured
  deriving DecidableEq, Repr

def GeneratorError.message : GeneratorError → Text
  | notStarted command reason => "Failed to start generator '" ++ command ++ "': " ++ reason
  | inputOutput reason => "Generator I/O failed: " ++ reason
  | failed command status complaint => "Generator '" ++ command ++ "' exited with " ++ status ++ ": " ++ complaint
  | emptyOutput command => "Generator '" ++ command ++ "' returned empty output"
  | notConfigured => "No generator configured (use --generator-cmd, the config file, or TABLEWRIGHT_GENERATOR)"

/-- What a generator is told before the description. -/
def schemaInstructions : Text :=
  ("you design relational schemas for sqlite. output only sql create table statements, each terminated by a " : Text) ++
    "semicolon. use create table if not exists. no markdown, no commentary, no backticks."

/-- The prompt for a description. -/
def schemaPrompt (description : Text) : Text :=
  schemaInstructions ++ "\n\ndesign the tables for the following system.\n" ++
    "- give every table an integer primary key.\n" ++ "- express relationships with foreign key clauses.\n" ++
    "- keep types and constraints simple and portable.\n\n" ++ "description:\n" ++ Text.trim description ++ "\n"

/-- A source of text: its name, and what it answers to a prompt. -/
structure Generator where
  name : Text
  complete : Text → Except GeneratorError Text

namespace Generator

/-- A generator that gives one text for every prompt. -/
def constant (name output : Text) : Generator := ⟨name, fun _ => .ok output⟩

/-- The schema that a generator writes for a description, without fences. An empty one is an error. -/
def describe (g : Generator) (description : Text) : Except GeneratorError Text :=
  match g.complete (schemaPrompt description) with
  | .error e => .error e
  | .ok output =>
    let text := stripFences output
    if text.isEmpty then .error (.emptyOutput g.name) else .ok text

end Generator
end Schemata
