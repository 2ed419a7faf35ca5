import Schemata.Session.Run

/-! What a run needs to know of the files before it starts, so that a session can be filled with just that. -/

namespace Schemata

namespace Command

/-- The file that a command reads. -/
def file? : Command → Option Text
  | compile file | apply file | applySql file => some file
  | generate _ _ _ | tables => none

end Command

namespace Session

/-- The paths of the two configuration files. -/
def configPaths (s : Session) : List Text := [configName, "/" ++ Text.join "/" (s.homeDirectory ++ [configName])]

/-- The paths that a command line may read or write, told by the configuration that is there. -/
def wantedPaths (s : Session) (arguments : List Text) : List Text :=
  match Invocation.parse arguments with
  | .error _ => []
  | .ok invocation =>
    match s.settings invocation.database with
    | .error _ => []
    | .ok settings =>
      let store := match settings.database with
        | .file path => [path]
        | _ => []
      let words := match invocation.command with
        | .generate _ _ line =>
          (line.bind GeneratorCommand.ofLine? <|> settings.generator).elim [] GeneratorCommand.args
        | _ => []
      invocation.command.file?.toList ++ store ++ words

end Session
end Schemata
