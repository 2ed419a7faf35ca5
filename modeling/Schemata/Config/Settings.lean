import Schemata.Config.Read

/-! The settings of a run: chosen by the command line, the configuration and the environment, in this order. -/

namespace Schemata

/-- The variables that settings are taken from. -/
structure Environment where
  databaseUrl : Option Text
  generatorLine : Option Text
  deriving DecidableEq, Repr

def Environment.empty : Environment := ⟨none, none⟩

structure Settings where
  database : Connection
  generator : Option GeneratorCommand
  deriving DecidableEq, Repr

/-- The connection that the environment names. Blanks around it do not count. -/
def Environment.connection? (e : Environment) : Option Connection :=
  match e.databaseUrl with
  | some url => if Text.allBlank url then none else some (.ofUrl (Text.trim url))
  | none => none

def Environment.generator? (e : Environment) : Option GeneratorCommand := e.generatorLine.bind GeneratorCommand.ofLine?

namespace Settings

/-- The first choice there is, each for itself. -/
def resolve (url : Option Text) (config : Option Config) (environment : Environment) : Settings where
  database :=
    ((url.map Connection.ofUrl <|> config.bind Config.database) <|> environment.connection?).getD Connection.default
  generator := config.bind Config.generator <|> environment.generator?

end Settings
end Schemata
