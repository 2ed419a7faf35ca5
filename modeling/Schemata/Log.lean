import Schemata.Text.Basic

/-! Log records: a level, a message, and named fields as text. -/

namespace Schemata

inductive LogLevel
  | debug
  | info
  | warn
  | error
  deriving DecidableEq, Repr

def LogLevel.name : LogLevel → Text
  | debug => "DEBUG"
  | info => "INFO"
  | warn => "WARN"
  | error => "ERROR"

structure LogRecord where
  level : LogLevel
  message : Text
  fields : List (Text × Text)
  deriving DecidableEq, Repr

end Schemata
