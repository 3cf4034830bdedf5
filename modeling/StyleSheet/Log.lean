/-!
# Log records

What happens on the way is reported in records, each with a level and the part of the
program that it comes from.  The records of a run are a list; which of them are shown,
and how, is decided where they are printed.
-/

namespace StyleSheet

/-- How important a record is. -/
inductive LogLevel where
  | warn
  | info
  | debug
  deriving DecidableEq

namespace LogLevel

def text : LogLevel → String
  | .warn => "WARN"
  | .info => "INFO"
  | .debug => "DEBUG"

/-- The number of levels that are more important. -/
def rank : LogLevel → Nat
  | .warn => 0
  | .info => 1
  | .debug => 2

end LogLevel

/-- Which part of the program a record comes from. -/
inductive LogSource where
  | registry
  | writer
  deriving DecidableEq

/-- The name under which a part logs. -/
def LogSource.text : LogSource → String
  | .registry => "typeuss::export::registry"
  | .writer => "typeuss::export::writer"

/-- One record of a log. -/
structure LogRecord where
  level : LogLevel
  source : LogSource
  message : String
  deriving DecidableEq

end StyleSheet
