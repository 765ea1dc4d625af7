import Calculator.Text.Capital

/-!
# Log levels
-/

namespace Calculator

/-- How much is logged. Two levels have two names each. -/
inductive LogLevel where
  | critical
  | fatal
  | error
  | warn
  | warning
  | info
  | debug
  | notset
  deriving DecidableEq

namespace LogLevel

/-- The name of a level. -/
def name : LogLevel → String
  | .critical => "CRITICAL"
  | .fatal => "FATAL"
  | .error => "ERROR"
  | .warn => "WARN"
  | .warning => "WARNING"
  | .info => "INFO"
  | .debug => "DEBUG"
  | .notset => "NOTSET"

/-- The levels. -/
def all : List LogLevel := [critical, fatal, error, warn, warning, info, debug, notset]

/-- The level that a text names in any case, with blanks around it. -/
def ofText? (text : String) : Option LogLevel :=
  all.find? fun level => level.name = Text.capitals (Text.strip text)

end LogLevel

end Calculator
