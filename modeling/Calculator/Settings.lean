import Calculator.Arithmetic
import Calculator.Settings.EnvFile.Loading
import Calculator.Settings.HomePath
import Calculator.Settings.LogLevel
import Calculator.Settings.RawValue

/-!
# Settings

Every field of the settings is read from one value: an explicit override if there is one, else the
variable of the environment, else the file of variables, else the default. The fields are checked
one by one, and all issues are reported together.
-/

namespace Calculator

open Text

/-- The settings of a session. -/
structure Settings where
  logLevel : LogLevel
  historyFile : String
  prompt : String
  showTokens : Bool
  showTree : Bool
  rollbackOnError : Bool
  maxExponent : Nat
  deriving DecidableEq

namespace Settings

/-- The fields of the settings. -/
inductive Field where
  | logLevel
  | historyFile
  | prompt
  | showTokens
  | showTree
  | rollbackOnError
  | maxExponent
  deriving DecidableEq

namespace Field

/-- The fields in the order of reports. -/
def all : List Field :=
  [logLevel, historyFile, prompt, showTokens, showTree, rollbackOnError, maxExponent]

/-- The name of a field. -/
def name : Field → String
  | .logLevel => "log_level"
  | .historyFile => "history_file"
  | .prompt => "prompt"
  | .showTokens => "show_tokens"
  | .showTree => "show_tree"
  | .rollbackOnError => "rollback_on_error"
  | .maxExponent => "max_exponent"

/-- The environment variable of a field. -/
def variableName (field : Field) : String := "PRATT_CALC_" ++ field.name.toUpper

end Field

/-! ### Checking values -/

/-- The default settings of a user with this home directory. -/
def default (home : Option String) : Settings where
  logLevel := .warning
  historyFile := HomePath.inHome home "/.pratt_calc_history".toList
  prompt := "> "
  showTokens := false
  showTree := false
  rollbackOnError := false
  maxExponent := Arithmetic.standardExponentLimit

/-- A value as a log level. -/
def readLogLevel (v : RawValue) : Except Issue LogLevel := do
  let text ← v.readText
  match LogLevel.ofText? text with
  | some level => .ok level
  | none => .error (.unknownLogLevel text)

/-- A value as the path of the history file. -/
def readHistoryFile (home : Option String) (v : RawValue) : Except Issue String := do
  let text ← v.readText
  match HomePath.expand? home (strip text) with
  | some path => .ok path
  | none => .error .nullCharacter

/-- Reads a field from its value, or takes the default if it has none. -/
def readOr {α : Type} (default : α) (read : RawValue → Except Issue α) :
    Option RawValue → Except Issue α
  | none => .ok default
  | some v => read v

/-- The report on a field. -/
def reported {α : Type} (field : Field) : Except Issue α → List (Field × Issue)
  | .ok _ => []
  | .error issue => [(field, issue)]

/-- The settings in which each field that has a value is read from it, or the issues of all fields
in their order. -/
def ofValues (home : Option String) (values : Field → Option RawValue) :
    Except (List (Field × Issue)) Settings :=
  let d := default home
  let logLevel := readOr d.logLevel readLogLevel (values .logLevel)
  let historyFile := readOr d.historyFile (readHistoryFile home) (values .historyFile)
  let prompt := readOr d.prompt RawValue.readText (values .prompt)
  let showTokens := readOr d.showTokens RawValue.readTruth (values .showTokens)
  let showTree := readOr d.showTree RawValue.readTruth (values .showTree)
  let rollbackOnError := readOr d.rollbackOnError RawValue.readTruth (values .rollbackOnError)
  let maxExponent := readOr d.maxExponent RawValue.readNatural (values .maxExponent)
  match logLevel, historyFile, prompt, showTokens, showTree, rollbackOnError, maxExponent with
  | .ok logLevel, .ok historyFile, .ok prompt, .ok showTokens, .ok showTree, .ok rollbackOnError,
    .ok maxExponent =>
    .ok { logLevel, historyFile, prompt, showTokens, showTree, rollbackOnError, maxExponent }
  | _, _, _, _, _, _, _ =>
    .error (reported .logLevel logLevel ++ reported .historyFile historyFile
      ++ reported .prompt prompt ++ reported .showTokens showTokens
      ++ reported .showTree showTree ++ reported .rollbackOnError rollbackOnError
      ++ reported .maxExponent maxExponent)

/-! ### Sources of values -/

/-- The value that a field gets: an override that is not null, else the variable of the field. -/
def fieldValue (overrides : Field → Option RawValue) (environment : List (String × String))
    (field : Field) : Option RawValue :=
  match overrides field with
  | none | some .null => (environment.lookup field.variableName).map .text
  | some v => some v

/-- The settings that overrides and the variables of the environment give. -/
def resolve (overrides : Field → Option RawValue) (environment : List (String × String)) :
    Except (List (Field × Issue)) Settings :=
  ofValues (environment.lookup "HOME") (fieldValue overrides environment)

/-- Why there are no settings. -/
inductive LoadFailure where
  | file (error : EnvFile.LoadError)
  | fields (issues : List (Field × Issue))
  deriving DecidableEq

/-- The settings that overrides, the inherited variables and a file of variables give, the first
source first. -/
def load (overrides : Field → Option RawValue) (inherited : List (String × String))
    (file : List EnvFile.Binding) : Except LoadFailure Settings :=
  match EnvFile.load inherited file with
  | .error error => .error (.file error)
  | .ok environment => (resolve overrides environment).mapError .fields

end Settings

end Calculator
