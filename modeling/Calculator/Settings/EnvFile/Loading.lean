import Calculator.Settings.EnvFile
import Calculator.Settings.EnvFile.Expansion
import Calculator.Text.Capital

/-!
# Loading files of variables

Loading a file adds its variables to those that are inherited and overrides none of them. A value
may refer to inherited variables and to those that the file has given a value before; an inherited
one comes first. A variable with an impossible name or value stops the loading.
-/

namespace Calculator.EnvFile

/-- Why a file is not loaded. -/
inductive LoadError where
  | nullCharacter
  | illegalName
  deriving DecidableEq

/-- The text of the error. -/
def LoadError.message : LoadError → String
  | .nullCharacter => "embedded null byte"
  | .illegalName => "illegal environment variable name"

/-- The text that a variable has for a reference. A variable to which the file gives no value is
empty. -/
def valueFor (inherited : List (String × String)) (known : List (String × Option String))
    (name : String) : Option String :=
  match inherited.lookup name with
  | some text => some text
  | none => (known.lookup name).map fun value => value.getD ""

/-- Adds a binding to those that are known, its value being expanded. -/
def define (inherited : List (String × String)) (known : List (String × Option String))
    (b : Binding) : List (String × Option String) :=
  Entries.put b.key (b.value.map (expandText (valueFor inherited known))) known

/-- The variables of a file with their expanded values. Of several bindings of a variable the last
one counts, in the place of the first. -/
def definitions (inherited : List (String × String)) (file : List Binding) :
    List (String × Option String) :=
  file.foldl (define inherited) []

/-- The error that a variable makes, if any. -/
def loadError? (name value : String) : Option LoadError :=
  if '\x00' ∈ name.toList ∨ '\x00' ∈ value.toList then some .nullCharacter
  else if '=' ∈ name.toList then some .illegalName
  else none

/-- The variables that are new and have a value, or the first error among them. -/
def additions (inherited : List (String × String)) :
    List (String × Option String) → Except LoadError (List (String × String))
  | [] => .ok []
  | (_, none) :: rest => additions inherited rest
  | (name, some value) :: rest =>
    if (inherited.lookup name).isSome then additions inherited rest
    else
      match loadError? name value with
      | some error => .error error
      | none => (additions inherited rest).map ((name, value) :: ·)

/-- The variable that turns loading off. -/
def switchName : String := "PYTHON_DOTENV_DISABLED"

/-- Whether loading is turned off: by a word for yes, in any case. -/
def isSwitchedOff (inherited : List (String × String)) : Bool :=
  match inherited.lookup switchName with
  | some word => Text.capitals word ∈ ["1", "TRUE", "T", "YES", "Y"]
  | none => false

/-- The variables after loading a file. -/
def load (inherited : List (String × String)) (file : List Binding) :
    Except LoadError (List (String × String)) :=
  if isSwitchedOff inherited then .ok inherited
  else (additions inherited (definitions inherited file)).map (inherited ++ ·)

/-- The names of the inherited variables on which loading a file depends. -/
def mentions (file : List Binding) : List String :=
  switchName :: file.flatMap fun b =>
    b.key :: ((b.value.map fun value => namesIn value.toList).getD [])

end Calculator.EnvFile
