import Calculator.Settings.Numeral

/-!
# Values from outside

Settings come as values of unknown type. Each type of setting says which of them it accepts: texts
only texts, switches also numbers and words, and limits also texts and numbers without a fraction.
Integers may have any size, but a floating-point number counts as an integer only if that integer
is a word of 64 bits.
-/

namespace Calculator

/-- A value of unknown type. The floating-point number `significand`, `exponent` is
`significand * 2 ^ exponent`; a floating-point value that is no finite number has neither. -/
inductive RawValue where
  | null
  | truth (value : Bool)
  | integer (value : Int)
  | floating (significand exponent : Int)
  | nonFinite
  | text (value : String)
  | compound
  deriving DecidableEq

/-- Why a value is not accepted. -/
inductive Issue where
  | notText
  | notTruth
  | unreadableTruth
  | notNumber
  | unreadableNumber
  | oversizedNumber
  | notFinite
  | fraction
  | negative
  | unknownLogLevel (given : String)
  | nullCharacter
  deriving DecidableEq

namespace Issue

/-- What reports call the issue. -/
def code : Issue → String
  | .notText => "string_type"
  | .notTruth => "bool_type"
  | .unreadableTruth => "bool_parsing"
  | .notNumber => "int_type"
  | .unreadableNumber => "int_parsing"
  | .oversizedNumber => "int_parsing_size"
  | .notFinite => "finite_number"
  | .fraction => "int_from_float"
  | .negative => "greater_than_equal"
  | .unknownLogLevel _ | .nullCharacter => "value_error"

/-- The explanation that reports give of an issue, if it has one of its own. -/
def explanation : Issue → String
  | .unknownLogLevel given => "Value error, Unknown log level: " ++ given
  | .nullCharacter => "Value error, embedded null byte"
  | _ => ""

end Issue

namespace RawValue

/-- A value as a text. -/
def readText : RawValue → Except Issue String
  | .text t => .ok t
  | _ => .error .notText

/-- The bound on words of 64 bits with a sign. -/
def wordBound : Int := 9223372036854775808

/-- The integer that a floating-point number is, if it has no fraction and lies strictly between the
bounds on words. -/
def ofFloating (significand exponent : Int) : Except Issue Int :=
  let power : Int := Nat.pow 2 exponent.natAbs
  if exponent < 0 ∧ significand % power ≠ 0 then .error .fraction
  else
    let n := if exponent < 0 then significand / power else significand * power
    if -wordBound < n ∧ n < wordBound then .ok n else .error .oversizedNumber

/-! ### Switches -/

/-- The words for a switch that is on. -/
def wordsForOn : List String := ["1", "true", "t", "yes", "y", "on"]

/-- The words for a switch that is off. -/
def wordsForOff : List String := ["0", "false", "f", "no", "n", "off"]

/-- An integer as a switch. -/
def truthOfInteger (n : Int) : Except Issue Bool :=
  if n = 0 then .ok false else if n = 1 then .ok true else .error .unreadableTruth

/-- A value as a switch: a truth value, zero or one, or a word for on or off in any case. A number
that is no word is not even taken for a number. -/
def readTruth : RawValue → Except Issue Bool
  | .truth b => .ok b
  | .integer n =>
    if -wordBound ≤ n ∧ n < wordBound then truthOfInteger n else .error .notTruth
  | .floating significand exponent =>
    match ofFloating significand exponent with
    | .ok n => truthOfInteger n
    | .error _ => .error .notTruth
  | .text t =>
    let word := t.toLower
    if word ∈ wordsForOn then .ok true
    else if word ∈ wordsForOff then .ok false
    else .error .unreadableTruth
  | _ => .error .notTruth

/-! ### Limits -/

/-- A value as an integer. -/
def readInteger : RawValue → Except Issue Int
  | .truth b => .ok (if b then 1 else 0)
  | .integer n => .ok n
  | .floating significand exponent => ofFloating significand exponent
  | .nonFinite => .error .notFinite
  | .text t =>
    match Numeral.read t with
    | .ok n => .ok n
    | .error .unreadable => .error .unreadableNumber
    | .error .tooLong => .error .oversizedNumber
  | _ => .error .notNumber

/-- A value as an integer that is not negative. -/
def readNatural (v : RawValue) : Except Issue Nat := do
  let n ← v.readInteger
  if n < 0 then .error .negative else .ok n.toNat

end RawValue

end Calculator
