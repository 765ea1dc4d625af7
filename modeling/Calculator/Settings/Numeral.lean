import Calculator.Text.Blank
import Calculator.Text.Decimal

/-!
# Numerals from outside

An integer is read from a plain numeral: digits without leading zeros, behind a minus sign if it is
negative. A text that is no plain numeral is tidied and then read again. Tidying drops the white
space around the text, a plus sign, leading zeros with the underscores among them, also behind a
minus sign, a point with nothing but zeros behind it, and single underscores inside the text.
-/

namespace Calculator.Numeral

open Text

/-- Why a text is no numeral. -/
inductive Fault where
  | unreadable
  | tooLong
  deriving DecidableEq

/-- The greatest number of digits of a plain numeral. -/
def maxDigits : Nat := 4300

/-- The number that a plain numeral without a sign stands for. Too many digits are a fault of their
own, whatever follows them. -/
def readUnsigned (cs : List Char) : Except Fault Nat :=
  let digits := cs.takeWhile isDigit
  if cs = ['0'] then .ok 0
  else if digits = [] ∨ digits.head? = some '0' then .error .unreadable
  else if maxDigits < digits.length then .error .tooLong
  else if digits ≠ cs then .error .unreadable
  else .ok (Decimal.value digits)

/-- The integer that a plain numeral stands for. -/
def readPlain : List Char → Except Fault Int
  | '-' :: rest => (readUnsigned rest).map fun n => -(n : Int)
  | cs => (readUnsigned cs).map fun n => (n : Int)

/-! ### Tidying -/

/-- A text without the white space at both ends. -/
def trim (cs : List Char) : List Char :=
  ((cs.dropWhile isWhiteSpace).reverse.dropWhile isWhiteSpace).reverse

/-- A text without a plus sign, behind which no other sign may stand. -/
def dropPlus? : List Char → Option (List Char)
  | '+' :: '-' :: _ => none
  | '+' :: rest => some rest
  | cs => some cs

/-- What is left of a text behind leading zeros and the underscores among them, of which `last` was
the last one. It is kept if the text ends there or a point follows. -/
def afterZeros? (last : Char) : List Char → Option (List Char)
  | [] => some [last]
  | c :: rest =>
    if c = '0' ∨ c = '_' then afterZeros? c rest
    else if isDigit c ∨ c = '-' then some (c :: rest)
    else if c = '.' then some (last :: c :: rest)
    else none

/-- A text without its leading zeros. It must start with a digit or a minus sign. -/
def dropZeros? : List Char → Option (List Char)
  | [] => none
  | c :: rest =>
    if c = '0' then afterZeros? c rest
    else if isDigit c ∨ c = '-' then some (c :: rest)
    else none

/-- A text without its leading zeros, which may stand behind a minus sign. -/
def dropSignedZeros? : List Char → Option (List Char)
  | '-' :: rest => (dropZeros? rest).map ('-' :: ·)
  | cs => dropZeros? cs

/-- A text without its first point, if zeros and nothing else follow the point. -/
def dropFraction (cs : List Char) : List Char :=
  match cs.dropWhile (· ≠ '.') with
  | _ :: '0' :: zeros => if zeros.all (· = '0') then cs.takeWhile (· ≠ '.') else cs
  | _ => cs

/-- Whether two underscores stand next to each other. -/
def hasDoubleUnderscore : List Char → Bool
  | '_' :: '_' :: _ => true
  | _ :: rest => hasDoubleUnderscore rest
  | [] => false

/-- A text without underscores, if none of them stands at an end or next to another one. -/
def dropUnderscores (cs : List Char) : List Char :=
  if cs.head? = some '_' ∨ cs.getLast? = some '_' ∨ hasDoubleUnderscore cs then cs
  else cs.filter (· ≠ '_')

/-- A tidied text. -/
def tidied? (cs : List Char) : Option (List Char) :=
  ((dropPlus? (trim cs)).bind dropSignedZeros?).map fun cs => dropUnderscores (dropFraction cs)

/-- The integer that a text stands for. Only a text that is not tidied can have too many digits. -/
def read (text : String) : Except Fault Int :=
  match readPlain text.toList with
  | .error .unreadable =>
    match (tidied? text.toList).map readPlain with
    | some (.ok n) => .ok n
    | _ => .error .unreadable
  | result => result

end Calculator.Numeral
