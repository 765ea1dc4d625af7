import Calculator.Operator

/-!
# Integer arithmetic

What the operators do to integers of any size. Division rounds toward zero, an exponent must lie
below a limit, and a factorial is defined for the integers from zero to `factorialLimit`.
-/

namespace Calculator

open Text

/-- Why an operation has no result. -/
inductive ArithmeticError where
  | divisionByZero (dividend : Int)
  | exponentTooLarge (base exponent limit : Int)
  | negativeExponent (base exponent : Int)
  | negativeFactorial (value : Int)
  | factorialTooLarge
  | numeralTooLong
  deriving DecidableEq

namespace Arithmetic

/-- The greatest integer that has a factorial. -/
def factorialLimit : Int := 9223372036854775807

/-- The limit on exponents unless another one is set. -/
def standardExponentLimit : Nat := 2147483647

/-! ### Factorials -/

/-- The product of `acc` and the positive integers up to `n`. -/
def timesFactorial (acc : Nat) : Nat → Nat
  | 0 => acc
  | n + 1 => timesFactorial ((n + 1) * acc) n

/-- The factorial of an integer. -/
def factorial (n : Int) : Except ArithmeticError Int :=
  if n < 0 then .error (.negativeFactorial n)
  else if factorialLimit < n then .error .factorialTooLarge
  else .ok (timesFactorial 1 n.toNat)

/-! ### Quotients and powers -/

/-- The quotient rounded toward zero. -/
def divide (dividend divisor : Int) : Except ArithmeticError Int :=
  if divisor = 0 then .error (.divisionByZero dividend) else .ok (dividend.tdiv divisor)

/-- The powers of zero, one and minus one repeat, so that they need no multiplication however
large the exponent. -/
def raise (base : Int) (exponent : Nat) : Int :=
  if exponent = 0 then 1
  else if base = 0 then 0
  else if base = 1 then 1
  else if base = -1 then (if exponent % 2 = 0 then 1 else -1)
  else Int.pow base exponent

theorem raise_eq_pow (base : Int) (exponent : Nat) :
    raise base exponent = Int.pow base exponent := by
  unfold raise
  split
  · next h => exact h ▸ (Int.pow_zero base).symm
  split
  · next h₀ h => exact h ▸ (Int.zero_pow h₀).symm
  split
  · next h => exact h ▸ Int.one_pow.symm
  split
  · next h =>
    subst h
    have succ (n : Nat) : Int.pow (-1) (n + 1) = Int.pow (-1) n * -1 := Int.pow_succ (-1) n
    have even (k : Nat) : Int.pow (-1) (2 * k) = 1 := by
      induction k with
      | zero => rfl
      | succ k ih => rw [Nat.mul_succ, succ, succ, ih, Int.one_mul, Int.neg_mul_neg, Int.one_mul]
    have odd (k : Nat) : Int.pow (-1) (2 * k + 1) = -1 := by
      rw [succ, even, Int.one_mul]
    obtain ⟨k, rfl | rfl⟩ : ∃ k, exponent = 2 * k ∨ exponent = 2 * k + 1 :=
      ⟨exponent / 2, by omega⟩
    · rw [even, if_pos (by omega)]
    · rw [odd, if_neg (by omega)]
  · rfl

/-- Why an exponent that is not below the limit is refused. The message of that error shows the
limit, and if the limit is too long for a message, this is the error instead. -/
def excess (limit base exponent : Int) : ArithmeticError :=
  if Decimal.fitsMessage limit then .exponentTooLarge base exponent limit else .numeralTooLong

/-- The power of a base, for exponents from zero to below the limit. -/
def power (limit base exponent : Int) : Except ArithmeticError Int :=
  if exponent < 0 then .error (.negativeExponent base exponent)
  else if limit ≤ exponent then .error (excess limit base exponent)
  else .ok (raise base exponent.toNat)

end Arithmetic

open Arithmetic

/-- What a unary operator does to its operand. -/
def UnaryOp.apply (op : UnaryOp) (value : Int) : Except ArithmeticError Int :=
  match op with
  | .negate => .ok (-value)
  | .identity => .ok value
  | .factorial => Arithmetic.factorial value

/-- What a binary operator does to its operands; an assignment has the value of its right side. -/
def BinaryOp.apply (op : BinaryOp) (limit left right : Int) : Except ArithmeticError Int :=
  match op with
  | .add => .ok (left + right)
  | .subtract => .ok (left - right)
  | .multiply => .ok (left * right)
  | .divide => Arithmetic.divide left right
  | .exponent => Arithmetic.power limit left right
  | .assign => .ok right

/-! ### Operands in messages -/

namespace Arithmetic

/-- An operand in a message: its numeral if it has at most fifty digits, else its sign and about
how many digits it has, at 0.30103 digits for each bit. -/
def operandText (n : Int) : String :=
  if n.natAbs < Decimal.powerOfTen 50 then Decimal.ofInt n
  else
    let bits := Nat.log2 n.natAbs + 1
    let digits := bits * 30103 / 100000 + 1
    (if n < 0 then "-" else "") ++ "<~" ++ Decimal.ofInt digits ++ "-digit integer>"

end Arithmetic

/-- The text of the error. -/
def ArithmeticError.message : ArithmeticError → String
  | .divisionByZero dividend => "division by zero (" ++ operandText dividend ++ " / 0)"
  | .exponentTooLarge base exponent limit =>
    "exponent too large (" ++ operandText base ++ " ^ " ++ operandText exponent
      ++ "), must be below " ++ Decimal.ofInt limit
  | .negativeExponent base exponent =>
    "negative exponent (" ++ operandText base ++ " ^ " ++ operandText exponent
      ++ ") has no integer result"
  | .negativeFactorial value =>
    "factorial not defined for negative numbers (" ++ operandText value ++ "!)"
  | .factorialTooLarge =>
    "factorial() argument should not exceed " ++ Decimal.ofInt factorialLimit
  | .numeralTooLong =>
    "Exceeds the limit (" ++ Decimal.ofInt Decimal.messageWidth ++ " digits) for integer string"
      ++ " conversion; use sys.set_int_max_str_digits() to increase the limit"

end Calculator
