import Calculator.Token

/-!
# Operators and how tightly they bind

Every operator has a precedence level, and a level `l` stands for the power `2 * (l + 1)`. A unary
operator binds with that power on its one side. A binary operator binds with it on one side and
with one less on the other: less on the left if it associates to the left, less on the right if
it associates to the right. Comparing powers then settles associativity as well as precedence.
-/

namespace Calculator

/-- How tightly an operator binds an operand. -/
abbrev Power := Int

/-- The powers of a binary operator on its two sides. -/
structure Binding where
  left : Power
  right : Power
  deriving DecidableEq

namespace Binding

/-- The binding of a left-associative operator at a precedence level. -/
def leftAssociative (level : Int) : Binding := ⟨2 * (level + 1) - 1, 2 * (level + 1)⟩

/-- The binding of a right-associative operator at a precedence level. -/
def rightAssociative (level : Int) : Binding := ⟨2 * (level + 1), 2 * (level + 1) - 1⟩

end Binding

/-- The power of a unary operator at a precedence level. -/
def unaryPower (level : Int) : Power := 2 * (level + 1)

/-- The operators with one operand: the two signs, and the factorial behind its operand. -/
inductive UnaryOp where
  | negate
  | identity
  | factorial
  deriving DecidableEq

namespace UnaryOp

/-- How a unary operator is written. -/
def symbol : UnaryOp → String
  | .negate => "-"
  | .identity => "+"
  | .factorial => "!"

/-- The precedence level of a unary operator. -/
def level : UnaryOp → Nat
  | .negate | .identity => 3
  | .factorial => 5

/-- How tightly a unary operator binds its operand. -/
def power (op : UnaryOp) : Power := unaryPower op.level

end UnaryOp

/-- The operators with two operands. -/
inductive BinaryOp where
  | add
  | subtract
  | multiply
  | divide
  | exponent
  | assign
  deriving DecidableEq

namespace BinaryOp

/-- How a binary operator is written. -/
def symbol : BinaryOp → String
  | .add => "+"
  | .subtract => "-"
  | .multiply => "*"
  | .divide => "/"
  | .exponent => "^"
  | .assign => ":="

/-- The precedence level of a binary operator. -/
def level : BinaryOp → Nat
  | .assign => 0
  | .add | .subtract => 1
  | .multiply | .divide => 2
  | .exponent => 4

/-- How tightly a binary operator binds its operands; powers and assignments associate to the
right. -/
def binding (op : BinaryOp) : Binding :=
  match op with
  | .exponent | .assign => .rightAssociative op.level
  | .add | .subtract | .multiply | .divide => .leftAssociative op.level

end BinaryOp

namespace Token.Kind

/-- The sign that a token is in front of an operand. -/
def sign? : Kind → Option UnaryOp
  | .plus => some .identity
  | .minus => some .negate
  | _ => none

/-- The operator that a token is behind its only operand. -/
def suffix? : Kind → Option UnaryOp
  | .bang => some .factorial
  | _ => none

/-- The operator that a token is between two operands. -/
def operator? : Kind → Option BinaryOp
  | .plus => some .add
  | .minus => some .subtract
  | .asterisk => some .multiply
  | .slash => some .divide
  | .caret => some .exponent
  | .becomes => some .assign
  | _ => none

end Token.Kind

end Calculator
