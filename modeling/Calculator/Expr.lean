import Calculator.Operator

/-!
# Expressions

The trees that lines are read into. Parentheses are kept as nodes of their own.
-/

namespace Calculator

/-- An expression. -/
inductive Expr where
  | number (value : Int)
  | ident (name : String)
  | unary (op : UnaryOp) (operand : Expr)
  | binary (op : BinaryOp) (left right : Expr)
  | group (inner : Expr)
  | conditional (condition yes no : Expr)
  deriving DecidableEq

namespace Expr

/-- The number of levels of a tree; a leaf has one. -/
def height : Expr → Nat
  | .number _ | .ident _ => 1
  | .unary _ e | .group e => e.height + 1
  | .binary _ l r => max l.height r.height + 1
  | .conditional c y n => max c.height (max y.height n.height) + 1

end Expr

end Calculator
