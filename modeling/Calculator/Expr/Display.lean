import Calculator.Allowance
import Calculator.Expr
import Calculator.Text.Decimal

/-!
# Drawing expressions

A tree is drawn with one line for each node, a node before its operands, and every operand
connected to its node by a branch that is four columns wide.
-/

namespace Calculator

open Text

namespace Expr

/-- What stands on the line of a node. -/
def label : Expr → String
  | .number n => Decimal.ofInt n
  | .ident x => x
  | .unary op _ => "Unary " ++ op.symbol
  | .binary op _ _ => "Binary " ++ op.symbol
  | .group _ => "Parens"
  | .conditional _ _ _ => "If"

/-- The branch that leads to a node. -/
def branch (last : Bool) : String := if last then "└── " else "├── "

/-- What continues a branch on the lines below its node. -/
def trunk (last : Bool) : String := if last then "    " else "|   "

/-- The lines of a tree to the right of `indent`, or nothing if it has more levels than are
allowed. `last` tells whether the tree is the last operand of its node. -/
def lines? : Expr → (allowance : Allowance) → (indent : String) → (last : Bool) →
    Option (List String)
  | e, allowance, indent, last =>
    match allowance.spend? with
    | none => none
    | some allowance =>
      let line := indent ++ branch last ++ e.label
      let indent := indent ++ trunk last
      match e with
      | .number _ | .ident _ => some [line]
      | .unary _ e | .group e => do
        let lines ← e.lines? allowance indent true
        return line :: lines
      | .binary _ l r => do
        let left ← l.lines? allowance indent false
        let right ← r.lines? allowance indent true
        return line :: (left ++ right)
      | .conditional c y n => do
        let condition ← c.lines? allowance indent false
        let yes ← y.lines? allowance indent false
        let no ← n.lines? allowance indent true
        return line :: (condition ++ (yes ++ no))

/-- The drawing of a tree, if it has no more levels than are allowed. -/
def display? (allowance : Allowance) (e : Expr) : Option String :=
  (e.lines? allowance "" true).map "\n".intercalate

end Expr

end Calculator
