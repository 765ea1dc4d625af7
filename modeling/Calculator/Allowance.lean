/-!
# Allowances of nesting

Reading, evaluating and drawing an expression descend into it level by level. How many levels they
may descend is an allowance that is handed down and spent; it may also be unlimited.
-/

namespace Calculator

/-- How many levels of nesting are still allowed. -/
inductive Allowance where
  | unlimited
  | levels (count : Nat)
  deriving DecidableEq

namespace Allowance

/-- The allowance that is left one level further down, if there is one. -/
def spend? : Allowance → Option Allowance
  | .unlimited => some .unlimited
  | .levels 0 => none
  | .levels (n + 1) => some (.levels n)

/-- The number of levels in an allowance, of which no more than `bound` can ever be used. -/
def count (bound : Nat) : Allowance → Nat
  | .unlimited => bound
  | .levels n => n

/-- The allowance of the program. -/
def standard : Allowance := .levels 1000

@[simp] theorem spend?_unlimited : spend? .unlimited = some .unlimited := rfl

@[simp] theorem spend?_levels_zero : spend? (.levels 0) = none := rfl

@[simp] theorem spend?_levels_succ (n : Nat) : spend? (.levels (n + 1)) = some (.levels n) := rfl

end Allowance

end Calculator
