import Calculator.Allowance
import Calculator.Arithmetic
import Calculator.Environment
import Calculator.Expr

/-!
# Evaluation

Evaluating an expression in an environment gives a value or an error, and the assignments that were
made on the way, in order. The right operand of an operator is evaluated before the left one, and
an assignment takes effect at once: what is evaluated after it sees it, and an error after it does
not take it back.

Every level of the tree that is entered costs one level of the allowance.
-/

namespace Calculator

/-- Why an expression has no value. -/
inductive EvalError where
  | undefinedVariable (name : String)
  | invalidTarget (target : Expr)
  | arithmetic (error : ArithmeticError)
  | tooDeep
  deriving DecidableEq

/-- What messages call the sort of an expression. -/
def Expr.sort : Expr → String
  | .number _ => "NumberLiteral"
  | .ident _ => "Identifier"
  | .unary _ _ => "UnaryOp"
  | .binary _ _ _ => "BinaryOp"
  | .group _ => "Grouping"
  | .conditional _ _ _ => "Conditional"

/-- The text of the error. -/
def EvalError.message : EvalError → String
  | .undefinedVariable name => "undefined variable: " ++ name
  | .invalidTarget target =>
    "left-hand side of ':=' must be an identifier, got " ++ target.sort
  | .arithmetic error => error.message
  | .tooDeep => "expression nested too deeply"

/-- The outcome of evaluating an expression and the assignments made on the way. -/
structure Run where
  outcome : Except EvalError Int
  writes : List (String × Int)

namespace Run

/-- A run that ends with a value and assigns nothing. -/
def value (v : Int) : Run := ⟨.ok v, []⟩

/-- A run that ends with an error and assigns nothing. -/
def error (e : EvalError) : Run := ⟨.error e, []⟩

/-- The run of an arithmetic operation. -/
def ofArithmetic : Except ArithmeticError Int → Run
  | .ok v => value v
  | .error e => error (.arithmetic e)

/-- Continues a run that started in `env` with its value and the environment that it left. -/
def andThen (run : Run) (env : Environment) (next : Int → Environment → Run) : Run :=
  match run.outcome with
  | .error _ => run
  | .ok v =>
    let run' := next v (env.commit run.writes)
    ⟨run'.outcome, run.writes ++ run'.writes⟩

/-- Enters a level of a tree, if one is allowed. -/
def enter (allowance : Allowance) (body : Allowance → Run) : Run :=
  match allowance.spend? with
  | none => error .tooDeep
  | some allowance => body allowance

end Run

namespace Expr

/-- The run of an expression in an environment, with exponents below `limit`. -/
def run (limit : Int) : Expr → Allowance → Environment → Run
  | .number n, allowance, _ => Run.enter allowance fun _ => Run.value n
  | .ident x, allowance, env => Run.enter allowance fun _ =>
    match env.get? x with
    | some v => Run.value v
    | none => Run.error (.undefinedVariable x)
  | .unary op e, allowance, env => Run.enter allowance fun allowance =>
    (e.run limit allowance env).andThen env fun v _ => Run.ofArithmetic (op.apply v)
  | .group e, allowance, env => Run.enter allowance fun allowance => e.run limit allowance env
  | .conditional c y n, allowance, env => Run.enter allowance fun allowance =>
    (c.run limit allowance env).andThen env fun v env =>
      if v ≠ 0 then y.run limit allowance env else n.run limit allowance env
  | .binary op l r, allowance, env => Run.enter allowance fun allowance =>
    (r.run limit allowance env).andThen env fun right env =>
      if op = .assign then
        match l with
        | .ident x => ⟨.ok right, [(x, right)]⟩
        | target => Run.error (.invalidTarget target)
      else
        (l.run limit allowance env).andThen env fun left _ =>
          Run.ofArithmetic (op.apply limit left right)

/-- The outcome of an expression in an environment, and the environment after it. -/
def evaluate (limit : Int) (allowance : Allowance) (e : Expr) (env : Environment) :
    Except EvalError Int × Environment :=
  let run := e.run limit allowance env
  (run.outcome, env.commit run.writes)

end Expr

end Calculator
