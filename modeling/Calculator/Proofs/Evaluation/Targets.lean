import Calculator.Proofs.Evaluation.Nesting

/-!
# Evaluations that differ in what an error shows

The error of an assignment to something that is no variable shows a tree. When one expression is
turned into another, this tree is turned into another too; everything else that the two evaluations
do may be the same.
-/

namespace Calculator

/-- The error in which the target that is no variable is changed by `f`. -/
def EvalError.mapTarget (f : Expr → Expr) : EvalError → EvalError
  | .invalidTarget target => .invalidTarget (f target)
  | error => error

namespace Run

/-- The run in which the target that its error shows is changed by `f`. -/
def mapTarget (f : Expr → Expr) (run : Run) : Run :=
  ⟨run.outcome.mapError (EvalError.mapTarget f), run.writes⟩

variable {f : Expr → Expr} {run : Run} {env : Environment} {next next' : Int → Environment → Run}

lemma mapTarget_ofArithmetic (f : Expr → Expr) (result : Except ArithmeticError Int) :
    (ofArithmetic result).mapTarget f = ofArithmetic result := by
  cases result <;> rfl

/-- A change of targets goes through a sequence if it goes through what follows. -/
lemma andThen_mapTarget
    (h : ∀ v, next' v (env.commit run.writes) = (next v (env.commit run.writes)).mapTarget f) :
    (run.mapTarget f).andThen env next' = (run.andThen env next).mapTarget f := by
  cases hr : run.outcome with
  | error e =>
    have hr' : (run.mapTarget f).outcome = .error (e.mapTarget f) := by
      rw [mapTarget, hr]
      rfl
    rw [andThen_of_error hr, andThen_of_error hr']
  | ok v =>
    have hr' : (run.mapTarget f).outcome = .ok v := by
      rw [mapTarget, hr]
      rfl
    have hwrites : (run.mapTarget f).writes = run.writes := rfl
    rw [andThen_of_ok hr, andThen_of_ok hr', hwrites, h v]
    rfl

end Run

namespace Expr

variable {f : Expr → Expr} {limit : Int} {env : Environment} {e e' l l' r r' c c' y y' n n' : Expr}

/-! ### One node at a time

If the parts of a tree are run as those of another tree are, but for the target that an error shows,
then so are the trees. -/

lemma run_unary_mapTarget (op : UnaryOp)
    (he : e'.run limit .unlimited env = (e.run limit .unlimited env).mapTarget f) :
    (unary op e').run limit .unlimited env =
      ((unary op e).run limit .unlimited env).mapTarget f := by
  simp only [run, Run.enter_unlimited, he]
  exact Run.andThen_mapTarget fun v => (Run.mapTarget_ofArithmetic _ _).symm

lemma run_conditional_mapTarget
    (hc : c'.run limit .unlimited env = (c.run limit .unlimited env).mapTarget f)
    (hy : y'.run limit .unlimited (env.commit (c.run limit .unlimited env).writes) =
      (y.run limit .unlimited (env.commit (c.run limit .unlimited env).writes)).mapTarget f)
    (hn : n'.run limit .unlimited (env.commit (c.run limit .unlimited env).writes) =
      (n.run limit .unlimited (env.commit (c.run limit .unlimited env).writes)).mapTarget f) :
    (conditional c' y' n').run limit .unlimited env =
      ((conditional c y n).run limit .unlimited env).mapTarget f := by
  simp only [run, Run.enter_unlimited, hc]
  refine Run.andThen_mapTarget fun v => ?_
  split
  · exact hy
  · exact hn

lemma run_operation_mapTarget {op : BinaryOp} (hop : op ≠ .assign)
    (hr : r'.run limit .unlimited env = (r.run limit .unlimited env).mapTarget f)
    (hl : l'.run limit .unlimited (env.commit (r.run limit .unlimited env).writes) =
      (l.run limit .unlimited (env.commit (r.run limit .unlimited env).writes)).mapTarget f) :
    (binary op l' r').run limit .unlimited env =
      ((binary op l r).run limit .unlimited env).mapTarget f := by
  simp only [run, Run.enter_unlimited, hr, if_neg hop]
  refine Run.andThen_mapTarget fun right => ?_
  rw [hl]
  exact Run.andThen_mapTarget fun left => (Run.mapTarget_ofArithmetic _ _).symm

/-- What an assignment does once its right side has a value is up to its target. -/
lemma run_assign (limit : Int) (l r : Expr) (env : Environment) :
    (binary .assign l r).run limit .unlimited env =
      (r.run limit .unlimited env).andThen env fun right _ =>
        match BinaryOp.assign.target? l with
        | some x => ⟨.ok right, [(x, right)]⟩
        | none => Run.error (.invalidTarget l) := by
  cases l <;> rfl

/-- The change must leave a target that is a variable as it is, and make no variable of another. -/
lemma run_assign_mapTarget
    (hl : BinaryOp.assign.target? (f l) = BinaryOp.assign.target? l)
    (hr : r'.run limit .unlimited env = (r.run limit .unlimited env).mapTarget f) :
    (binary .assign (f l) r').run limit .unlimited env =
      ((binary .assign l r).run limit .unlimited env).mapTarget f := by
  rw [run_assign, run_assign, hr, hl]
  refine Run.andThen_mapTarget fun right => ?_
  cases BinaryOp.assign.target? l <;> rfl

/-! ### Evaluations -/

/-- In `env`, evaluating `e'` has the outcome of evaluating `e`, but for the target that an error
shows, and leaves the same variables, unless one of the two is nested too deeply. -/
def EvaluatesLike (f : Expr → Expr) (env : Environment) (e' e : Expr) : Prop :=
  ∀ limit allowance allowance', (e.evaluate limit allowance env).1 ≠ .error .tooDeep →
    (e'.evaluate limit allowance' env).1 ≠ .error .tooDeep →
      e'.evaluate limit allowance' env =
        ((e.evaluate limit allowance env).1.mapError (EvalError.mapTarget f),
          (e.evaluate limit allowance env).2)

/-- It is enough to compare the runs without a limit on nesting. -/
lemma EvaluatesLike.of_run {f : Expr → Expr} {env : Environment} {e' e : Expr}
    (h : ∀ limit, e'.run limit .unlimited env = (e.run limit .unlimited env).mapTarget f) :
    EvaluatesLike f env e' e := by
  intro limit allowance allowance' hdeep hdeep'
  rw [evaluate_eq_unlimited hdeep, evaluate_eq_unlimited hdeep']
  simp only [evaluate, h limit, Run.mapTarget]

end Expr

end Calculator
