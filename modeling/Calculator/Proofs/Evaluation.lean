import Calculator.Expr.Evaluation
import Calculator.Proofs.Assignments

/-!
# Runs of expressions

What a sequence of runs does, said of its parts, and the variables that an expression assigns to and
those that it reads.
-/

namespace Calculator

namespace Run

variable {run run' : Run} {env env' : Environment} {next next' : Int → Environment → Run}
  {names names' : List String}

/-! ### Sequences -/

lemma andThen_of_error {e : EvalError} (h : run.outcome = .error e) :
    run.andThen env next = run := by
  simp only [andThen, h]

lemma andThen_of_ok {v : Int} (h : run.outcome = .ok v) :
    run.andThen env next =
      ⟨(next v (env.commit run.writes)).outcome,
        run.writes ++ (next v (env.commit run.writes)).writes⟩ := by
  simp only [andThen, h]

lemma andThen_eq_error_iff {error : EvalError} :
    (run.andThen env next).outcome = .error error ↔
      run.outcome = .error error ∨
        ∃ v, run.outcome = .ok v ∧ (next v (env.commit run.writes)).outcome = .error error := by
  cases hrun : run.outcome with
  | error e => simp [andThen_of_error hrun, hrun]
  | ok v => simp [andThen_of_ok hrun]

/-- The same run may be continued differently as long as its value, if it has one, is not. -/
lemma andThen_congr_of_ok (h : ∀ v, run.outcome = .ok v →
    next v (env.commit run.writes) = next' v (env'.commit run.writes)) :
    run.andThen env next = run.andThen env' next' := by
  cases hr : run.outcome with
  | error e => rw [andThen_of_error hr, andThen_of_error hr]
  | ok v => rw [andThen_of_ok hr, andThen_of_ok hr, h v hr]

lemma andThen_congr
    (h : ∀ v, next v (env.commit run.writes) = next' v (env'.commit run.writes)) :
    run.andThen env next = run.andThen env' next' :=
  andThen_congr_of_ok fun v _ => h v

lemma ofArithmetic_eq (result : Except ArithmeticError Int) :
    ofArithmetic result = ⟨result.mapError .arithmetic, []⟩ := by
  cases result <;> rfl

@[simp] lemma enter_unlimited (body : Allowance → Run) :
    enter .unlimited body = body .unlimited := rfl

@[simp] lemma enter_levels_succ (count : Nat) (body : Allowance → Run) :
    enter (.levels (count + 1)) body = body (.levels count) := rfl

/-- Entering a level either gives up or goes on with the allowance that is left. -/
lemma enter_of {P : Run → Prop} {allowance : Allowance} {body : Allowance → Run}
    (hdeep : P (error .tooDeep)) (hbody : ∀ inner, P (body inner)) : P (enter allowance body) := by
  unfold enter
  split
  · exact hdeep
  · exact hbody _

lemma enter_congr {allowance : Allowance} {body body' : Allowance → Run}
    (h : ∀ inner, body inner = body' inner) : enter allowance body = enter allowance body' := by
  rw [funext h]

/-! ### Runs that stop early -/

lemma writes_prefix_andThen (run : Run) (env : Environment) (next : Int → Environment → Run) :
    run.writes <+: (run.andThen env next).writes := by
  cases h : run.outcome with
  | error e => simp [andThen_of_error h]
  | ok v => simp [andThen_of_ok h]

/-- The run is `full`, or it stops with one of these errors at a point up to which it is. -/
def StopsEarly (isStop : EvalError → Prop) (run full : Run) : Prop :=
  run = full ∨ ∃ error, isStop error ∧ run.outcome = .error error ∧ run.writes <+: full.writes

namespace StopsEarly

variable {isStop : EvalError → Prop} {full : Run}

protected lemma rfl : StopsEarly isStop run run := .inl (Eq.refl run)

/-- A run without assignments may stop anywhere. -/
lemma error {error : EvalError} (h : isStop error) (full : Run) :
    StopsEarly isStop (Run.error error) full :=
  .inr ⟨error, h, Eq.refl _, List.nil_prefix⟩

lemma andThen (h : StopsEarly isStop run full)
    (hnext : ∀ v env, StopsEarly isStop (next v env) (next' v env)) :
    StopsEarly isStop (run.andThen env next) (full.andThen env next') := by
  rcases h with rfl | ⟨error, herror, houtcome, hwrites⟩
  · cases h : run.outcome with
    | error e => rw [andThen_of_error h, andThen_of_error h]; exact .rfl
    | ok v =>
      rw [andThen_of_ok h, andThen_of_ok h]
      rcases hnext v (env.commit run.writes) with heq | ⟨error, herror, houtcome, hwrites⟩
      · rw [heq]
        exact .rfl
      · exact .inr ⟨error, herror, houtcome, (List.prefix_append_right_inj _).mpr hwrites⟩
  · rw [andThen_of_error houtcome]
    exact .inr ⟨error, herror, houtcome, hwrites.trans (writes_prefix_andThen full env next')⟩

lemma enter {allowance : Allowance} {body body' : Allowance → Run}
    (h : ∀ inner, StopsEarly isStop (body inner) (body' inner)) :
    StopsEarly isStop (enter allowance body) (enter allowance body') := by
  unfold Run.enter
  split
  · exact .rfl
  · exact h _

end StopsEarly

/-! ### Assigned variables -/

/-- The variables that a run assigns to, in order. -/
def assigned (run : Run) : List String := run.writes.map Prod.fst

/-- Every variable that the run assigns to is one of `names`. -/
def AssignsOnly (names : List String) (run : Run) : Prop := ∀ x ∈ run.assigned, x ∈ names

namespace AssignsOnly

lemma value (v : Int) : (value v).AssignsOnly names := by simp [AssignsOnly, assigned, Run.value]

lemma error (e : EvalError) : (error e).AssignsOnly names := by
  simp [AssignsOnly, assigned, Run.error]

lemma ofArithmetic (result : Except ArithmeticError Int) :
    (ofArithmetic result).AssignsOnly names := by
  cases result with
  | ok v => exact value v
  | error e => exact error _

lemma mono (h : run.AssignsOnly names) (hsub : names ⊆ names') : run.AssignsOnly names' :=
  fun x hx => hsub (h x hx)

lemma andThen (h : run.AssignsOnly names) (hnext : ∀ v env, (next v env).AssignsOnly names) :
    (run.andThen env next).AssignsOnly names := by
  cases hr : run.outcome with
  | error e =>
    rw [andThen_of_error hr]
    exact h
  | ok v =>
    rw [andThen_of_ok hr]
    intro x hx
    rw [assigned, List.map_append, List.mem_append] at hx
    exact hx.elim (h x) (hnext v _ x)

lemma enter {allowance : Allowance} {body : Allowance → Run}
    (h : ∀ inner, (body inner).AssignsOnly names) : (enter allowance body).AssignsOnly names :=
  enter_of (error _) h

end AssignsOnly

end Run

/-! ### Variables of an expression -/

/-- The variable that an operation assigns to: it must be an assignment with a variable on its
left. -/
def BinaryOp.target? : BinaryOp → (left : Expr) → Option String
  | .assign, .ident x => some x
  | _, _ => none

lemma BinaryOp.eq_ident_of_target?_eq_some {op : BinaryOp} {l : Expr} {x : String}
    (h : op.target? l = some x) : l = .ident x := by
  cases op <;> cases l <;> cases h
  rfl

namespace Expr

/-- The variables that stand directly on the left of an assignment. -/
def targets : Expr → List String
  | .number _ | .ident _ => []
  | .unary _ e | .group e => e.targets
  | .binary op l r => (op.target? l).toList ++ (l.targets ++ r.targets)
  | .conditional c y n => c.targets ++ (y.targets ++ n.targets)

/-- The variables that stand anywhere else. -/
def reads : Expr → List String
  | .number _ => []
  | .ident x => [x]
  | .unary _ e | .group e => e.reads
  | .binary op l r => (if (op.target? l).isSome then [] else l.reads) ++ r.reads
  | .conditional c y n => c.reads ++ (y.reads ++ n.reads)

end Expr

end Calculator
