import Calculator.Proofs.Evaluation
import Calculator.Proofs.Sequencing
import Mathlib.Data.List.Induction

/-!
# The order of evaluation

Without a limit on nesting, evaluating an expression is a computation that works on an environment
and may fail. In a chain of operations that is nested to the left, the operands are computed from
the last one to the first one, each in the environment that the one before it has left; only then is
anything calculated, and this from the first operand to the last one.
-/

namespace Calculator

/-- An evaluation works on an environment and may fail; a failure leaves the environment as it is
then. -/
abbrev Evaluation (α : Type) := ExceptT EvalError (StateM Environment) α

namespace Evaluation

variable {α β : Type} {x : Evaluation α} {f : α → Evaluation β} {env env' : Environment}

/-- The evaluation of an arithmetic operation. -/
def ofArithmetic : Except ArithmeticError Int → Evaluation Int
  | .ok v => pure v
  | .error e => throw (.arithmetic e)

lemma bind_of_ok {a : α} (h : x.run.run env = (.ok a, env')) :
    (x >>= f).run.run env = (f a).run.run env' := by
  simp only [ExceptT.run_bind, StateT.run_bind, h]
  rfl

lemma bind_of_error {e : EvalError} (h : x.run.run env = (.error e, env')) :
    (x >>= f).run.run env = (.error e, env') := by
  simp only [ExceptT.run_bind, StateT.run_bind, h]
  rfl

lemma ofArithmetic_bind (x : Except ArithmeticError Int) (f : Int → Except ArithmeticError Int) :
    ofArithmetic (x >>= f) = ofArithmetic x >>= fun v => ofArithmetic (f v) := by
  cases x with
  | error e => rfl
  | ok v => exact (pure_bind v fun v => ofArithmetic (f v)).symm

end Evaluation

namespace Expr

open Evaluation

/-- The evaluation of an expression, with no limit on nesting. -/
def compute (limit : Int) (e : Expr) : Evaluation Int :=
  ExceptT.mk fun env => e.evaluate limit .unlimited env

lemma run_compute (limit : Int) (e : Expr) (env : Environment) :
    (e.compute limit).run.run env =
      ((e.run limit .unlimited env).outcome, env.commit (e.run limit .unlimited env).writes) := rfl

/-- An operation computes its right operand, then its left one, and then its result. -/
theorem compute_operation (limit : Int) {op : BinaryOp} (hop : op ≠ .assign) (l r : Expr) :
    (binary op l r).compute limit = (do
      let right ← r.compute limit
      let left ← l.compute limit
      ofArithmetic (op.apply limit left right)) := by
  refine ExceptT.ext (StateT.ext fun env => ?_)
  have hrun : (binary op l r).run limit .unlimited env =
      (r.run limit .unlimited env).andThen env fun right env =>
        (l.run limit .unlimited env).andThen env fun left _ =>
          Run.ofArithmetic (op.apply limit left right) := by
    simp only [run, Run.enter, Allowance.spend?_unlimited, if_neg hop]
  have hr := run_compute limit r env
  rw [run_compute, hrun]
  cases hright : (r.run limit .unlimited env).outcome with
  | error e =>
    rw [hright] at hr
    rw [Run.andThen_of_error hright, bind_of_error hr, hright]
  | ok right =>
    rw [hright] at hr
    rw [Run.andThen_of_ok hright, bind_of_ok hr, Environment.commit_append]
    generalize env.commit (r.run limit .unlimited env).writes = env
    have hl := run_compute limit l env
    cases hleft : (l.run limit .unlimited env).outcome with
    | error e =>
      rw [hleft] at hl
      rw [Run.andThen_of_error hleft, bind_of_error hl, hleft]
    | ok left =>
      rw [hleft] at hl
      rw [Run.andThen_of_ok hleft, bind_of_ok hl, Environment.commit_append]
      cases op.apply limit left right <;> rfl

/-! ### Chains -/

/-- The operations of `terms` behind `first`, nested to the left. -/
def chain (first : Expr) (terms : List (BinaryOp × Expr)) : Expr :=
  terms.foldl (fun left term => .binary term.1 left term.2) first

lemma chain_append_singleton (first : Expr) (terms : List (BinaryOp × Expr))
    (term : BinaryOp × Expr) :
    chain first (terms ++ [term]) = .binary term.1 (chain first terms) term.2 := by
  simp [chain]

/-- Computes the operands behind operators, from the last one to the first one. -/
def computeOperands (limit : Int) :
    List (BinaryOp × Expr) → Evaluation (List (BinaryOp × Int))
  | [] => pure []
  | (op, e) :: rest => do
    let values ← computeOperands limit rest
    let v ← e.compute limit
    return (op, v) :: values

/-- Applies operators with their right operands to a value, from the first one to the last one. -/
def calculate (limit : Int) (first : Int) (values : List (BinaryOp × Int)) :
    Except ArithmeticError Int :=
  values.foldlM (fun left value => value.1.apply limit left value.2) first

/-- Computes the operands of a chain, and calculates when it has all of them. -/
def computeChain (limit : Int) (first : Expr) (terms : List (BinaryOp × Expr)) :
    Evaluation Int := do
  let values ← computeOperands limit terms
  let v ← first.compute limit
  ofArithmetic (calculate limit v values)

lemma computeOperands_append_singleton (limit : Int) (terms : List (BinaryOp × Expr))
    (op : BinaryOp) (e : Expr) :
    computeOperands limit (terms ++ [(op, e)]) = (do
      let v ← e.compute limit
      let values ← computeOperands limit terms
      return values ++ [(op, v)]) := by
  induction terms with
  | nil => simp [computeOperands]
  | cons term terms ih => simp [computeOperands, ih]

lemma calculate_nil (limit first : Int) : calculate limit first [] = .ok first := rfl

lemma calculate_cons (limit first : Int) (op : BinaryOp) (v : Int)
    (values : List (BinaryOp × Int)) :
    calculate limit first ((op, v) :: values) =
      op.apply limit first v >>= fun left => calculate limit left values := by
  simp [calculate]

lemma calculate_append (limit first : Int) (values values' : List (BinaryOp × Int)) :
    calculate limit first (values ++ values') =
      calculate limit first values >>= fun left => calculate limit left values' := by
  simp [calculate]

lemma calculate_append_singleton (limit first : Int) (values : List (BinaryOp × Int))
    (op : BinaryOp) (v : Int) :
    calculate limit first (values ++ [(op, v)]) =
      calculate limit first values >>= fun left => op.apply limit left v := by
  simp only [calculate, List.foldlM_append, List.foldlM_cons, List.foldlM_nil, bind_pure]

/-- Apart from powers, all that can fail is a division by zero. -/
lemma apply_eq_error_iff {limit left right : Int} {op : BinaryOp} (hop : op ≠ .exponent)
    {error : ArithmeticError} :
    op.apply limit left right = .error error ↔
      (op = .divide ∧ right = 0) ∧ error = .divisionByZero left := by
  cases op with
  | exponent => exact absurd rfl hop
  | divide =>
    by_cases hright : right = 0
    · simp [BinaryOp.apply, Arithmetic.divide, hright, eq_comm]
    · simp [BinaryOp.apply, Arithmetic.divide, hright]
  | _ => simp [BinaryOp.apply]

/-- Without powers, calculating fails at the first divisor that is zero, with what has been
calculated before it as the dividend. -/
theorem calculate_eq_error_iff {limit first : Int} {values : List (BinaryOp × Int)}
    (hops : ∀ value ∈ values, value.1 ≠ .exponent) {error : ArithmeticError} :
    calculate limit first values = .error error ↔ ∃ before after dividend,
      values = before ++ (.divide, 0) :: after ∧ calculate limit first before = .ok dividend ∧
        error = .divisionByZero dividend := by
  constructor
  · intro h
    induction values generalizing first with
    | nil => cases h
    | cons value values ih =>
      obtain ⟨op, v⟩ := value
      obtain ⟨hop, hops⟩ := List.forall_mem_cons.mp hops
      rw [calculate_cons, bind_eq_error_iff] at h
      rcases h with h | ⟨left, hleft, h⟩
      · obtain ⟨⟨rfl, rfl⟩, rfl⟩ := (apply_eq_error_iff hop).mp h
        exact ⟨[], values, first, rfl, rfl, rfl⟩
      · obtain ⟨before, after, dividend, rfl, hbefore, rfl⟩ := ih hops h
        refine ⟨(op, v) :: before, after, dividend, rfl, ?_, rfl⟩
        rw [calculate_cons, bind_eq_ok_iff]
        exact ⟨left, hleft, hbefore⟩
  · rintro ⟨before, after, dividend, rfl, hbefore, rfl⟩
    rw [calculate_append, hbefore]
    rfl

/-- A chain is computed operand by operand from its end, whatever its operations are. -/
theorem compute_chain (limit : Int) (first : Expr) {terms : List (BinaryOp × Expr)}
    (hops : ∀ term ∈ terms, term.1 ≠ .assign) :
    (chain first terms).compute limit = computeChain limit first terms := by
  induction terms using List.reverseRecOn with
  | nil => simp [chain, computeChain, computeOperands, calculate_nil, ofArithmetic]
  | append_singleton terms term ih =>
    obtain ⟨op, e⟩ := term
    have hop : op ≠ .assign := hops (op, e) (by simp)
    have ih := ih fun term hterm => hops term (List.mem_append_left _ hterm)
    rw [chain_append_singleton, compute_operation limit hop, ih, computeChain, computeChain,
      computeOperands_append_singleton]
    simp only [bind_assoc, pure_bind, calculate_append_singleton, ofArithmetic_bind]

end Expr

end Calculator
