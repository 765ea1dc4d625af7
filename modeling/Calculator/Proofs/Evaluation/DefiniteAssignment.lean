import Calculator.Proofs.Evaluation
import Mathlib.Data.Finset.Lattice.Lemmas
import Mathlib.Data.Finset.SDiff

/-!
# Definite assignment

Which variables have to have a value before an expression is evaluated, and which ones have one
afterwards, can be read off the tree. What the right operand of an operator assigns to is there when
the left one is evaluated, and not the other way round; of the branches of a conditional only what
both of them assign to is sure. An evaluation can miss a variable only if it has no value at the
start and is among those that must have one.
-/

namespace Calculator

/-! ### Runs -/

namespace Run

variable {run : Run} {env : Environment} {next : Int → Environment → Run}
  {first first₂ sure sure₂ : Finset String}

/-- A run from `env` assigns to all of `sure` if it ends with a value, and if it ends for lack of
a variable, this is one of `first` and has no value in `env`. -/
structure Assures (env : Environment) (first sure : Finset String) (run : Run) : Prop where
  assigned : ∀ v, run.outcome = .ok v → ∀ x ∈ sure, x ∈ run.assigned
  undefined : ∀ x, run.outcome = .error (.undefinedVariable x) →
    env.get? x = none ∧ x ∈ first

namespace Assures

lemma value (v : Int) : (value v).Assures env first ∅ where
  assigned _ _ x hx := absurd hx (Finset.notMem_empty x)
  undefined _ h := by cases h

/-- An error of another kind than a variable without a value assures whatever is asked. -/
lemma error {e : EvalError} (he : ∀ x, e ≠ .undefinedVariable x) :
    (error e).Assures env first sure where
  assigned _ h := by cases h
  undefined x h := absurd (Except.error.inj h) (he x)

lemma assign (x : String) (v : Int) :
    Assures env first {x} ⟨.ok v, [(x, v)]⟩ where
  assigned _ _ y hy := by simpa [Run.assigned] using hy
  undefined _ h := by cases h

lemma ofArithmetic (result : Except ArithmeticError Int) :
    (ofArithmetic result).Assures env first ∅ := by
  cases result with
  | ok v => exact value v
  | error e => exact error nofun

lemma mono (h : run.Assures env first sure) (hfirst : first ⊆ first₂) (hsure : sure₂ ⊆ sure) :
    run.Assures env first₂ sure₂ where
  assigned v hv x hx := h.assigned v hv x (hsure hx)
  undefined x hx := ⟨(h.undefined x hx).1, hfirst (h.undefined x hx).2⟩

/-- What follows a run may miss only what the run has not assigned to. -/
lemma andThen (h : run.Assures env first sure)
    (hnext : ∀ v env', (next v env').Assures env' first₂ sure₂) :
    (run.andThen env next).Assures env (first ∪ (first₂ \ sure)) (sure ∪ sure₂) := by
  cases hrun : run.outcome with
  | error e =>
    rw [andThen_of_error hrun]
    refine ⟨fun v hv => ?_, fun x hx => ?_⟩
    · rw [hrun] at hv
      cases hv
    · obtain ⟨hunbound, hfirst⟩ := h.undefined x hx
      exact ⟨hunbound, Finset.mem_union_left _ hfirst⟩
  | ok v =>
    have hafter := hnext v (env.commit run.writes)
    rw [andThen_of_ok hrun]
    refine ⟨fun w hw x hx => ?_, fun x hx => ?_⟩
    · rw [Run.assigned, List.map_append, List.mem_append]
      obtain hx | hx := Finset.mem_union.mp hx
      · exact .inl (h.assigned v hrun x hx)
      · exact .inr (hafter.assigned w hw x hx)
    · obtain ⟨hunbound, hfirst⟩ := hafter.undefined x hx
      rw [Environment.get?_commit, Option.or_eq_none_iff] at hunbound
      have hsure : x ∉ sure := fun hx =>
        Environment.lastValue?_eq_none_iff.mp hunbound.1 (h.assigned v hrun x hx)
      exact ⟨hunbound.2, Finset.mem_union_right _ (Finset.mem_sdiff.mpr ⟨hfirst, hsure⟩)⟩

/-- What follows reads nothing. -/
lemma andThen_of_empty (h : run.Assures env first sure)
    (hnext : ∀ v env', (next v env').Assures env' ∅ sure₂) :
    (run.andThen env next).Assures env first (sure ∪ sure₂) := by
  have hall := h.andThen hnext
  rwa [Finset.empty_sdiff, Finset.union_empty] at hall

lemma andThen_ofArithmetic (h : run.Assures env first sure)
    (result : Int → Except ArithmeticError Int) :
    (run.andThen env fun v _ => Run.ofArithmetic (result v)).Assures env first sure := by
  have hall := h.andThen_of_empty fun v _ => ofArithmetic (result v)
  rwa [Finset.union_empty] at hall

lemma andThen_error (h : run.Assures env first sure) {error : EvalError}
    (herror : ∀ x, error ≠ .undefinedVariable x) :
    (run.andThen env fun _ _ => Run.error error).Assures env first sure := by
  have hall : (run.andThen env fun _ _ => Run.error error).Assures env first (sure ∪ ∅) :=
    h.andThen_of_empty fun _ _ => .error herror
  rwa [Finset.union_empty] at hall

lemma enter {allowance : Allowance} {body : Allowance → Run}
    (h : ∀ inner, (body inner).Assures env first sure) :
    (enter allowance body).Assures env first sure :=
  enter_of (error nofun) h

end Assures

end Run

/-! ### Expressions -/

namespace Expr

/-- The variables that are assigned to whenever an expression has a value. -/
def surelyAssigned : Expr → Finset String
  | .number _ | .ident _ => ∅
  | .unary _ e | .group e => e.surelyAssigned
  | .conditional c y n => c.surelyAssigned ∪ (y.surelyAssigned ∩ n.surelyAssigned)
  | .binary op l r =>
    if op = .assign then
      match l with
      | .ident x => r.surelyAssigned ∪ {x}
      | _ => r.surelyAssigned
    else r.surelyAssigned ∪ l.surelyAssigned

/-- The variables that evaluating an expression may read before it has assigned to them. -/
def readsFirst : Expr → Finset String
  | .number _ => ∅
  | .ident x => {x}
  | .unary _ e | .group e => e.readsFirst
  | .conditional c y n => c.readsFirst ∪ ((y.readsFirst ∪ n.readsFirst) \ c.surelyAssigned)
  | .binary op l r =>
    if op = .assign then r.readsFirst else r.readsFirst ∪ (l.readsFirst \ r.surelyAssigned)

/-- Evaluating an expression misses no other variables than those that it may read first, and
assigns to all that it surely assigns to. -/
theorem run_assures (limit : Int) (e : Expr) (allowance : Allowance) (env : Environment) :
    (e.run limit allowance env).Assures env e.readsFirst e.surelyAssigned := by
  induction e generalizing allowance env with
  | number n => exact .enter fun _ => .value n
  | ident x =>
    refine .enter fun _ => ?_
    cases hx : env.get? x with
    | some v => exact .value v
    | none =>
      refine ⟨nofun, fun y hy => ?_⟩
      obtain rfl : x = y := by cases hy; rfl
      exact ⟨hx, Finset.mem_singleton_self x⟩
  | unary op e ih => exact .enter fun inner => (ih inner env).andThen_ofArithmetic op.apply
  | group e ih => exact .enter fun inner => ih inner env
  | conditional c y n ihc ihy ihn =>
    refine .enter fun inner => (ihc inner env).andThen fun v env' => ?_
    split
    · exact (ihy inner env').mono Finset.subset_union_left Finset.inter_subset_left
    · exact (ihn inner env').mono Finset.subset_union_right Finset.inter_subset_right
  | binary op l r ihl ihr =>
    refine .enter fun inner => ?_
    by_cases hop : op = .assign
    · subst hop
      cases l with
      | ident x => exact (ihr inner env).andThen_of_empty fun right _ => .assign x right
      | _ =>
        -- without a variable on the left there is no value, whatever is assigned to on the right
        exact (ihr inner env).andThen_error nofun
    · simp only [readsFirst, surelyAssigned, if_neg hop]
      exact (ihr inner env).andThen fun right env' =>
        (ihl inner env').andThen_ofArithmetic fun left => op.apply limit left right

/-- If all variables that an expression may read first have values, evaluating it misses none; if it
has a value, all variables that it surely assigns to have one afterwards. A variable that is missed
had no value before, and is one that the expression may read first. -/
theorem definite_assignment (limit : Int) (allowance : Allowance) (e : Expr) (env : Environment) :
    let after := e.evaluate limit allowance env
    ((∀ x ∈ e.readsFirst, env.contains x = true) →
        ∀ x, after.1 ≠ .error (.undefinedVariable x)) ∧
      (∀ v, after.1 = .ok v → ∀ x ∈ e.surelyAssigned, after.2.contains x = true) ∧
      ∀ x, after.1 = .error (.undefinedVariable x) →
        env.contains x = false ∧ x ∈ e.readsFirst := by
  intro after
  have hassures := run_assures limit e allowance env
  have hmissed (x : String) (hx : after.1 = .error (.undefinedVariable x)) :
      env.contains x = false ∧ x ∈ e.readsFirst := by
    obtain ⟨hunbound, hfirst⟩ := hassures.undefined x hx
    exact ⟨by rw [Environment.contains, hunbound]; rfl, hfirst⟩
  refine ⟨fun hbound x hx => ?_, fun v hv x hx => ?_, hmissed⟩
  · obtain ⟨hunbound, hfirst⟩ := hmissed x hx
    rw [hbound x hfirst] at hunbound
    cases hunbound
  · obtain ⟨w, hw⟩ := Environment.exists_lastValue?_of_mem (hassures.assigned v hv x hx)
    have hget : after.2.get? x = some w := by
      rw [show after.2 = env.commit (e.run limit allowance env).writes from rfl,
        Environment.get?_commit, hw, Option.some_or]
    rw [Environment.contains, hget]
    rfl

/-- The line `(a * b) + if c then a := b := 3 else b := (a := 4) end`, in which only `c` must have
a value before. -/
theorem definite_assignment_branches :
    let e := binary .add (group (binary .multiply (ident "a") (ident "b")))
      (conditional (ident "c") (binary .assign (ident "a") (binary .assign (ident "b") (number 3)))
        (binary .assign (ident "b") (group (binary .assign (ident "a") (number 4)))))
    let after := e.evaluate 100 .standard (.ofEntries [("c", 0)])
    let missing := e.evaluate 100 .standard (.ofEntries [("a", 1)])
    (e.readsFirst = {"c"} ∧ e.surelyAssigned = {"a", "b"}) ∧
      (∀ x, after.1 ≠ .error (.undefinedVariable x)) ∧ after.1 = .ok 20 ∧
      (∀ x ∈ e.surelyAssigned, after.2.contains x = true) ∧
      missing.1 = .error (.undefinedVariable "c") ∧ "c" ∈ e.readsFirst := by
  intro e after missing
  have hfirst : e.readsFirst = {"c"} := by decide
  have hsure : e.surelyAssigned = {"a", "b"} := by decide
  have hvalue : after.1 = .ok 20 := by decide
  have hmissing : missing.1 = .error (.undefinedVariable "c") := by decide
  obtain ⟨hdefined, hbound, -⟩ := definite_assignment 100 .standard e (.ofEntries [("c", 0)])
  obtain ⟨-, -, hunbound⟩ := definite_assignment 100 .standard e (.ofEntries [("a", 1)])
  refine ⟨⟨hfirst, hsure⟩, hdefined fun x hx => ?_, hvalue, hbound 20 hvalue, hmissing,
    (hunbound "c" hmissing).2⟩
  rw [hfirst, Finset.mem_singleton] at hx
  rw [hx]
  decide

end Expr

end Calculator
