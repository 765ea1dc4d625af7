import Calculator.Proofs.Evaluation
import Mathlib.Order.MinMax

/-!
# Nesting and the run of an expression

A limit on nesting can cut the evaluation of an expression short, but it changes nothing before that
point. An evaluation that does not hit the limit is the unlimited one. It hits the limit exactly if
it descends further than that, which may be less far than the tree is high, since not every part of
a tree is evaluated.
-/

namespace Calculator

namespace Allowance

/-- Where the first allowance permits a descent, the second one does too. -/
def AtMost : Allowance → Allowance → Prop
  | _, .unlimited => True
  | .levels m, .levels n => m ≤ n
  | .unlimited, .levels _ => False

lemma atMost_unlimited (allowance : Allowance) : allowance.AtMost .unlimited := by
  cases allowance <;> trivial

lemma AtMost.spend? {allowance allowance' : Allowance} (h : allowance.AtMost allowance') :
    allowance.spend? = none ∨ ∃ inner inner',
      allowance.spend? = some inner ∧ allowance'.spend? = some inner' ∧ inner.AtMost inner' := by
  cases allowance with
  | unlimited =>
    cases allowance' with
    | unlimited => exact .inr ⟨_, _, rfl, rfl, trivial⟩
    | levels n => exact h.elim
  | levels m =>
    cases m with
    | zero => exact .inl rfl
    | succ m =>
      cases allowance' with
      | unlimited => exact .inr ⟨_, _, rfl, rfl, trivial⟩
      | levels n =>
        cases n with
        | zero => exact absurd h (Nat.not_succ_le_zero m)
        | succ n => exact .inr ⟨_, _, rfl, rfl, Nat.le_of_succ_le_succ h⟩

end Allowance

namespace Run

variable {run full : Run} {env : Environment} {next next' : Int → Environment → Run}

/-- The run is `full`, or it gives up at a point up to which it is. -/
def CutShort (run full : Run) : Prop :=
  run = full ∨ run.outcome = .error .tooDeep ∧ run.writes <+: full.writes

lemma cutShort_iff_stopsEarly : CutShort run full ↔ StopsEarly (· = .tooDeep) run full := by
  simp [CutShort, StopsEarly]

lemma ofArithmetic_completes (result : Except ArithmeticError Int) :
    (ofArithmetic result).outcome ≠ .error .tooDeep := by
  cases result <;> exact nofun

namespace CutShort

protected lemma rfl : CutShort run run := .inl (Eq.refl run)

lemma eq_of_ok {v : Int} (h : CutShort run full) (hv : run.outcome = .ok v) : run = full := by
  rcases h with h | ⟨hdeep, -⟩
  · exact h
  · rw [hv] at hdeep
    cases hdeep

lemma andThen (h : CutShort run full) (hnext : ∀ v env, CutShort (next v env) (next' v env)) :
    CutShort (run.andThen env next) (full.andThen env next') := by
  simp only [cutShort_iff_stopsEarly] at h hnext ⊢
  exact h.andThen hnext

lemma enter {allowance allowance' : Allowance} {body body' : Allowance → Run}
    (h : allowance.AtMost allowance')
    (hbody : ∀ inner inner', inner.AtMost inner' → CutShort (body inner) (body' inner')) :
    CutShort (enter allowance body) (enter allowance' body') := by
  unfold Run.enter
  rcases h.spend? with hnone | ⟨inner, inner', hinner, hinner', hle⟩
  · rw [hnone]
    exact .inr ⟨rfl, List.nil_prefix⟩
  · rw [hinner, hinner']
    exact hbody inner inner' hle

end CutShort

end Run

namespace Expr

/-- Allowing more nesting changes a run at most behind the point where it gives up. -/
theorem run_cutShort (limit : Int) (e : Expr) {allowance allowance' : Allowance}
    (h : allowance.AtMost allowance') (env : Environment) :
    (e.run limit allowance env).CutShort (e.run limit allowance' env) := by
  induction e generalizing allowance allowance' env with
  | number n => exact .enter h fun _ _ _ => .rfl
  | ident x => exact .enter h fun _ _ _ => .rfl
  | unary op e ih => exact .enter h fun _ _ hinner => (ih hinner env).andThen fun v _ => .rfl
  | group e ih => exact .enter h fun _ _ hinner => ih hinner env
  | conditional c y n ihc ihy ihn =>
    refine .enter h fun _ _ hinner => (ihc hinner env).andThen fun v env => ?_
    split
    · exact ihy hinner env
    · exact ihn hinner env
  | binary op l r ihl ihr =>
    refine .enter h fun _ _ hinner => (ihr hinner env).andThen fun right env => ?_
    split
    · exact .rfl
    · exact (ihl hinner env).andThen fun left _ => .rfl

/-! ### How far an evaluation descends -/

/-- How many levels of a tree are entered at a time when it is evaluated: what is not evaluated, a
branch that is not chosen or an operand in front of one that fails, does not count. -/
def descent (limit : Int) : Expr → Environment → Nat
  | .number _, _ | .ident _, _ => 1
  | .unary _ e, env | .group e, env => e.descent limit env + 1
  | .conditional c y n, env =>
    let condition := c.run limit .unlimited env
    let env' := env.commit condition.writes
    let behind := match condition.outcome with
      | .ok v => if v ≠ 0 then y.descent limit env' else n.descent limit env'
      | .error _ => 0
    max (c.descent limit env) behind + 1
  | .binary op l r, env =>
    let right := r.run limit .unlimited env
    let behind := match right.outcome with
      | .ok _ => if op = .assign then 0 else l.descent limit (env.commit right.writes)
      | .error _ => 0
    max (r.descent limit env) behind + 1

lemma descent_le_height (limit : Int) (e : Expr) (env : Environment) :
    e.descent limit env ≤ e.height := by
  induction e generalizing env with
  | number _ | ident _ => exact Nat.le_refl 1
  | unary op e ih | group e ih => exact Nat.succ_le_succ (ih env)
  | conditional c y n ihc ihy ihn =>
    refine Nat.succ_le_succ (Nat.max_le.mpr ⟨Nat.le_trans (ihc env) (Nat.le_max_left _ _), ?_⟩)
    split
    · split
      · exact Nat.le_trans (ihy _) (Nat.le_trans (Nat.le_max_left _ _) (Nat.le_max_right _ _))
      · exact Nat.le_trans (ihn _) (Nat.le_trans (Nat.le_max_right _ _) (Nat.le_max_right _ _))
    · exact Nat.zero_le _
  | binary op l r ihl ihr =>
    refine Nat.succ_le_succ (Nat.max_le.mpr ⟨Nat.le_trans (ihr env) (Nat.le_max_right _ _), ?_⟩)
    split
    · split
      · exact Nat.zero_le _
      · exact Nat.le_trans (ihl _) (Nat.le_max_left _ _)
    · exact Nat.zero_le _

/-- An evaluation that does not descend below the limit is the unlimited one. -/
theorem run_of_descent_le (limit : Int) {e : Expr} {count : Nat} {env : Environment}
    (h : e.descent limit env ≤ count) :
    e.run limit (.levels count) env = e.run limit .unlimited env := by
  induction e generalizing count env with
  | number n =>
    obtain ⟨count, rfl⟩ := Nat.exists_eq_add_of_le' h
    rfl
  | ident x =>
    obtain ⟨count, rfl⟩ := Nat.exists_eq_add_of_le' h
    rfl
  | unary op e ih =>
    obtain ⟨count, rfl⟩ := Nat.exists_eq_add_of_le' (Nat.le_of_add_left_le h)
    have he := ih (Nat.le_of_succ_le_succ h)
    simp only [run, Run.enter_levels_succ, Run.enter_unlimited, he]
  | group e ih =>
    obtain ⟨count, rfl⟩ := Nat.exists_eq_add_of_le' (Nat.le_of_add_left_le h)
    exact ih (Nat.le_of_succ_le_succ h)
  | conditional c y n ihc ihy ihn =>
    obtain ⟨count, rfl⟩ := Nat.exists_eq_add_of_le' (Nat.le_of_add_left_le h)
    obtain ⟨hc, hbehind⟩ := Nat.max_le.mp (Nat.le_of_succ_le_succ h)
    simp only [run, Run.enter_levels_succ, Run.enter_unlimited, ihc hc]
    refine Run.andThen_congr_of_ok fun v houtcome => ?_
    simp only [houtcome] at hbehind
    split
    · next hv => rw [ihy (by rwa [if_pos hv] at hbehind)]
    · next hv => rw [ihn (by rwa [if_neg hv] at hbehind)]
  | binary op l r ihl ihr =>
    obtain ⟨count, rfl⟩ := Nat.exists_eq_add_of_le' (Nat.le_of_add_left_le h)
    obtain ⟨hr, hbehind⟩ := Nat.max_le.mp (Nat.le_of_succ_le_succ h)
    simp only [run, Run.enter_levels_succ, Run.enter_unlimited, ihr hr]
    refine Run.andThen_congr_of_ok fun v houtcome => ?_
    simp only [houtcome] at hbehind
    split
    · rfl
    · next hop => rw [ihl (by rwa [if_neg hop] at hbehind)]

/-- An evaluation that descends below the limit gives up. -/
theorem run_of_lt_descent (limit : Int) {e : Expr} {count : Nat} {env : Environment}
    (h : count < e.descent limit env) :
    (e.run limit (.levels count) env).outcome = .error .tooDeep := by
  induction e generalizing count env with
  | number n =>
    obtain rfl := Nat.lt_one_iff.mp h
    rfl
  | ident x =>
    obtain rfl := Nat.lt_one_iff.mp h
    rfl
  | unary op e ih =>
    cases count with
    | zero => rfl
    | succ count =>
      rw [run, Run.enter_levels_succ, Run.andThen_eq_error_iff]
      exact .inl (ih (Nat.lt_of_succ_lt_succ h))
  | group e ih =>
    cases count with
    | zero => rfl
    | succ count => exact ih (Nat.lt_of_succ_lt_succ h)
  | conditional c y n ihc ihy ihn =>
    cases count with
    | zero => rfl
    | succ count =>
      rw [run, Run.enter_levels_succ, Run.andThen_eq_error_iff]
      by_cases hc : count < c.descent limit env
      · exact .inl (ihc hc)
      · right
        have hbehind := (lt_max_iff.mp (Nat.lt_of_succ_lt_succ h)).resolve_left hc
        rw [run_of_descent_le limit (Nat.not_lt.mp hc)]
        cases houtcome : (c.run limit .unlimited env).outcome with
        | error error => simp [houtcome] at hbehind
        | ok v =>
          simp only [houtcome] at hbehind
          refine ⟨v, rfl, ?_⟩
          split
          · next hv => exact ihy (by rwa [if_pos hv] at hbehind)
          · next hv => exact ihn (by rwa [if_neg hv] at hbehind)
  | binary op l r ihl ihr =>
    cases count with
    | zero => rfl
    | succ count =>
      rw [run, Run.enter_levels_succ, Run.andThen_eq_error_iff]
      by_cases hr : count < r.descent limit env
      · exact .inl (ihr hr)
      · right
        have hbehind := (lt_max_iff.mp (Nat.lt_of_succ_lt_succ h)).resolve_left hr
        rw [run_of_descent_le limit (Nat.not_lt.mp hr)]
        cases houtcome : (r.run limit .unlimited env).outcome with
        | error error => simp [houtcome] at hbehind
        | ok v =>
          simp only [houtcome] at hbehind
          refine ⟨v, rfl, ?_⟩
          split
          · next hop => simp [hop] at hbehind
          · next hop =>
            rw [if_neg hop] at hbehind
            exact Run.andThen_eq_error_iff.mpr (.inl (ihl hbehind))

/-- A tree that is not higher than the limit is evaluated to the end. -/
theorem run_of_height_le (limit : Int) {e : Expr} {count : Nat} (h : e.height ≤ count)
    (env : Environment) : e.run limit (.levels count) env = e.run limit .unlimited env :=
  run_of_descent_le limit (Nat.le_trans (descent_le_height limit e env) h)

/-- Without a limit an evaluation never gives up. -/
theorem run_unlimited_completes (limit : Int) (e : Expr) (env : Environment) :
    (e.run limit .unlimited env).outcome ≠ .error .tooDeep := by
  intro h
  induction e generalizing env with
  | number n => cases h
  | ident x =>
    rw [run, Run.enter_unlimited] at h
    split at h <;> cases h
  | unary op e ih =>
    rw [run, Run.enter_unlimited, Run.andThen_eq_error_iff] at h
    obtain he | ⟨v, -, hop⟩ := h
    · exact ih env he
    · exact Run.ofArithmetic_completes _ hop
  | group e ih => exact ih env h
  | conditional c y n ihc ihy ihn =>
    rw [run, Run.enter_unlimited, Run.andThen_eq_error_iff] at h
    obtain hc | ⟨v, -, hbranch⟩ := h
    · exact ihc env hc
    · split at hbranch
      · exact ihy _ hbranch
      · exact ihn _ hbranch
  | binary op l r ihl ihr =>
    rw [run, Run.enter_unlimited, Run.andThen_eq_error_iff] at h
    obtain hr | ⟨right, -, hbody⟩ := h
    · exact ihr env hr
    · split at hbody
      · split at hbody <;> cases hbody
      · obtain hl | ⟨left, -, hop⟩ := Run.andThen_eq_error_iff.mp hbody
        · exact ihl _ hl
        · exact Run.ofArithmetic_completes _ hop

/-- An evaluation gives up exactly if it descends below the limit. -/
lemma run_eq_tooDeep_iff {limit : Int} {e : Expr} {count : Nat} {env : Environment} :
    (e.run limit (.levels count) env).outcome = .error .tooDeep ↔ count < e.descent limit env := by
  constructor
  · intro h
    by_contra hle
    rw [run_of_descent_le limit (Nat.not_lt.mp hle)] at h
    exact run_unlimited_completes limit e env h
  · exact run_of_lt_descent limit

/-- A limited evaluation that does not give up is the unlimited one. -/
theorem evaluate_eq_unlimited {limit : Int} {allowance : Allowance} {e : Expr} {env : Environment}
    (h : (e.evaluate limit allowance env).1 ≠ .error .tooDeep) :
    e.evaluate limit allowance env = e.evaluate limit .unlimited env := by
  rcases run_cutShort limit e (Allowance.atMost_unlimited allowance) env with heq | ⟨hdeep, -⟩
  · simp only [evaluate, heq]
  · exact absurd hdeep h

/-- A limit on nesting only cuts an evaluation short. Either the value or error and the variables
are those without a limit, after the same assignments, or the evaluation gives up after some of
them, the first ones; and then it descends below the limit, and so the tree is higher. A tree that
is not higher than the limit is evaluated to the end, and raising a limit changes nothing once it is
enough. -/
theorem evaluate_cutShort (limit : Int) (e : Expr) (env : Environment) (count : Nat) :
    let limited := e.run limit (.levels count) env
    let full := e.run limit .unlimited env
    (e.evaluate limit (.levels count) env = e.evaluate limit .unlimited env ∧
        limited.writes = full.writes ∨
      e.evaluate limit (.levels count) env = (.error .tooDeep, env.commit limited.writes) ∧
        limited.writes <+: full.writes ∧ count < e.descent limit env ∧ count < e.height) ∧
    full.outcome ≠ .error .tooDeep ∧
    (e.height ≤ count → (e.evaluate limit (.levels count) env).1 ≠ .error .tooDeep) ∧
    ∀ count', count ≤ count' → (e.evaluate limit (.levels count) env).1 ≠ .error .tooDeep →
      e.evaluate limit (.levels count') env = e.evaluate limit (.levels count) env := by
  intro limited full
  have hfull : full.outcome ≠ .error .tooDeep := run_unlimited_completes limit e env
  refine ⟨?_, hfull, fun hheight hdeep => ?_, fun count' hle hne => ?_⟩
  · rcases run_cutShort limit e (Allowance.atMost_unlimited (.levels count)) env with
      heq | ⟨hdeep, hwrites⟩
    · exact .inl ⟨by simp only [evaluate, heq], congrArg Run.writes heq⟩
    · have hdescent : count < e.descent limit env := run_eq_tooDeep_iff.mp hdeep
      exact .inr ⟨by rw [evaluate, hdeep], hwrites, hdescent,
        Nat.lt_of_lt_of_le hdescent (descent_le_height limit e env)⟩
  · rw [evaluate, run_of_height_le limit hheight] at hdeep
    exact hfull hdeep
  · rcases run_cutShort limit e (show (Allowance.levels count).AtMost (.levels count') from hle) env
      with heq | ⟨hdeep, -⟩
    · simp only [evaluate, heq]
    · exact absurd hdeep hne

-- the right operand of a sum is evaluated before the descent into the left one fails
example :
    let sum : Expr :=
      .binary .add (.group (.group (.number 1))) (.binary .assign (.ident "a") (.number 2))
    (sum.evaluate 100 (.levels 3) .empty).1 = .error .tooDeep ∧
      (sum.evaluate 100 (.levels 3) .empty).2.entries = [("a", 2)] := by
  decide +kernel

end Expr

end Calculator
