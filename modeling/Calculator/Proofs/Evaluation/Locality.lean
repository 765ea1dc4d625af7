import Calculator.Proofs.Evaluation

/-!
# What evaluating an expression depends on

Evaluating an expression depends only on the variables that it reads. In two environments that agree
on these it ends in the same way, and what it assigns on the way is the same.
-/

namespace Calculator

namespace Environment

/-- Every one of `names` has the same value in both environments, or none in both. -/
def Agree (names : List String) (env env' : Environment) : Prop :=
  ∀ x ∈ names, env.get? x = env'.get? x

instance (names : List String) (env env' : Environment) : Decidable (Agree names env env') :=
  inferInstanceAs (Decidable (∀ x ∈ names, env.get? x = env'.get? x))

namespace Agree

variable {names names' : List String} {env env' : Environment}

lemma mono (h : Agree names env env') (hsub : names' ⊆ names) : Agree names' env env' :=
  fun x hx => h x (hsub hx)

/-- The same assignments on both sides keep up the agreement. -/
lemma commit (h : Agree names env env') (ws : List (String × Int)) :
    Agree names (env.commit ws) (env'.commit ws) := by
  intro x hx
  rw [get?_commit, get?_commit, h x hx]

end Agree

end Environment

namespace Expr

open Environment

variable {env env' : Environment}

/-- The two runs are the same at every point, so that they read the same values. -/
theorem run_eq_of_agree (limit : Int) {e : Expr} (allowance : Allowance)
    (h : Agree e.reads env env') : e.run limit allowance env = e.run limit allowance env' := by
  induction e generalizing allowance env env' with
  | number n => rfl
  | ident x =>
    have hx : env.get? x = env'.get? x := h x (by simp [reads])
    simp only [run, hx]
  | unary op e ih =>
    simp only [run]
    refine Run.enter_congr fun inner => ?_
    rw [ih inner h]
    exact Run.andThen_congr fun _ => rfl
  | group e ih =>
    simp only [run]
    exact Run.enter_congr fun inner => ih inner h
  | conditional c y n ihc ihy ihn =>
    have hc : Agree c.reads env env' := h.mono (by simp [reads])
    have hy : Agree y.reads env env' := h.mono (by simp [reads])
    have hn : Agree n.reads env env' := h.mono (by simp [reads])
    simp only [run]
    refine Run.enter_congr fun inner => ?_
    rw [ihc inner hc]
    refine Run.andThen_congr fun v => ?_
    rw [ihy inner (hy.commit _), ihn inner (hn.commit _)]
  | binary op l r ihl ihr =>
    have hr : Agree r.reads env env' := h.mono (by simp [reads])
    simp only [run]
    refine Run.enter_congr fun inner => ?_
    rw [ihr inner hr]
    refine Run.andThen_congr fun right => ?_
    by_cases hop : op = .assign
    · rw [if_pos hop, if_pos hop]
    · have htarget : op.target? l = none := by cases op <;> first | rfl | exact absurd rfl hop
      have hl : Agree l.reads env env' := h.mono (by simp [reads, htarget])
      rw [if_neg hop, if_neg hop, ihl inner (hl.commit _)]
      exact Run.andThen_congr fun _ => rfl

/-- In environments that agree on what an expression reads, evaluating it has the same outcome, and
every variable is either left alone in both or assigned to in both, and has the same value then. -/
theorem evaluate_eq_of_agree (limit : Int) (allowance : Allowance) (e : Expr)
    (h : Agree e.reads env env') :
    let run := e.run limit allowance env
    let run' := e.run limit allowance env'
    let after := e.evaluate limit allowance env
    let after' := e.evaluate limit allowance env'
    after.1 = after'.1 ∧ ∀ x,
      ((x ∉ run.assigned ∧ after.2.get? x = env.get? x) ∧
        x ∉ run'.assigned ∧ after'.2.get? x = env'.get? x) ∨
      ((x ∈ run.assigned ∧ x ∈ run'.assigned) ∧
        ∃ v, after.2.get? x = some v ∧ after'.2.get? x = some v) := by
  intro run run' after after'
  have hrun : run = run' := run_eq_of_agree limit allowance h
  refine ⟨congrArg Run.outcome hrun, fun x => ?_⟩
  by_cases hx : x ∈ run.assigned
  · obtain ⟨v, hv⟩ := exists_lastValue?_of_mem hx
    refine .inr ⟨⟨hx, hrun ▸ hx⟩, v, ?_, ?_⟩
    · exact (get?_commit env run.writes x).trans (by rw [hv, Option.some_or])
    · exact (get?_commit env' run'.writes x).trans (by rw [← hrun, hv, Option.some_or])
  · have hx' : x ∉ run'.assigned := hrun ▸ hx
    exact .inl ⟨⟨hx, get?_commit_of_notMem env hx⟩, hx', get?_commit_of_notMem env' hx'⟩

/-- The line `q + (b := a + (a := 2))`, which fails in both environments after both assignments. -/
theorem evaluate_eq_of_agree_undefined :
    let e := binary .add (ident "q") (group (binary .assign (ident "b") (binary .add (ident "a")
      (group (binary .assign (ident "a") (number 2))))))
    let env := Environment.ofEntries [("a", 1)]
    let env' := Environment.ofEntries [("b", 7), ("a", 1)]
    let after := e.evaluate 100 .standard env
    let after' := e.evaluate 100 .standard env'
    Agree e.reads env env' ∧ after.1 = after'.1 ∧
      ∃ v, after.2.get? "b" = some v ∧ after'.2.get? "b" = some v := by
  intro e env env' after after'
  have h : Agree e.reads env env' := by decide
  obtain ⟨houtcome, hvariables⟩ := evaluate_eq_of_agree 100 .standard e h
  have hassigned : "b" ∈ (e.run 100 .standard env).assigned := by decide
  exact ⟨h, houtcome, ((hvariables "b").resolve_left fun hleft => hleft.1.1 hassigned).2⟩

end Expr

end Calculator
