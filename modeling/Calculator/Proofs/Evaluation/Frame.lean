import Calculator.Proofs.Evaluation

/-!
# What evaluating an expression changes

However evaluating an expression ends, it assigns only to variables that stand on the left of an
assignment in it. All other variables stay as they are, no variable is lost, and new ones come
behind the old ones.
-/

namespace Calculator.Expr

/-- Whatever is evaluated and wherever it stops, only targets of the expression are assigned to. -/
theorem run_assignsOnly (limit : Int) (e : Expr) (allowance : Allowance) (env : Environment) :
    (e.run limit allowance env).AssignsOnly e.targets := by
  induction e generalizing allowance env with
  | number n => exact .enter fun _ => .value n
  | ident x =>
    refine .enter fun _ => ?_
    split
    · exact .value _
    · exact .error _
  | unary op e ih => exact .enter fun inner => (ih inner env).andThen fun v _ => .ofArithmetic _
  | group e ih => exact .enter fun inner => ih inner env
  | conditional c y n ihc ihy ihn =>
    have hc : c.targets ⊆ (conditional c y n).targets := by simp [targets]
    have hy : y.targets ⊆ (conditional c y n).targets := by simp [targets]
    have hn : n.targets ⊆ (conditional c y n).targets := by simp [targets]
    refine .enter fun inner => ((ihc inner env).mono hc).andThen fun v env => ?_
    split
    · exact (ihy inner env).mono hy
    · exact (ihn inner env).mono hn
  | binary op l r ihl ihr =>
    have hl : l.targets ⊆ (binary op l r).targets := by simp [targets]
    have hr : r.targets ⊆ (binary op l r).targets := by simp [targets]
    refine .enter fun inner => ((ihr inner env).mono hr).andThen fun right env => ?_
    split
    · next hop =>
      split
      · next x =>
        intro y hy
        obtain rfl : y = x := by simpa [Run.assigned] using hy
        simp [targets, BinaryOp.target?, hop]
      · exact .error _
    · exact ((ihl inner env).mono hl).andThen fun left _ => .ofArithmetic _

/-- A variable that is no target keeps its value while an expression is evaluated. -/
lemma get?_commit_run (limit : Int) {e : Expr} {x : String} (hx : x ∉ e.targets)
    (allowance : Allowance) (env : Environment) :
    (env.commit (e.run limit allowance env).writes).get? x = env.get? x :=
  Environment.get?_commit_of_notMem env fun hassigned =>
    hx (run_assignsOnly limit e allowance env x hassigned)

/-- However evaluating an expression ends, every variable that had a value has one, and the old
variables stand in front in their old order; behind them stand the new ones, which are all targets
of the expression, in the order in which they were first assigned. What is no target is as it
was. -/
theorem evaluate_frame (limit : Int) (allowance : Allowance) (e : Expr) (env : Environment) :
    let new := env.newNames (e.run limit allowance env).assigned
    let env' := (e.evaluate limit allowance env).2
    (∀ x, env.contains x = true → env'.contains x = true) ∧ env'.names = env.names ++ new ∧
      (∀ x ∈ new, x ∈ e.targets) ∧ (∀ x ∉ e.targets, env'.get? x = env.get? x) ∧
      (e.targets = [] → env' = env) := by
  intro new env'
  have honly := run_assignsOnly limit e allowance env
  have henv' : env' = env.commit (e.run limit allowance env).writes := rfl
  refine ⟨fun x hx => ?_, ?_, fun x hx => ?_, fun x hx => ?_, fun hnone => ?_⟩
  · rw [Environment.contains, henv', Environment.get?_commit, Option.isSome_or]
    rw [Environment.contains] at hx
    rw [hx, Bool.or_true]
  · rw [henv', Environment.names_commit]
    rfl
  · exact honly x (Environment.mem_newNames_iff.mp hx).1
  · exact Environment.get?_commit_of_notMem env fun hassigned => hx (honly x hassigned)
  · have hwrites : (e.run limit allowance env).writes = [] := by
      rw [← List.map_eq_nil_iff (f := Prod.fst), List.eq_nil_iff_forall_not_mem]
      intro x hx
      have htarget := honly x hx
      rw [hnone] at htarget
      cases htarget
    rw [henv', hwrites, Environment.commit_nil]

-- the line `1 / ((b := c := 2) - 2)`, where the division fails after both assignments
example :
    let line := binary .divide (number 1) (group (binary .subtract
      (group (binary .assign (ident "b") (binary .assign (ident "c") (number 2)))) (number 2)))
    let (outcome, env) := line.evaluate 100 .standard (.ofEntries [("a", 1)])
    outcome = .error (.arithmetic (.divisionByZero 1)) ∧
      env.entries = [("a", 1), ("c", 2), ("b", 2)] := by
  decide

end Calculator.Expr
