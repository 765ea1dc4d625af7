import Calculator.Proofs.Evaluation

/-!
# What an evaluation reaches

An evaluation does not reach the branch that a conditional does not choose, nor anything that would
come after an error: the left operand of an operator whose right operand fails, and both branches of
a conditional whose condition fails. What stands there has no effect, wherever in the tree it is.
-/

namespace Calculator.Expr

/-- The two trees differ at most in what evaluating the first one in an environment does not reach.
At every place that is reached they have the same form, with the left side of an assignment taken as
a whole; the environment of the place is the one in which it is evaluated. -/
inductive SameWhereReached (limit : Int) : Allowance → Environment → Expr → Expr → Prop where
  | refl (allowance : Allowance) (env : Environment) (e : Expr) :
      SameWhereReached limit allowance env e e
  | unary {allowance inner : Allowance} {env : Environment} {e e' : Expr} (op : UnaryOp)
      (hinner : allowance.spend? = some inner) (he : SameWhereReached limit inner env e e') :
      SameWhereReached limit allowance env (.unary op e) (.unary op e')
  | group {allowance inner : Allowance} {env : Environment} {e e' : Expr}
      (hinner : allowance.spend? = some inner) (he : SameWhereReached limit inner env e e') :
      SameWhereReached limit allowance env (.group e) (.group e')
  | conditional {allowance inner : Allowance} {env : Environment} {c c' y y' n n' : Expr}
      (hinner : allowance.spend? = some inner) (hc : SameWhereReached limit inner env c c')
      (hy : ∀ v, (c.run limit inner env).outcome = .ok v → v ≠ 0 →
        SameWhereReached limit inner (env.commit (c.run limit inner env).writes) y y')
      (hn : (c.run limit inner env).outcome = .ok 0 →
        SameWhereReached limit inner (env.commit (c.run limit inner env).writes) n n') :
      SameWhereReached limit allowance env (.conditional c y n) (.conditional c' y' n')
  | operation {allowance inner : Allowance} {env : Environment} {op : BinaryOp}
      {l l' r r' : Expr} (hop : op ≠ .assign) (hinner : allowance.spend? = some inner)
      (hr : SameWhereReached limit inner env r r')
      (hl : ∀ v, (r.run limit inner env).outcome = .ok v →
        SameWhereReached limit inner (env.commit (r.run limit inner env).writes) l l') :
      SameWhereReached limit allowance env (.binary op l r) (.binary op l' r')
  | assignment {allowance inner : Allowance} {env : Environment} {l l' r r' : Expr}
      (hinner : allowance.spend? = some inner) (hr : SameWhereReached limit inner env r r')
      (hl : ∀ v, (r.run limit inner env).outcome = .ok v → l' = l) :
      SameWhereReached limit allowance env (.binary .assign l r) (.binary .assign l' r')

variable {limit : Int} {allowance : Allowance} {env : Environment} {e e' : Expr}

/-- Trees that are the same where they are reached have the same run. -/
theorem run_eq_of_sameWhereReached (h : SameWhereReached limit allowance env e e') :
    e'.run limit allowance env = e.run limit allowance env := by
  induction h with
  | refl allowance env e => rfl
  | unary op hinner he ih =>
    simp only [run, Run.enter, hinner, ih]
  | group hinner he ih => simp only [run, Run.enter, hinner, ih]
  | conditional hinner hc hy hn ihc ihy ihn =>
    simp only [run, Run.enter, hinner, ihc]
    refine Run.andThen_congr_of_ok fun v hv => ?_
    split
    · next hne => exact ihy v hv hne
    · next hne =>
      obtain rfl := not_not.mp hne
      exact ihn hv
  | operation hop hinner hr hl ihr ihl =>
    simp only [run, Run.enter, hinner, if_neg hop, ihr]
    refine Run.andThen_congr_of_ok fun v hv => ?_
    rw [ihl v hv]
  | assignment hinner hr hl ihr =>
    simp only [run, Run.enter, hinner, if_pos, ihr]
    refine Run.andThen_congr_of_ok fun v hv => ?_
    rw [hl v hv]

/-- Evaluating the second tree reaches the same places as evaluating the first one. -/
lemma SameWhereReached.symm (h : SameWhereReached limit allowance env e e') :
    SameWhereReached limit allowance env e' e := by
  induction h with
  | refl allowance env e => exact .refl allowance env e
  | unary op hinner he ih => exact .unary op hinner ih
  | group hinner he ih => exact .group hinner ih
  | conditional hinner hc hy hn ihc ihy ihn =>
    refine .conditional hinner ihc (fun v hv hne => ?_) fun hzero => ?_
    · rw [run_eq_of_sameWhereReached hc] at hv ⊢
      exact ihy v hv hne
    · rw [run_eq_of_sameWhereReached hc] at hzero ⊢
      exact ihn hzero
  | operation hop hinner hr hl ihr ihl =>
    refine .operation hop hinner ihr fun v hv => ?_
    rw [run_eq_of_sameWhereReached hr] at hv ⊢
    exact ihl v hv
  | assignment hinner hr hl ihr =>
    refine .assignment hinner ihr fun v hv => ?_
    rw [run_eq_of_sameWhereReached hr] at hv
    exact (hl v hv).symm

/-- Whatever stands where an evaluation does not come, the value or the error is the same, and so
are the variables; and what has been put there is not reached either. -/
theorem evaluate_eq_of_sameWhereReached (h : SameWhereReached limit allowance env e e') :
    e'.evaluate limit allowance env = e.evaluate limit allowance env ∧
      SameWhereReached limit allowance env e' e := by
  refine ⟨?_, h.symm⟩
  rw [evaluate, evaluate, run_eq_of_sameWhereReached h]

/-- The line `p + if a := 0 then 1 / 0 else q ! * (b := c) end`, where `c` has no value, with other
trees in the place of `p`, of the branch `1 / 0` and of the operand `q !`. -/
theorem evaluate_eq_of_sameWhereReached_nested :
    let condition := binary .assign (ident "a") (number 0)
    let failing := group (binary .assign (ident "b") (ident "c"))
    let e := binary .add (ident "p") (conditional condition
      (binary .divide (number 1) (number 0))
      (binary .multiply (unary .factorial (ident "q")) failing))
    let e' := binary .add (binary .assign (number 1) (number 2)) (conditional condition
      (binary .assign (ident "a") (number 3))
      (binary .multiply (conditional (ident "p") (ident "q") (ident "r")) failing))
    let after' := e'.evaluate 100 .standard .empty
    SameWhereReached 100 .standard .empty e e' ∧ after' = e.evaluate 100 .standard .empty ∧
      after'.1 = .error (.undefinedVariable "c") ∧ after'.2.entries = [("a", 0)] := by
  intro condition failing e e' after'
  have h : SameWhereReached 100 .standard .empty e e' := by
    refine .operation nofun rfl (.conditional rfl (.refl _ _ _) ?yes fun _ => ?no) ?left
    case yes =>
      intro v hv hne
      cases hv
      exact absurd rfl hne
    case no =>
      refine .operation nofun rfl (.refl _ _ _) fun v hv => ?_
      cases hv
    case left =>
      intro v hv
      cases hv
  exact ⟨h, (evaluate_eq_of_sameWhereReached h).1, by decide, by decide⟩

end Calculator.Expr
