import Calculator.Proofs.Evaluation.Targets

/-!
# Parentheses

Parentheses say how a line is read, and nothing more. Trees that are equal without their groups are
evaluated alike, unless one of them assigns to a variable in parentheses: a group is no variable, so
there the assignment fails.
-/

namespace Calculator.Expr

/-- The tree without its groups. -/
def ungrouped : Expr → Expr
  | .number n => .number n
  | .ident x => .ident x
  | .unary op e => .unary op e.ungrouped
  | .binary op l r => .binary op l.ungrouped r.ungrouped
  | .group e => e.ungrouped
  | .conditional c y n => .conditional c.ungrouped y.ungrouped n.ungrouped

/-- The tree is a variable in parentheses, in one pair of them or in several. -/
inductive GroupsVariable : Expr → Prop where
  | ident (x : String) : GroupsVariable (.group (.ident x))
  | group {e : Expr} (h : GroupsVariable e) : GroupsVariable (.group e)

/-- Nowhere in the tree does a variable in parentheses stand on the left of an assignment. -/
def PlainTargets : Expr → Prop
  | .number _ | .ident _ => True
  | .unary _ e | .group e => e.PlainTargets
  | .binary op l r => (op = .assign → ¬ l.GroupsVariable) ∧ l.PlainTargets ∧ r.PlainTargets
  | .conditional c y n => c.PlainTargets ∧ y.PlainTargets ∧ n.PlainTargets

variable {e e' : Expr} {x : String}

lemma eq_ident_or_groupsVariable (h : e.ungrouped = .ident x) :
    e = .ident x ∨ e.GroupsVariable := by
  induction e with
  | ident y => exact .inl h
  | group e ih =>
    obtain rfl | he := ih h
    · exact .inr (.ident x)
    · exact .inr (.group he)
  | _ => cases h

/-- Other targets than variables in parentheses stay what they are. -/
lemma target?_ungrouped (h : ¬ e.GroupsVariable) :
    BinaryOp.assign.target? e.ungrouped = BinaryOp.assign.target? e := by
  cases e with
  | group e =>
    cases hungrouped : (group e).ungrouped with
    | ident x =>
      obtain heq | hgroups := eq_ident_or_groupsVariable hungrouped
      · cases heq
      · exact absurd hgroups h
    | _ => rfl
  | _ => rfl

/-- Without its groups a tree does what it does with them. -/
theorem run_ungrouped (limit : Int) (h : e.PlainTargets) (env : Environment) :
    e.ungrouped.run limit .unlimited env =
      (e.run limit .unlimited env).mapTarget ungrouped := by
  induction e generalizing env with
  | number n => rfl
  | ident x =>
    simp only [ungrouped, run, Run.enter_unlimited]
    cases env.get? x <;> rfl
  | unary op e ih => exact run_unary_mapTarget op (ih h env)
  | group e ih => exact ih h env
  | conditional c y n ihc ihy ihn =>
    obtain ⟨hc, hy, hn⟩ := h
    exact run_conditional_mapTarget (ihc hc env) (ihy hy _) (ihn hn _)
  | binary op l r ihl ihr =>
    obtain ⟨htarget, hl, hr⟩ := h
    by_cases hop : op = .assign
    · subst hop
      exact run_assign_mapTarget (target?_ungrouped (htarget rfl)) (ihr hr env)
    · exact run_operation_mapTarget hop (ihr hr env) (ihl hl _)

/-- Two trees that are equal without their groups have the same value or the same error, but for the
groups of the target that it shows, and leave the same variables in the same order. -/
theorem evaluate_eq_of_ungrouped_eq (h : e.ungrouped = e'.ungrouped) (he : e.PlainTargets)
    (he' : e'.PlainTargets) (limit : Int) (env : Environment) (allowance allowance' : Allowance)
    (hdeep : (e.evaluate limit allowance env).1 ≠ .error .tooDeep)
    (hdeep' : (e'.evaluate limit allowance' env).1 ≠ .error .tooDeep) :
    let after := e.evaluate limit allowance env
    let after' := e'.evaluate limit allowance' env
    after'.1.mapError (EvalError.mapTarget ungrouped) =
        after.1.mapError (EvalError.mapTarget ungrouped) ∧
      after'.2 = after.2 := by
  intro after after'
  have hrun : (e'.run limit .unlimited env).mapTarget ungrouped =
      (e.run limit .unlimited env).mapTarget ungrouped := by
    rw [← run_ungrouped limit he env, ← run_ungrouped limit he' env, h]
  obtain ⟨houtcome, hwrites⟩ := Run.mk.inj hrun
  have hafter : after = e.evaluate limit .unlimited env := evaluate_eq_unlimited hdeep
  have hafter' : after' = e'.evaluate limit .unlimited env := evaluate_eq_unlimited hdeep'
  rw [hafter, hafter']
  exact ⟨houtcome, congrArg env.commit hwrites⟩

/-- The lines `(a := 3) + ((1) := (b := a))` and `(a := (3)) + (1 := b := (a))`, which fail after
the assignment to `b`. -/
theorem evaluate_eq_of_ungrouped_eq_target :
    let e := binary .add (group (binary .assign (ident "a") (number 3)))
      (group (binary .assign (group (number 1)) (group (binary .assign (ident "b") (ident "a")))))
    let e' := binary .add (group (binary .assign (ident "a") (group (number 3))))
      (group (binary .assign (number 1) (binary .assign (ident "b") (group (ident "a")))))
    let env := Environment.ofEntries [("a", 5)]
    let after := e.evaluate 100 .standard env
    let after' := e'.evaluate 100 .standard env
    (e.ungrouped = e'.ungrouped ∧ e.PlainTargets ∧ e'.PlainTargets) ∧
      after.1 = .error (.invalidTarget (group (number 1))) ∧
      after'.1.mapError (EvalError.mapTarget ungrouped) = .error (.invalidTarget (number 1)) ∧
      after'.2 = after.2 ∧ after'.2.entries = [("a", 5), ("b", 5)] := by
  intro e e' env after after'
  have hnumber (n : Int) : ¬ (number n).GroupsVariable := nofun
  have hgroup (n : Int) : ¬ (group (number n)).GroupsVariable := by rintro (_ | ⟨⟨⟩⟩)
  have hident (x : String) : ¬ (ident x).GroupsVariable := nofun
  have he : e.PlainTargets := by simp [e, PlainTargets, hgroup, hident]
  have he' : e'.PlainTargets := by simp [e', PlainTargets, hnumber, hident]
  have h : e.ungrouped = e'.ungrouped := rfl
  obtain ⟨houtcome, hvariables⟩ := evaluate_eq_of_ungrouped_eq h he he' 100 env .standard .standard
    (by decide) (by decide)
  exact ⟨⟨h, he, he'⟩, by decide, houtcome, hvariables, by decide⟩

-- a variable in parentheses cannot be assigned to
example :
    ((binary .assign (group (ident "a")) (number 1)).evaluate 100 .standard .empty).1 =
        .error (.invalidTarget (group (ident "a"))) ∧
      ((binary .assign (ident "a") (number 1)).evaluate 100 .standard .empty).1 = .ok 1 := by
  decide

end Calculator.Expr
