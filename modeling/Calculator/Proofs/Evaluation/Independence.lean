import Calculator.Proofs.Evaluation.Frame
import Calculator.Proofs.Evaluation.Locality
import Calculator.Proofs.Evaluation.Nesting
import Calculator.Proofs.Grammar.Names

/-!
# Independent operands

The right operand of an operator is evaluated before the left one. If neither of the two assigns to
a variable that stands in the other one, the order does not matter: each operand has the value that
it has alone and assigns what it assigns alone. So independent operands of sums and products may be
exchanged.
-/

namespace Calculator

/-- The order of operands does not matter to sums and products. -/
lemma BinaryOp.apply_comm {op : BinaryOp} (h : op = .add ∨ op = .multiply)
    (limit left right : Int) :
    op.apply limit left right = op.apply limit right left := by
  rcases h with rfl | rfl
  · exact congrArg Except.ok (Int.add_comm left right)
  · exact congrArg Except.ok (Int.mul_comm left right)

namespace Expr

/-- Neither of two expressions assigns to a variable that stands in the other one. -/
def Independent (a b : Expr) : Prop :=
  (∀ x ∈ a.targets, x ∉ b.idents) ∧ ∀ x ∈ b.targets, x ∉ a.idents

variable {a b : Expr} {limit va vb : Int} {op : BinaryOp} {allowance inner outer : Allowance}
  {env enva envb : Environment} {x : String}

instance (a b : Expr) : Decidable (Independent a b) :=
  inferInstanceAs (Decidable ((∀ x ∈ a.targets, x ∉ b.idents) ∧ ∀ x ∈ b.targets, x ∉ a.idents))

lemma get?_of_evaluate {outcome : Except EvalError Int}
    (h : b.evaluate limit allowance env = (outcome, envb)) (hx : x ∉ b.targets) :
    envb.get? x = env.get? x := by
  obtain ⟨-, rfl⟩ := Prod.mk.inj h
  exact get?_commit_run limit hx allowance env

namespace Independent

protected lemma symm (h : Independent a b) : Independent b a := And.symm h

lemma notMem_targets (h : Independent a b) (hx : x ∈ a.targets) : x ∉ b.targets :=
  fun hb => h.1 x hx (mem_idents_iff.mpr (.inl hb))

/-- Behind the second expression the first one does what it does alone. -/
lemma run_commit (h : Independent a b) (limit : Int) (inner : Allowance) (env : Environment) :
    a.run limit inner (env.commit (b.run limit inner env).writes) = a.run limit inner env := by
  refine run_eq_of_agree limit inner fun x hx => ?_
  exact get?_commit_run limit (fun hb => h.2 x hb (mem_idents_iff.mpr (.inr hx))) inner env

/-- The run of an operation on independent operands, put together from theirs. -/
lemma run_operation (h : Independent a b) (hop : op ≠ .assign)
    (hinner : outer.spend? = some inner) (ha : (a.run limit inner env).outcome = .ok va)
    (hb : (b.run limit inner env).outcome = .ok vb) :
    (binary op a b).run limit outer env =
      ⟨(op.apply limit va vb).mapError .arithmetic,
        (b.run limit inner env).writes ++ (a.run limit inner env).writes⟩ := by
  simp only [run, Run.enter, hinner, if_neg hop]
  rw [Run.andThen_of_ok hb, h.run_commit, Run.andThen_of_ok ha, Run.ofArithmetic_eq,
    List.append_nil]

/-- What both assign is what each of them assigns, one after the other. -/
lemma get?_commit (h : Independent a b) (limit : Int) (inner : Allowance) (env : Environment)
    (x : String) :
    (env.commit ((b.run limit inner env).writes ++ (a.run limit inner env).writes)).get? x =
      if x ∈ a.targets then (env.commit (a.run limit inner env).writes).get? x
      else (env.commit (b.run limit inner env).writes).get? x := by
  rw [Environment.commit_append]
  split
  · next hx =>
    rw [Environment.get?_commit, get?_commit_run limit (h.notMem_targets hx),
      ← Environment.get?_commit]
  · next hx =>
    rw [Environment.get?_commit_of_notMem]
    exact fun hassigned => hx (run_assignsOnly limit a inner env x hassigned)

/-- An operation on independent operands that have values fails only as an operation on these, and
every variable is as the operand that assigns to it leaves it. -/
lemma evaluate_operation (h : Independent a b) (hop : op ≠ .assign)
    (ha : a.evaluate limit allowance env = (.ok va, enva))
    (hb : b.evaluate limit allowance env = (.ok vb, envb))
    (hdeep : ((binary op a b).evaluate limit outer env).1 ≠ .error .tooDeep) :
    ((binary op a b).evaluate limit outer env).1 = (op.apply limit va vb).mapError .arithmetic ∧
      ∀ x, ((binary op a b).evaluate limit outer env).2.get? x =
        if x ∈ a.targets then enva.get? x else envb.get? x := by
  rw [evaluate_eq_unlimited (by rw [ha]; exact nofun)] at ha
  rw [evaluate_eq_unlimited (by rw [hb]; exact nofun)] at hb
  obtain ⟨haoutcome, rfl⟩ := Prod.mk.inj ha
  obtain ⟨hboutcome, rfl⟩ := Prod.mk.inj hb
  rw [evaluate_eq_unlimited hdeep, evaluate,
    h.run_operation hop Allowance.spend?_unlimited haoutcome hboutcome]
  exact ⟨rfl, h.get?_commit limit .unlimited env⟩

/-- Where the operands have values one level further down, the operation is not too deep. -/
lemma evaluate_operation_completes (h : Independent a b) (hop : op ≠ .assign)
    (ha : a.evaluate limit allowance env = (.ok va, enva))
    (hb : b.evaluate limit allowance env = (.ok vb, envb))
    (hinner : outer.spend? = some inner) (hle : allowance.AtMost inner) :
    ((binary op a b).evaluate limit outer env).1 ≠ .error .tooDeep := by
  have haoutcome : (a.run limit allowance env).outcome = .ok va := congrArg Prod.fst ha
  have hboutcome : (b.run limit allowance env).outcome = .ok vb := congrArg Prod.fst hb
  have harun := (run_cutShort limit a hle env).eq_of_ok haoutcome
  have hbrun := (run_cutShort limit b hle env).eq_of_ok hboutcome
  rw [harun] at haoutcome
  rw [hbrun] at hboutcome
  have hcompletes := Run.ofArithmetic_completes (op.apply limit va vb)
  rw [evaluate, h.run_operation hop hinner haoutcome hboutcome]
  rwa [Run.ofArithmetic_eq] at hcompletes

end Independent

/-- An operation on independent operands, which have the values `va` and `vb` alone and leave the
variables `enva` and `envb`, has the value or the error of the operator on these values, and every
variable is as it is after the operand that assigns to it. It is too deep only if it leaves its
operands less room than they have alone. If it adds or multiplies, the operands may be exchanged. -/
theorem evaluate_operation_of_independent (hop : op ≠ .assign) (h : Independent a b)
    (ha : a.evaluate limit allowance env = (.ok va, enva))
    (hb : b.evaluate limit allowance env = (.ok vb, envb)) (outer : Allowance) :
    let after := (binary op a b).evaluate limit outer env
    (after.1 ≠ .error .tooDeep →
      after.1 = (op.apply limit va vb).mapError .arithmetic ∧
        (∀ x ∈ a.targets, after.2.get? x = enva.get? x) ∧
        (∀ x ∈ b.targets, after.2.get? x = envb.get? x) ∧
        ∀ x, x ∉ a.targets → x ∉ b.targets → after.2.get? x = env.get? x) ∧
    (∀ inner, outer.spend? = some inner → allowance.AtMost inner →
      after.1 ≠ .error .tooDeep) ∧
    (op = .add ∨ op = .multiply → ∀ outer',
      let exchanged := (binary op b a).evaluate limit outer' env
      after.1 ≠ .error .tooDeep → exchanged.1 ≠ .error .tooDeep →
        exchanged.1 = after.1 ∧ ∀ x, exchanged.2.get? x = after.2.get? x) := by
  intro after
  refine ⟨fun hdeep => ?_, fun inner => h.evaluate_operation_completes hop ha hb, ?_⟩
  · obtain ⟨houtcome, hget⟩ := h.evaluate_operation hop ha hb hdeep
    refine ⟨houtcome, fun x hx => ?_, fun x hx => ?_, fun x hxa hxb => ?_⟩
    · rw [hget, if_pos hx]
    · rw [hget, if_neg (h.symm.notMem_targets hx)]
    · rw [hget, if_neg hxa, get?_of_evaluate hb hxb]
  · intro hcomm outer' exchanged hdeep hdeep'
    obtain ⟨houtcome, hget⟩ := h.evaluate_operation hop ha hb hdeep
    obtain ⟨houtcome', hget'⟩ := h.symm.evaluate_operation hop hb ha hdeep'
    refine ⟨?_, fun x => ?_⟩
    · rw [houtcome, houtcome', BinaryOp.apply_comm hcomm]
    · rw [hget, hget']
      by_cases hxa : x ∈ a.targets
      · rw [if_pos hxa, if_neg (h.notMem_targets hxa)]
      · by_cases hxb : x ∈ b.targets
        · rw [if_pos hxb, if_neg hxa]
        · rw [if_neg hxa, if_neg hxb, get?_of_evaluate ha hxa, get?_of_evaluate hb hxb]

/-- The product of `if a then b := c * 3 else d end` and `(c + (e := 7))`, and its factors
exchanged. -/
theorem evaluate_operation_of_independent_product :
    let l := group (conditional (ident "a")
      (binary .assign (ident "b") (binary .multiply (ident "c") (number 3))) (ident "d"))
    let r := group (binary .add (ident "c") (group (binary .assign (ident "e") (number 7))))
    let env := Environment.ofEntries [("a", 1), ("c", 5)]
    let after := (binary .multiply l r).evaluate 100 .standard env
    let exchanged := (binary .multiply r l).evaluate 100 .standard env
    Independent l r ∧ after.1 = .ok 180 ∧ after.2.get? "b" = some 15 ∧ after.2.get? "e" = some 7 ∧
      exchanged.1 = after.1 ∧ (∀ x, exchanged.2.get? x = after.2.get? x) ∧
      after.2.names = ["a", "c", "e", "b"] ∧ exchanged.2.names = ["a", "c", "b", "e"] := by
  intro l r env after exchanged
  have h : Independent l r := by decide
  have hl : l.evaluate 100 .standard env = (.ok 15, env.set "b" 15) := by decide
  have hr : r.evaluate 100 .standard env = (.ok 12, env.set "e" 7) := by decide
  have hop : BinaryOp.multiply ≠ .assign := nofun
  obtain ⟨hvalues, -, hexchange⟩ := evaluate_operation_of_independent hop h hl hr .standard
  obtain ⟨houtcome, hassignedl, hassignedr, -⟩ := hvalues (by decide)
  obtain ⟨hsame, hvariables⟩ := hexchange (.inr rfl) .standard (by decide) (by decide)
  exact ⟨h, houtcome, hassignedl "b" (by decide), hassignedr "e" (by decide), hsame, hvariables,
    by decide, by decide⟩

-- `a + (a := 2)` and `(a := 2) + a`, with operands that are not independent
example :
    let env := Environment.ofEntries [("a", 1)]
    let assignment := group (binary .assign (ident "a") (number 2))
    ¬ Independent (ident "a") assignment ∧
      ((binary .add (ident "a") assignment).evaluate 100 .standard env).1 = .ok 4 ∧
      ((binary .add assignment (ident "a")).evaluate 100 .standard env).1 = .ok 3 := by
  decide

end Expr

end Calculator
