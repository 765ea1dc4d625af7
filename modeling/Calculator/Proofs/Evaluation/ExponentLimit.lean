import Calculator.Proofs.Overflow

/-!
# Limits on exponents

Raising the limit on exponents keeps every evaluation that does not come to a power with too great
an exponent. One that does is cut short there: what it has assigned before is what is assigned
first with the higher limit too.

The error of such a power shows the limit. If the limit is too long for a message, another error
takes the place of this one.
-/

namespace Calculator

open Arithmetic Text

variable {limit limit' : Int} {allowance : Allowance} {env : Environment} {e : Expr}
  {base exponent : Int}

/-! ### Powers that are refused -/

/-- The error tells of an exponent that is not below the limit. -/
def ArithmeticError.IsExcess : ArithmeticError → Prop
  | .exponentTooLarge _ _ _ | .numeralTooLong => True
  | _ => False

lemma excess_of_fitsMessage (h : Decimal.fitsMessage limit = true) (base exponent : Int) :
    excess limit base exponent = .exponentTooLarge base exponent limit := if_pos h

lemma excess_of_not_fitsMessage (h : Decimal.fitsMessage limit = false) (base exponent : Int) :
    excess limit base exponent = .numeralTooLong := if_neg (h ▸ Bool.false_ne_true)

lemma power_of_limit_le (h : limit ≤ limit') (base exponent : Int) :
    power limit base exponent = power limit' base exponent ∨
      power limit base exponent = .error (excess limit base exponent) := by
  unfold power
  by_cases hneg : exponent < 0
  · -- a negative exponent is refused before it is compared with a limit
    left
    rw [if_pos hneg, if_pos hneg]
  · rw [if_neg hneg, if_neg hneg]
    by_cases hlimit : limit ≤ exponent
    · exact .inr (if_pos hlimit)
    · left
      rw [if_neg hlimit, if_neg (by omega)]

/-- The only powers that are refused for their exponent are those that reach the limit. -/
lemma power_eq_isExcess {err : ArithmeticError} (h : power limit base exponent = .error err)
    (herr : err.IsExcess) : limit ≤ exponent ∧ err = excess limit base exponent := by
  unfold power at h
  split at h
  · cases h
    exact herr.elim
  · split at h
    · next hlimit => exact ⟨hlimit, (Except.error.inj h).symm⟩
    · cases h

lemma Operation.apply_eq_isExcess {o : Operation} {err : ArithmeticError}
    (h : o.apply limit = .error err) (herr : err.IsExcess) :
    ∃ base exponent, o = .binary .exponent base exponent ∧ limit ≤ exponent ∧
      err = excess limit base exponent := by
  cases o with
  | unary op value =>
    cases op with
    | negate | identity => cases h
    | factorial =>
      simp only [apply, UnaryOp.apply, factorial] at h
      split at h
      · cases h; exact herr.elim
      · split at h <;> cases h
        exact herr.elim
  | binary op left right =>
    cases op with
    | add | subtract | multiply | assign => cases h
    | divide =>
      simp only [apply, BinaryOp.apply, divide] at h
      split at h <;> cases h
      exact herr.elim
    | exponent => exact ⟨left, right, rfl, power_eq_isExcess h herr⟩

/-! ### Two limits -/

/-- The error is that of a power whose exponent is not below the limit. -/
def EvalError.Refuses (limit : Int) (error : EvalError) : Prop :=
  ∃ base exponent, error = .arithmetic (excess limit base exponent)

namespace Run

lemma ofArithmetic_stopsEarly (h : limit ≤ limit') (op : BinaryOp) (left right : Int) :
    StopsEarly (EvalError.Refuses limit) (ofArithmetic (op.apply limit left right))
      (ofArithmetic (op.apply limit' left right)) := by
  cases op with
  | exponent =>
    simp only [BinaryOp.apply]
    rcases power_of_limit_le h left right with heq | hexcess
    · rw [heq]
      exact .rfl
    · rw [hexcess]
      exact .error ⟨left, right, rfl⟩ _
  | _ => exact .rfl

end Run

namespace Expr

/-- Raising the limit changes a run at most behind a power that the lower limit refuses. -/
theorem run_stopsEarly (h : limit ≤ limit') (e : Expr) (allowance : Allowance)
    (env : Environment) :
    (e.run limit allowance env).StopsEarly (EvalError.Refuses limit)
      (e.run limit' allowance env) := by
  induction e generalizing allowance env with
  | number n => exact .rfl
  | ident x => exact .rfl
  | unary op e ih => exact .enter fun inner => (ih inner env).andThen fun v _ => .rfl
  | group e ih => exact .enter fun inner => ih inner env
  | conditional c y n ihc ihy ihn =>
    refine .enter fun inner => (ihc inner env).andThen fun v env => ?_
    split
    · exact ihy inner env
    · exact ihn inner env
  | binary op l r ihl ihr =>
    refine .enter fun inner => (ihr inner env).andThen fun right env => ?_
    split
    · exact .rfl
    · exact (ihl inner env).andThen fun left _ => Run.ofArithmetic_stopsEarly h op left right

/-- An evaluation that is refused for an exponent has come to a power that reaches the limit, and
what it has assigned before is assigned first with a higher limit too. -/
lemma exists_performs_of_isExcess {err : ArithmeticError} (h : limit ≤ limit')
    (hrun : (e.run limit allowance env).outcome = .error (.arithmetic err))
    (herr : err.IsExcess) :
    (∃ base exponent, e.Performs limit allowance env (.binary .exponent base exponent) ∧
      limit ≤ exponent ∧ err = excess limit base exponent) ∧
    (e.run limit allowance env).writes <+: (e.run limit' allowance env).writes := by
  constructor
  · obtain ⟨o, hperforms, ho⟩ := run_eq_arithmetic_iff.mp hrun
    obtain ⟨base, exponent, rfl, hexcess⟩ := Operation.apply_eq_isExcess ho herr
    exact ⟨base, exponent, hperforms, hexcess⟩
  · rcases run_stopsEarly h e allowance env with heq | ⟨_, -, -, hwrites⟩
    · exact heq ▸ List.prefix_rfl
    · exact hwrites

/-- Raising the limit on exponents is conservative. An evaluation that is not refused for an
exponent keeps its value or error and its variables. One that is refused has come to a power with
an exponent that is not below the limit, and what it has assigned by then is what is assigned first
with the higher limit. The error of the power shows the limit; if the limit is too long for a
message, the error is that a numeral is too long, and there is no other way to that error. -/
theorem evaluate_of_limit_le (h : limit ≤ limit') (e : Expr) (allowance : Allowance)
    (env : Environment) :
    let low := e.run limit allowance env
    let high := e.run limit' allowance env
    ((∀ base exponent bound,
        low.outcome ≠ .error (.arithmetic (.exponentTooLarge base exponent bound))) →
      (Decimal.fitsMessage limit = true ∨ low.outcome ≠ .error (.arithmetic .numeralTooLong)) →
        e.evaluate limit' allowance env = e.evaluate limit allowance env ∧
          high.writes = low.writes) ∧
    (∀ base exponent bound,
      low.outcome = .error (.arithmetic (.exponentTooLarge base exponent bound)) →
        bound = limit ∧ limit ≤ exponent ∧ low.writes <+: high.writes) ∧
    (low.outcome = .error (.arithmetic .numeralTooLong) →
      Decimal.fitsMessage limit = false ∧
        (∃ base exponent, e.Performs limit allowance env (.binary .exponent base exponent) ∧
          limit ≤ exponent) ∧ low.writes <+: high.writes) := by
  intro low high
  refine ⟨fun hexponent hnumeral => ?_, fun base exponent bound hrun => ?_, fun hrun => ?_⟩
  · rcases run_stopsEarly h e allowance env with heq | ⟨_, ⟨base, exponent, rfl⟩, hrun, -⟩
    · exact ⟨by rw [evaluate, evaluate, heq], congrArg Run.writes heq.symm⟩
    · exfalso
      cases hfits : Decimal.fitsMessage limit with
      | true =>
        rw [excess_of_fitsMessage hfits] at hrun
        exact hexponent _ _ _ hrun
      | false =>
        rw [excess_of_not_fitsMessage hfits] at hrun
        exact hnumeral.elim (fun h => Bool.false_ne_true (hfits.symm.trans h)) fun h => h hrun
  · obtain ⟨⟨base', exponent', -, hle, hexcess⟩, hwrites⟩ :=
      exists_performs_of_isExcess h hrun trivial
    cases hfits : Decimal.fitsMessage limit with
    | true =>
      rw [excess_of_fitsMessage hfits] at hexcess
      cases hexcess
      exact ⟨rfl, hle, hwrites⟩
    | false =>
      rw [excess_of_not_fitsMessage hfits] at hexcess
      cases hexcess
  · obtain ⟨⟨base, exponent, hperforms, hle, hexcess⟩, hwrites⟩ :=
      exists_performs_of_isExcess h hrun trivial
    refine ⟨Bool.eq_false_iff.mpr fun hfits => ?_, ⟨base, exponent, hperforms, hle⟩, hwrites⟩
    rw [excess_of_fitsMessage hfits] at hexcess
    cases hexcess

/-- In `(c := 2 ^ 9) + (b := 2 ^ 7)`, the limit 8 refuses the second power that is computed. -/
theorem evaluate_of_limit_le_second_power :
    let power (x : String) (n : Int) : Expr :=
      group (binary .assign (ident x) (binary .exponent (number 2) (number n)))
    let e := binary .add (power "c" 9) (power "b" 7)
    let low := e.run 8 .standard .empty
    let high := e.run 10 .standard .empty
    (8 : Int) ≤ 10 ∧
      low.outcome = .error (.arithmetic (.exponentTooLarge 2 9 8)) ∧ low.writes <+: high.writes ∧
      low.writes = [("b", 128)] ∧ high.writes = [("b", 128), ("c", 512)] := by
  intro power e low high
  have h : (8 : Int) ≤ 10 := by decide
  have hrun : low.outcome = .error (.arithmetic (.exponentTooLarge 2 9 8)) := by decide +kernel
  obtain ⟨-, -, hwrites⟩ := (evaluate_of_limit_le h e .standard .empty).2.1 2 9 8 hrun
  exact ⟨h, hrun, hwrites, by decide, by decide⟩

/-- Under a limit of 4301 digits, the limit itself is refused as an exponent of 1, but not because
it is too large. With the next higher limit the power is computed. -/
theorem evaluate_limit_without_message :
    let limit := Decimal.powerOfTen 4300
    let e := binary .exponent (number 1) (number limit)
    (limit : Int) ≤ (limit + 1 : Nat) ∧
      (power limit 1 limit = .error .numeralTooLong ∧ power (limit + 1 : Nat) 1 limit = .ok 1) ∧
      (e.evaluate limit .standard .empty).1 = .error (.arithmetic .numeralTooLong) ∧
      (∀ base exponent bound, (e.evaluate limit .standard .empty).1 ≠
        .error (.arithmetic (.exponentTooLarge base exponent bound))) ∧
      (e.evaluate (limit + 1 : Nat) .standard .empty).1 = .ok 1 := by
  intro limit e
  have hlow : (e.evaluate limit .standard .empty).1 = .error (.arithmetic .numeralTooLong) := by
    decide +kernel
  have hhigh : (e.evaluate (limit + 1 : Nat) .standard .empty).1 = .ok 1 := by decide +kernel
  refine ⟨Int.ofNat_le.mpr (Nat.le_succ limit), ⟨by decide +kernel, by decide +kernel⟩, hlow,
    fun base exponent bound h => ?_, hhigh⟩
  rw [hlow] at h
  cases h

end Expr

end Calculator
