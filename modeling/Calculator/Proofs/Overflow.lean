import Calculator.Proofs.Evaluation
import Calculator.Proofs.FailedLines

/-!
# Failures that are not foreseen

An arithmetic error of an evaluation is that of an operation which the evaluation performs. So the
failures that the rules of the calculator do not know can be traced to two operations: a factorial
beyond `factorialLimit`, and a power whose exponent reaches a limit that no message can show. With
trees not drawn, lines that come to neither are answered with a value or with an error that the
rules know.
-/

namespace Calculator

open Arithmetic Text

/-- An operator and the values that it is applied to. -/
inductive Operation where
  | unary (op : UnaryOp) (value : Int)
  | binary (op : BinaryOp) (left right : Int)

namespace Operation

/-- The result of an operation, with exponents below `limit`. -/
def apply (limit : Int) : Operation → Except ArithmeticError Int
  | .unary op value => op.apply value
  | .binary op left right => op.apply limit left right

/-- The operation fails in a way that the rules of the calculator do not know. -/
def Overflows (limit : Int) : Operation → Prop
  | .unary .factorial value => factorialLimit < value
  | .binary .exponent _ exponent =>
    0 ≤ exponent ∧ limit ≤ exponent ∧ Decimal.fitsMessage limit = false
  | _ => False

end Operation

variable {limit : Int} {allowance inner : Allowance} {env : Environment} {o : Operation}
  {err : ArithmeticError}

/-! ### Runs that fail -/

namespace Run

lemma enter_eq_arithmetic_iff {body : Allowance → Run} :
    (enter allowance body).outcome = .error (.arithmetic err) ↔
      ∃ inner, allowance.spend? = some inner ∧ (body inner).outcome = .error (.arithmetic err) := by
  unfold enter
  cases allowance.spend? with
  | none => simp [Run.error]
  | some inner => simp

lemma ofArithmetic_eq_arithmetic_iff {result : Except ArithmeticError Int} :
    (ofArithmetic result).outcome = .error (.arithmetic err) ↔ result = .error err := by
  cases result <;> simp [ofArithmetic, Run.error, Run.value]

end Run

namespace Expr

/-! ### Operations of an evaluation -/

/-- Evaluating the expression in the environment comes to the operation. -/
inductive Performs (limit : Int) : Expr → Allowance → Environment → Operation → Prop where
  | unary {op : UnaryOp} {e : Expr} {allowance inner : Allowance} {env : Environment} {v : Int}
      (hspend : allowance.spend? = some inner) (he : (e.run limit inner env).outcome = .ok v) :
      Performs limit (.unary op e) allowance env (.unary op v)
  | binary {op : BinaryOp} {l r : Expr} {allowance inner : Allowance} {env : Environment}
      {left right : Int} (hspend : allowance.spend? = some inner) (hop : op ≠ .assign)
      (hr : (r.run limit inner env).outcome = .ok right)
      (hl : (l.run limit inner (env.commit (r.run limit inner env).writes)).outcome = .ok left) :
      Performs limit (.binary op l r) allowance env (.binary op left right)
  | operand {op : UnaryOp} {e : Expr} {allowance inner : Allowance} {env : Environment}
      {o : Operation} (hspend : allowance.spend? = some inner) (h : Performs limit e inner env o) :
      Performs limit (.unary op e) allowance env o
  | group {e : Expr} {allowance inner : Allowance} {env : Environment} {o : Operation}
      (hspend : allowance.spend? = some inner) (h : Performs limit e inner env o) :
      Performs limit (.group e) allowance env o
  | condition {c y n : Expr} {allowance inner : Allowance} {env : Environment} {o : Operation}
      (hspend : allowance.spend? = some inner) (h : Performs limit c inner env o) :
      Performs limit (.conditional c y n) allowance env o
  | branch {c y n : Expr} {allowance inner : Allowance} {env : Environment} {o : Operation}
      {v : Int} (hspend : allowance.spend? = some inner)
      (hc : (c.run limit inner env).outcome = .ok v)
      (h : Performs limit (if v ≠ 0 then y else n) inner
        (env.commit (c.run limit inner env).writes) o) :
      Performs limit (.conditional c y n) allowance env o
  | right {op : BinaryOp} {l r : Expr} {allowance inner : Allowance} {env : Environment}
      {o : Operation} (hspend : allowance.spend? = some inner) (h : Performs limit r inner env o) :
      Performs limit (.binary op l r) allowance env o
  | left {op : BinaryOp} {l r : Expr} {allowance inner : Allowance} {env : Environment}
      {o : Operation} {right : Int} (hspend : allowance.spend? = some inner) (hop : op ≠ .assign)
      (hr : (r.run limit inner env).outcome = .ok right)
      (h : Performs limit l inner (env.commit (r.run limit inner env).writes) o) :
      Performs limit (.binary op l r) allowance env o

/-- Where an operation fails that an evaluation comes to, the evaluation fails with its error. -/
lemma Performs.outcome_eq {e : Expr} (h : e.Performs limit allowance env o)
    (ho : o.apply limit = .error err) :
    (e.run limit allowance env).outcome = .error (.arithmetic err) := by
  induction h with
  | unary hspend he =>
    exact Run.enter_eq_arithmetic_iff.mpr ⟨_, hspend, Run.andThen_eq_error_iff.mpr
      (.inr ⟨_, he, Run.ofArithmetic_eq_arithmetic_iff.mpr ho⟩)⟩
  | binary hspend hop hr hl =>
    refine Run.enter_eq_arithmetic_iff.mpr
      ⟨_, hspend, Run.andThen_eq_error_iff.mpr (.inr ⟨_, hr, ?_⟩)⟩
    rw [if_neg hop]
    exact Run.andThen_eq_error_iff.mpr (.inr ⟨_, hl, Run.ofArithmetic_eq_arithmetic_iff.mpr ho⟩)
  | operand hspend _ ih | condition hspend _ ih | right hspend _ ih =>
    exact Run.enter_eq_arithmetic_iff.mpr
      ⟨_, hspend, Run.andThen_eq_error_iff.mpr (.inl (ih ho))⟩
  | group hspend _ ih => exact Run.enter_eq_arithmetic_iff.mpr ⟨_, hspend, ih ho⟩
  | @branch c y n _ _ _ _ v hspend hc _ ih =>
    refine Run.enter_eq_arithmetic_iff.mpr
      ⟨_, hspend, Run.andThen_eq_error_iff.mpr (.inr ⟨_, hc, ?_⟩)⟩
    by_cases hv : v ≠ 0
    · rw [if_pos hv] at ih ⊢
      exact ih ho
    · rw [if_neg hv] at ih ⊢
      exact ih ho
  | left hspend hop hr _ ih =>
    refine Run.enter_eq_arithmetic_iff.mpr
      ⟨_, hspend, Run.andThen_eq_error_iff.mpr (.inr ⟨_, hr, ?_⟩)⟩
    rw [if_neg hop]
    exact Run.andThen_eq_error_iff.mpr (.inl (ih ho))

lemma exists_performs {e : Expr}
    (h : (e.run limit allowance env).outcome = .error (.arithmetic err)) :
    ∃ o, e.Performs limit allowance env o ∧ o.apply limit = .error err := by
  induction e generalizing allowance env with
  | number n =>
    obtain ⟨inner, -, hbody⟩ := Run.enter_eq_arithmetic_iff.mp h
    cases hbody
  | ident x =>
    obtain ⟨inner, -, hbody⟩ := Run.enter_eq_arithmetic_iff.mp h
    split at hbody <;> cases hbody
  | group e ih =>
    obtain ⟨inner, hspend, hbody⟩ := Run.enter_eq_arithmetic_iff.mp h
    obtain ⟨o, ho, herr⟩ := ih hbody
    exact ⟨o, .group hspend ho, herr⟩
  | unary op e ih =>
    obtain ⟨inner, hspend, hbody⟩ := Run.enter_eq_arithmetic_iff.mp h
    obtain hoperand | ⟨v, hv, happly⟩ := Run.andThen_eq_error_iff.mp hbody
    · obtain ⟨o, ho, herr⟩ := ih hoperand
      exact ⟨o, .operand hspend ho, herr⟩
    · exact ⟨_, .unary hspend hv, Run.ofArithmetic_eq_arithmetic_iff.mp happly⟩
  | conditional c y n ihc ihy ihn =>
    obtain ⟨inner, hspend, hbody⟩ := Run.enter_eq_arithmetic_iff.mp h
    obtain hcondition | ⟨v, hc, hbranch⟩ := Run.andThen_eq_error_iff.mp hbody
    · obtain ⟨o, ho, herr⟩ := ihc hcondition
      exact ⟨o, .condition hspend ho, herr⟩
    · by_cases hv : v ≠ 0
      · rw [if_pos hv] at hbranch
        obtain ⟨o, ho, herr⟩ := ihy hbranch
        exact ⟨o, .branch hspend hc (by rwa [if_pos hv]), herr⟩
      · rw [if_neg hv] at hbranch
        obtain ⟨o, ho, herr⟩ := ihn hbranch
        exact ⟨o, .branch hspend hc (by rwa [if_neg hv]), herr⟩
  | binary op l r ihl ihr =>
    obtain ⟨inner, hspend, hbody⟩ := Run.enter_eq_arithmetic_iff.mp h
    obtain hright | ⟨right, hr, hbody⟩ := Run.andThen_eq_error_iff.mp hbody
    · obtain ⟨o, ho, herr⟩ := ihr hright
      exact ⟨o, .right hspend ho, herr⟩
    · by_cases hop : op = .assign
      · rw [if_pos hop] at hbody
        split at hbody <;> cases hbody
      · rw [if_neg hop] at hbody
        obtain hleft | ⟨left, hl, happly⟩ := Run.andThen_eq_error_iff.mp hbody
        · obtain ⟨o, ho, herr⟩ := ihl hleft
          exact ⟨o, .left hspend hop hr ho, herr⟩
        · exact ⟨_, .binary hspend hop hr hl, Run.ofArithmetic_eq_arithmetic_iff.mp happly⟩

/-- An arithmetic error of an evaluation is the error of an operation that it comes to. -/
theorem run_eq_arithmetic_iff {e : Expr} :
    (e.run limit allowance env).outcome = .error (.arithmetic err) ↔
      ∃ o, e.Performs limit allowance env o ∧ o.apply limit = .error err :=
  ⟨exists_performs, fun ⟨_, h, ho⟩ => h.outcome_eq ho⟩

end Expr

/-! ### Failures that the rules do not know -/

lemma factorial_eq_unforeseen_iff {value : Int} :
    (∃ err, factorial value = .error err ∧
      (Failure.evaluation (.arithmetic err)).foreseen = false) ↔ factorialLimit < value := by
  unfold factorial
  split
  · next hneg =>
    have hle : ¬ factorialLimit < value := by
      unfold factorialLimit
      omega
    simp [hle, Failure.foreseen]
  · split
    · next hlt => simp [hlt, Failure.foreseen]
    · next hle => simp [hle]

lemma power_eq_unforeseen_iff {base exponent : Int} :
    (∃ err, power limit base exponent = .error err ∧
      (Failure.evaluation (.arithmetic err)).foreseen = false) ↔
        0 ≤ exponent ∧ limit ≤ exponent ∧ Decimal.fitsMessage limit = false := by
  unfold power
  split
  · next hneg => simp [Failure.foreseen, Int.not_le.mpr hneg]
  · next hnonneg =>
    have hnonneg : 0 ≤ exponent := Int.not_lt.mp hnonneg
    split
    · next hlimit =>
      cases hfits : Decimal.fitsMessage limit <;>
        simp [hnonneg, hlimit, hfits, excess, Failure.foreseen]
    · next hlimit => simp [hlimit]

/-- The operation overflows exactly if it fails with an error that the rules do not know. -/
lemma Operation.overflows_iff : o.Overflows limit ↔
    ∃ err, o.apply limit = .error err ∧
      (Failure.evaluation (.arithmetic err)).foreseen = false := by
  cases o with
  | unary op value =>
    cases op with
    | negate | identity => simp [Overflows, apply, UnaryOp.apply]
    | factorial => exact factorial_eq_unforeseen_iff.symm
  | binary op left right =>
    cases op with
    | add | subtract | multiply | assign => simp [Overflows, apply, BinaryOp.apply]
    | divide =>
      simp only [Overflows, apply, BinaryOp.apply, divide]
      split <;> simp [Failure.foreseen]
    | exponent => exact power_eq_unforeseen_iff.symm

/-- An evaluation fails with an error that the rules do not know exactly if it comes to an operation
that overflows. -/
theorem Expr.run_eq_unforeseen_iff {e : Expr} :
    (∃ error, (e.run limit allowance env).outcome = .error error ∧
      (Failure.evaluation error).foreseen = false) ↔
        ∃ o, e.Performs limit allowance env o ∧ o.Overflows limit := by
  constructor
  · rintro ⟨error, herror, hforeseen⟩
    -- the errors that are not arithmetic are all known to the rules
    obtain ⟨err, rfl⟩ : ∃ err, error = .arithmetic err := by
      cases error with
      | arithmetic err => exact ⟨err, rfl⟩
      | _ => cases hforeseen
    obtain ⟨o, ho, herr⟩ := exists_performs herror
    exact ⟨o, ho, Operation.overflows_iff.mpr ⟨err, herr, hforeseen⟩⟩
  · rintro ⟨o, ho, hoverflows⟩
    obtain ⟨err, herr, hforeseen⟩ := Operation.overflows_iff.mp hoverflows
    exact ⟨.arithmetic err, ho.outcome_eq herr, hforeseen⟩

namespace Session

variable {s : Session} {line : String} {failure : Failure}

/-- With trees not drawn, a line is rejected if it cannot be read or its evaluation fails. -/
lemma respond_eq_rejected_iff (htree : s.showTree = false) (hline : isCommandLine line = false) :
    (s.respond line).1 = .rejected failure ↔ s.read line = .error failure ∨
      ∃ ts e error, s.read line = .ok (ts, e) ∧ (s.run e).outcome = .error error ∧
        failure = .evaluation error := by
  have hshown (ts : List Token) (e : Expr) : ∃ shown, s.diagnostics ts e = .ok shown := by
    cases hshown : s.diagnostics ts e with
    | ok shown => exact ⟨shown, rfl⟩
    | error f =>
      rw [diagnostics_eq_error_iff, htree] at hshown
      cases hshown.1
  rw [respond_of_expression hline, calculate]
  cases hread : s.read line with
  | error f => simp [error_bind]
  | ok pair =>
    obtain ⟨ts, e⟩ := pair
    obtain ⟨shown, hshown⟩ := hshown ts e
    cases hrun : (s.run e).outcome with
    | ok v => simp [ok_bind, pure_eq_ok, hshown, evaluate_of_ok hrun, hrun]
    | error error =>
      simp only [ok_bind, pure_eq_ok, hshown, evaluate_of_error hrun]
      constructor
      · rintro ⟨⟩
        exact .inr ⟨ts, e, error, rfl, hrun, rfl⟩
      · rintro (hread' | ⟨_, _, _, hread', hrun', rfl⟩)
        · cases hread'
        · cases hread'
          rw [hrun] at hrun'
          cases hrun'
          rfl

/-- With trees not drawn, an expression line is answered with a failure that the rules do not know
exactly if it can be read and evaluating it comes to an operation that overflows. -/
theorem unforeseen_iff_overflows (htree : s.showTree = false)
    (hline : isCommandLine line = false) :
    (∃ failure, (s.respond line).1 = .rejected failure ∧ failure.foreseen = false) ↔
      ∃ ts e o, Token.ofText line = .ok ts ∧ Expr.ofTokens s.allowance ts = .ok e ∧
        e.Performs s.limit s.allowance s.env o ∧ o.Overflows s.limit := by
  simp only [respond_eq_rejected_iff htree hline]
  constructor
  · rintro ⟨failure, hread | ⟨ts, e, error, hread, hrun, rfl⟩, hforeseen⟩
    · -- errors of reading are all known to the rules
      obtain ⟨_, -, rfl⟩ | ⟨_, _, -, -, rfl⟩ := read_eq_error_iff.mp hread <;> cases hforeseen
    · obtain ⟨hts, he⟩ := read_eq_ok_iff.mp hread
      obtain ⟨o, ho, hoverflows⟩ := Expr.run_eq_unforeseen_iff.mp ⟨error, hrun, hforeseen⟩
      exact ⟨ts, e, o, hts, he, ho, hoverflows⟩
  · rintro ⟨ts, e, o, hts, he, ho, hoverflows⟩
    obtain ⟨error, hrun, hforeseen⟩ := Expr.run_eq_unforeseen_iff.mpr ⟨o, ho, hoverflows⟩
    exact ⟨_, .inr ⟨ts, e, error, read_eq_ok_iff.mpr ⟨hts, he⟩, hrun, rfl⟩, hforeseen⟩

/-- Evaluating the line comes to a factorial of a number that is too great for one. -/
theorem unforeseen_iff_overflows_factorial :
    let s := ofSettings .standard (.default none)
    let line := "(2^64)!"
    (s.showTree = false ∧ isCommandLine line = false) ∧
      ∃ failure, (s.respond line).1 = .rejected failure ∧ failure.foreseen = false := by
  intro s line
  have hline : isCommandLine line = false := by decide +kernel
  have hts : Token.ofText line = .ok [⟨.openParen, 0, 1, "("⟩, ⟨.number, 1, 2, "2"⟩,
      ⟨.caret, 2, 3, "^"⟩, ⟨.number, 3, 5, "64"⟩, ⟨.closeParen, 5, 6, ")"⟩,
      ⟨.bang, 6, 7, "!"⟩] := by decide +kernel
  let operand : Expr := .group (.binary .exponent (.number 2) (.number 64))
  have hoperand : (operand.run s.limit (.levels 999) s.env).outcome = .ok 18446744073709551616 := by
    decide +kernel
  refine ⟨⟨rfl, hline⟩, (unforeseen_iff_overflows rfl hline).mpr
    ⟨_, .unary .factorial operand, _, hts, rfl, .unary rfl hoperand, ?_⟩⟩
  show (9223372036854775807 : Int) < 18446744073709551616
  decide

/-- The rules do not know all failures of expression lines. -/
theorem respond_factorial_unexpected :
    let s := ofSettings .standard (.default none)
    (s.showTree = false ∧ isCommandLine "(2^64)!" = false) ∧
      (s.respond "(2^64)!").1.text? = some
        "unexpected error: factorial() argument should not exceed 9223372036854775807" := by
  intro s
  have hreply : (s.respond "(2^64)!").1 =
      .rejected (.evaluation (.arithmetic .factorialTooLarge)) := by decide +kernel
  refine ⟨⟨rfl, by decide +kernel⟩, ?_⟩
  rw [hreply]
  decide +kernel

end Session

end Calculator
