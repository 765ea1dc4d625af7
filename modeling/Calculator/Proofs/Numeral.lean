import Calculator.Proofs.Cutting.Spelling
import Calculator.Proofs.Evaluation

/-!
# Numerals in expressions

The numeral of an integer is read back as the integer: as a number if it has no minus sign, and as a
sign in front of a number if it has one.
-/

namespace Calculator

open Text

/-! ### Digits -/

lemma isDigit_of_isDigit {c : Char} (h : c.isDigit = true) : isDigit c = true := by
  delta Char.isDigit at h
  have toNat_eq : c.toNat = c.val.toNat := rfl
  simp only [Bool.and_eq_true, decide_eq_true_eq, UInt32.le_iff_toNat_le, ge_iff_le] at h
  exact isDigit_iff.mpr h

lemma Text.Decimal.isDigit_of_mem_toDigits {d : Char} {n : Nat} (hd : d ∈ Nat.toDigits 10 n) :
    isDigit d = true :=
  isDigit_of_isDigit (Nat.isDigit_of_mem_toDigits (by decide) (by decide) hd)

namespace Token

/-- The digits of a number are spelled as a number. -/
lemma Kind.spelled_toDigits (n : Nat) : Kind.number.Spelled (Nat.toDigits 10 n) := by
  have hdigit : ∀ c ∈ Nat.toDigits 10 n, isDigit c = true := fun c =>
    Decimal.isDigit_of_mem_toDigits
  obtain ⟨c, w, hlist⟩ := List.exists_cons_of_ne_nil (Nat.toDigits_ne_nil : Nat.toDigits 10 n ≠ [])
  rw [hlist] at hdigit ⊢
  obtain ⟨hc, hw⟩ := List.forall_mem_cons.mp hdigit
  exact .number hc hw

lemma spelledLexeme_toDigits (n : Nat) :
    spelledLexeme .number (Nat.toDigits 10 n) = .number n := by
  have hvalue : Decimal.value (Nat.toDigits 10 n) = n := Nat.ofDigitChars_ten_toDigits
  simp only [spelledLexeme, lexeme, String.toList_ofList, hvalue]

end Token

/-! ### Signed numbers -/

namespace Expr

/-- The tree of the numeral of an integer. -/
def numeral (v : Int) : Expr := if v < 0 then unary .negate (number (-v)) else number v

@[simp] lemma numeral_natCast (n : Nat) : numeral n = number n := if_neg (by omega)

@[simp] lemma numeral_of_neg {v : Int} (h : v < 0) : numeral v = unary .negate (number (-v)) :=
  if_pos h

lemma wellLevelled_numeral (v : Int) : (numeral v).WellLevelled := by
  unfold numeral
  split
  · exact ⟨by simp [UnaryOp.operandLevel, level], trivial⟩
  · trivial

/-- Without a limit on nesting, a numeral has its value in every environment. -/
lemma run_numeral (limit v : Int) (env : Environment) :
    (numeral v).run limit .unlimited env = Run.value v := by
  unfold numeral
  split
  · have hneg : - -v = v := Int.neg_neg v
    simp [run, Run.enter, Run.andThen, Run.value, Run.ofArithmetic, UnaryOp.apply, hneg]
  · rfl

end Expr

/-- The numeral of an integer says its tree, unless a digit follows. -/
theorem Token.Says.numeral {cs : List Char} {ls : List Lexeme} (h : Says cs ls)
    (hcs : ∀ d ∈ cs.head?, isDigit d = false) (v : Int) :
    Says ((Decimal.ofInt v).toList ++ cs) ((Expr.numeral v).lexemes ++ ls) := by
  have hends : Kind.number.EndsBefore cs := ⟨fun _ => hcs, False.elim⟩
  have hdigits (n : Nat) : Says (Nat.toDigits 10 n ++ cs) (.number n :: ls) := by
    rw [← spelledLexeme_toDigits]
    exact .token (Kind.spelled_toDigits n) hends h
  rcases Int.lt_or_le v 0 with hv | hv
  · have habs : -v = (v.natAbs : Int) := by omega
    rw [Decimal.toList_ofInt_of_neg hv, Expr.numeral_of_neg hv, habs]
    exact .mark rfl (hdigits v.natAbs)
  · obtain ⟨n, rfl⟩ := Int.eq_ofNat_of_zero_le hv
    rw [Decimal.toList_ofInt_natCast, Expr.numeral_natCast]
    exact hdigits n

end Calculator
