import Calculator.Proofs.Chain
import Calculator.Proofs.Numeral.Canonical
import Mathlib.Data.List.TakeWhile

/-!
# Quotients rounded toward zero

Dividing rounds toward zero: the remainder is smaller than the divisor and has the sign of the
dividend, and no other quotient leaves such a remainder. It is the same to divide the absolute
values and to settle the sign afterwards. So a minus sign in a quotient of numerals changes the sign
of the value and nothing else, wherever in the tree it stands.
-/

namespace Calculator

open Text

namespace Arithmetic

variable {dividend divisor q q' : Int}

/-- The quotient leaves a remainder that is smaller than the divisor, and that has the sign of the
dividend unless it is zero. -/
def RoundsTowardZero (dividend divisor q : Int) : Prop :=
  ∃ r, dividend = divisor * q + r ∧ r.natAbs < divisor.natAbs ∧ (r = 0 ∨ r.sign = dividend.sign)

/-- The quotient of the absolute values, with a minus sign if one of the two integers is negative
and the other one is not. -/
def quotientOfSizes (dividend divisor : Int) : Int :=
  let size : Int := (dividend.natAbs / divisor.natAbs : Nat)
  if dividend < 0 ↔ divisor < 0 then size else -size

lemma divide_of_ne_zero (dividend : Int) (h : divisor ≠ 0) :
    divide dividend divisor = .ok (dividend.tdiv divisor) := if_neg h

lemma divide_neg_left (dividend : Int) (h : divisor ≠ 0) :
    divide (-dividend) divisor = .ok (-dividend.tdiv divisor) := by
  rw [divide_of_ne_zero _ h, Int.neg_tdiv]

lemma divide_neg_right (dividend : Int) (h : divisor ≠ 0) :
    divide dividend (-divisor) = .ok (-dividend.tdiv divisor) := by
  rw [divide_of_ne_zero _ (Int.neg_ne_zero.mpr h), Int.tdiv_neg]

lemma tdiv_eq_quotientOfSizes (dividend divisor : Int) :
    dividend.tdiv divisor = quotientOfSizes dividend divisor := by
  have hsizes (m n : Nat) : (m : Int).tdiv n = (m / n : Nat) := rfl
  have hnonneg (m : Nat) : ¬ (m : Int) < 0 := by omega
  obtain ⟨m, rfl | rfl⟩ := dividend.eq_nat_or_neg <;> obtain ⟨n, rfl | rfl⟩ := divisor.eq_nat_or_neg
  · simp [quotientOfSizes, hsizes, hnonneg]
  · rcases Nat.eq_zero_or_pos n with rfl | hn
    · simp [quotientOfSizes]
    · simp [quotientOfSizes, hsizes, hnonneg, hn, Int.tdiv_neg]
  · rcases Nat.eq_zero_or_pos m with rfl | hm
    · simp [quotientOfSizes]
    · simp [quotientOfSizes, hsizes, hnonneg, hm, Int.neg_tdiv]
  · rcases Nat.eq_zero_or_pos m with rfl | hm
    · simp [quotientOfSizes]
    · rcases Nat.eq_zero_or_pos n with rfl | hn
      · simp [quotientOfSizes]
      · simp [quotientOfSizes, hsizes, hm, hn, Int.neg_tdiv, Int.tdiv_neg]

lemma roundsTowardZero_tdiv (dividend : Int) (h : divisor ≠ 0) :
    RoundsTowardZero dividend divisor (dividend.tdiv divisor) := by
  refine ⟨dividend.tmod divisor, (Int.mul_tdiv_add_tmod _ _).symm, ?_, ?_⟩
  · rw [Int.natAbs_tmod]
    exact Nat.mod_lt _ (Int.natAbs_pos.mpr h)
  · have hsign := Int.sign_tmod dividend divisor
    split at hsign
    · exact .inl (Int.sign_eq_zero_iff_zero.mp hsign)
    · exact .inr hsign

/-- Two remainders of one sign differ by less than the divisor. -/
lemma RoundsTowardZero.unique (h : RoundsTowardZero dividend divisor q)
    (h' : RoundsTowardZero dividend divisor q') : q = q' := by
  obtain ⟨r, hr, hlt, hsign⟩ := h
  obtain ⟨r', hr', hlt', hsign'⟩ := h'
  have hdifference : divisor * (q - q') = r' - r := by
    rw [Int.mul_sub]
    omega
  have hsmall : (r' - r).natAbs < divisor.natAbs := by
    rcases lt_trichotomy dividend 0 with hneg | rfl | hpos
    · rw [Int.sign_eq_neg_one_of_neg hneg, Int.sign_eq_neg_one_iff_neg] at hsign hsign'
      omega
    · rw [Int.sign_zero, Int.sign_eq_zero_iff_zero] at hsign hsign'
      omega
    · rw [Int.sign_eq_one_of_pos hpos, Int.sign_eq_one_iff_pos] at hsign hsign'
      omega
  rw [← hdifference, Int.natAbs_mul] at hsmall
  have hzero : (q - q').natAbs = 0 := by
    by_contra hne
    exact absurd hsmall (Nat.not_lt.mpr (Nat.le_mul_of_pos_right _ (Nat.pos_of_ne_zero hne)))
  omega

end Arithmetic

/-! ### Quotients of numerals -/

open Arithmetic

/-- The text is spelled as a tree that may stand on either side of a quotient. It takes little
nesting and has the value `v`, whatever the variables are. -/
structure Factor (text : String) (e : Expr) (v : Int) : Prop where
  spells : Expr.Spells text e
  wellLevelled : e.WellLevelled
  level : 3 ≤ e.level
  need_le : e.need ≤ 3
  height_le : e.height ≤ 3
  run_eq : ∀ limit env, e.run limit .unlimited env = Run.value v

/-- The text consists of digits, of which there is at least one. -/
structure IsDigits (text : String) : Prop where
  ne_nil : text.toList ≠ []
  isDigit : ∀ c ∈ text.toList, isDigit c = true

namespace IsDigits

variable {a b : String}

lemma spelled (h : IsDigits a) : Token.Kind.number.Spelled a.toList := by
  obtain ⟨hnil, hdigits⟩ := h
  obtain ⟨c, w, hlist⟩ := List.exists_cons_of_ne_nil hnil
  rw [hlist] at hdigits ⊢
  obtain ⟨hc, hw⟩ := List.forall_mem_cons.mp hdigits
  exact .number hc hw

lemma spelledLexeme_eq (a : String) :
    Token.spelledLexeme .number a.toList = .number (Decimal.positional a.toList) := by
  simp only [Token.spelledLexeme, Token.lexeme, String.toList_ofList, Decimal.value_eq_positional]

/-- The digits in front of a text say their number, unless another digit follows. -/
lemma inFront (h : IsDigits a) {cs : List Char} {ls : List Lexeme} (hls : Token.Says cs ls)
    (hcs : ∀ d ∈ cs.head?, Text.isDigit d = false) :
    Token.Says (a.toList ++ cs) (.number (Decimal.positional a.toList) :: ls) := by
  rw [← spelledLexeme_eq]
  exact .token h.spelled ⟨fun _ => hcs, False.elim⟩ hls

lemma alone (h : IsDigits a) :
    Token.Says a.toList [.number (Decimal.positional a.toList)] := by
  have hsays := h.inFront .nil nofun
  rwa [List.append_nil] at hsays

lemma factor (h : IsDigits a) :
    Factor a (.number (Decimal.positional a.toList)) (Decimal.positional a.toList) where
  spells := h.alone.exists_ofText
  wellLevelled := trivial
  level := by simp [Expr.level]
  need_le := by simp [Expr.need]
  height_le := by simp [Expr.height]
  run_eq _ _ := rfl

lemma factor_negative (h : IsDigits a) :
    Factor ("-" ++ a) (.unary .negate (.number (Decimal.positional a.toList)))
      (-Decimal.positional a.toList) where
  spells := by
    refine Token.Says.exists_ofText ?_
    rw [String.toList_append]
    exact .mark rfl h.alone
  wellLevelled := ⟨by simp [UnaryOp.operandLevel, Expr.level], trivial⟩
  level := by simp [Expr.level]
  need_le := by simp [Expr.need]
  height_le := by simp [Expr.height]
  run_eq _ _ := rfl

lemma factor_parenthesized (h : IsDigits a) :
    Factor ("(-" ++ a ++ ")") (.group (.unary .negate (.number (Decimal.positional a.toList))))
      (-Decimal.positional a.toList) where
  spells := by
    have hclosing : Token.Says [')'] [.mark .closeParen] := .mark rfl .nil
    refine Token.Says.exists_ofText ?_
    rw [String.toList_append, String.toList_append, List.append_assoc]
    exact .mark rfl (.mark rfl (h.inFront hclosing (by rintro d ⟨⟩; rfl)))
  wellLevelled := h.factor_negative.wellLevelled
  level := by simp [Expr.level]
  need_le := by simp [Expr.need]
  height_le := by simp [Expr.height]
  run_eq _ _ := rfl

/-- Only zeros have the value zero. -/
lemma positional_ne_zero (h : IsDigits a) (hzero : ∃ c ∈ a.toList, c ≠ '0') :
    Decimal.positional a.toList ≠ 0 := by
  intro hvalue
  obtain ⟨c, hc, hne⟩ := hzero
  have hrest : a.toList.dropWhile (· = '0') ≠ [] := by
    intro hnil
    have hall := List.dropWhile_eq_nil_iff.mp hnil
    exact hne (of_decide_eq_true (hall c hc))
  have hnumeral := (Decimal.isNumeral_withoutLeadingZeros h.isDigit).eq_toDigits
  rw [Decimal.withoutLeadingZeros, if_neg hrest, hvalue] at hnumeral
  have hhead := List.head_dropWhile_not (fun c => decide (c = '0')) hrest
  simp [hnumeral] at hhead

end IsDigits

namespace Expr

/-- The text is read as the tree, and evaluating the tree gives `v` and assigns nothing. -/
def Evaluates (allowance : Allowance) (text : String) (e : Expr) (v : Int) : Prop :=
  ∃ ts, Token.ofText text = .ok ts ∧ ofTokens allowance ts = .ok e ∧
    ∀ limit env, e.evaluate limit allowance env = (.ok v, env)

variable {text text' : String} {l r : Expr} {x y q : Int} {allowance : Allowance}

/-- A quotient of factors is read as such, and evaluated to the quotient of their values. -/
lemma Evaluates.quotient (hl : Factor text l x) (hr : Factor text' r y)
    (hq : divide x y = .ok q) (h : (Allowance.levels 4).AtMost allowance) :
    Evaluates allowance (text ++ "/" ++ text') (binary .divide l r) q := by
  have hw : (binary .divide l r).WellLevelled :=
    ⟨⟨Nat.le_of_succ_le hl.level, hr.level⟩, hl.wellLevelled, hr.wellLevelled⟩
  have hneed : (binary .divide l r).need ≤ 4 := by
    have hlneed := hl.need_le
    have hrneed := hr.need_le
    simp only [need]
    omega
  have hheight : (binary .divide l r).height ≤ 4 :=
    Nat.succ_le_succ (Nat.max_le.mpr ⟨hl.height_le, hr.height_le⟩)
  have hdivide : BinaryOp.divide ≠ .assign := by decide
  have hnoBlank : ∀ c ∈ "".toList, Token.isSpace c = true := by simp
  have hspells := hl.spells.binary hr.spells hdivide hnoBlank hnoBlank
  rw [String.append_empty, String.append_empty] at hspells
  obtain ⟨ts, hts, hlexemes⟩ := hspells
  refine ⟨ts, hts, ofTokens_of_atMost hw hlexemes hneed h, fun limit env => ?_⟩
  have hrun : (binary .divide l r).run limit .unlimited env = Run.value q := by
    simp [run, hl.run_eq, hr.run_eq, Run.andThen, Run.value, Run.ofArithmetic, BinaryOp.apply, hq]
  rw [evaluate, run_of_atMost limit hheight h, hrun]
  rfl

end Expr

/-- Division rounds toward zero, and a sign of either operand is a sign of the quotient. So the
numerals of two numbers have the same quotient up to its sign, whether a minus sign stands before
the first numeral, before it inside parentheses or before the second numeral. -/
theorem sign_of_quotient :
    (∀ left right : Int, right ≠ 0 → ∃ q, divide left right = .ok q ∧
      q = quotientOfSizes left right ∧ RoundsTowardZero left right q ∧
      (∀ q', RoundsTowardZero left right q' → q' = q) ∧
      divide (-left) right = .ok (-q) ∧ divide left (-right) = .ok (-q)) ∧
    ∀ a b : String, IsDigits a → IsDigits b → (∃ c ∈ b.toList, c ≠ '0') →
      ∀ allowance, (Allowance.levels 4).AtMost allowance →
        let x := Expr.number (Decimal.positional a.toList)
        let y := Expr.number (Decimal.positional b.toList)
        ∃ q, divide (Decimal.positional a.toList) (Decimal.positional b.toList) = .ok q ∧
          Expr.Evaluates allowance (a ++ "/" ++ b) (.binary .divide x y) q ∧
          Expr.Evaluates allowance ("-" ++ a ++ "/" ++ b)
            (.binary .divide (.unary .negate x) y) (-q) ∧
          Expr.Evaluates allowance ("(-" ++ a ++ ")" ++ "/" ++ b)
            (.binary .divide (.group (.unary .negate x)) y) (-q) ∧
          Expr.Evaluates allowance (a ++ "/" ++ ("-" ++ b))
            (.binary .divide x (.unary .negate y)) (-q) := by
  refine ⟨fun left right h => ?_, fun a b ha hb hzero allowance hallowed => ?_⟩
  · have hrounds := roundsTowardZero_tdiv left h
    exact ⟨_, divide_of_ne_zero left h, tdiv_eq_quotientOfSizes left right, hrounds,
      fun q' hq' => hq'.unique hrounds, divide_neg_left left h, divide_neg_right left h⟩
  · intro x y
    have hne : (Decimal.positional b.toList : Int) ≠ 0 :=
      Int.natCast_ne_zero.mpr (hb.positional_ne_zero hzero)
    have hquotient := divide_of_ne_zero (Decimal.positional a.toList) hne
    have hleft := divide_neg_left (Decimal.positional a.toList) hne
    have hright := divide_neg_right (Decimal.positional a.toList) hne
    exact ⟨_, hquotient, .quotient ha.factor hb.factor hquotient hallowed,
      .quotient ha.factor_negative hb.factor hleft hallowed,
      .quotient ha.factor_parenthesized hb.factor hleft hallowed,
      .quotient ha.factor hb.factor_negative hright hallowed⟩

/-- The quotient of `-7` and `2` is rounded up, and so are those in `-07/2`, in `(-07)/2` and with
the sign before the divisor. -/
theorem sign_of_quotient_of_seven :
    (2 : Int) ≠ 0 ∧ divide (-7) 2 = .ok (-3) ∧ RoundsTowardZero (-7) 2 (-3) ∧
      (IsDigits "07" ∧ IsDigits "2" ∧ (∃ c ∈ "2".toList, c ≠ '0') ∧
        (Allowance.levels 4).AtMost .standard) ∧
      Expr.Evaluates .standard "-07/2" (.binary .divide (.unary .negate (.number 7)) (.number 2))
        (-3) ∧
      Expr.Evaluates .standard "(-07)/2"
        (.binary .divide (.group (.unary .negate (.number 7))) (.number 2)) (-3) ∧
      Expr.Evaluates .standard ("07/" ++ "-2")
        (.binary .divide (.number 7) (.unary .negate (.number 2))) (-3) := by
  have hseven : IsDigits "07" := ⟨by decide, List.all_eq_true.mp rfl⟩
  have htwo : IsDigits "2" := ⟨by decide, List.all_eq_true.mp rfl⟩
  have hzero : ∃ c ∈ "2".toList, c ≠ '0' := ⟨'2', by decide, by decide⟩
  have hallowed : (Allowance.levels 4).AtMost .standard := by
    show 4 ≤ 1000
    decide
  obtain ⟨hdivide, htexts⟩ := sign_of_quotient
  obtain ⟨q, hround, -, hrounds, -⟩ := hdivide (-7) 2 (by decide)
  obtain rfl : -3 = q := Except.ok.inj hround
  obtain ⟨q, hq, -, hfront, hgroup, hbehind⟩ := htexts "07" "2" hseven htwo hzero .standard hallowed
  obtain rfl : 3 = q := Except.ok.inj hq
  exact ⟨by decide, hround, hrounds, ⟨hseven, htwo, hzero, hallowed⟩, hfront, hgroup, hbehind⟩

end Calculator
