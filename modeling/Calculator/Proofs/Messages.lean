import Calculator.Proofs.Evaluation.ExponentLimit
import Calculator.Proofs.Numeral
import Mathlib.Algebra.Group.Nat.Defs
import Mathlib.Data.List.Infix

/-!
# Numbers in messages

The message of an arithmetic error tells the integers of the operation that failed. One with more
than fifty digits is not written out: its sign and about how many digits it has stand for it. So
there is no longer run of digits in a message, unless it tells a limit on exponents, which is always
written out. Up to ten million bits, the number of digits that stands for an integer is right or one
too great.
-/

namespace Calculator

open Arithmetic Text

/-! ### Runs of digits -/

namespace Text

/-- No run of decimal digits among the characters is longer than the bound. -/
def DigitRunsAtMost (bound : Nat) (cs : List Char) : Prop :=
  ∀ run, run <:+: cs → (∀ c ∈ run, isDigit c = true) → run.length ≤ bound

variable {bound : Nat} {cs cs' : List Char}

namespace DigitRunsAtMost

lemma of_countP_le (h : cs.countP isDigit ≤ bound) : DigitRunsAtMost bound cs := by
  intro run hrun hdigits
  calc
    run.length = run.countP isDigit := (List.countP_eq_length.mpr hdigits).symm
    _ ≤ cs.countP isDigit := hrun.sublist.countP_le
    _ ≤ bound := h

lemma nil : DigitRunsAtMost bound [] := of_countP_le (Nat.zero_le bound)

lemma iff_length_le (h : ∀ c ∈ cs, isDigit c = true) :
    DigitRunsAtMost bound cs ↔ cs.length ≤ bound :=
  ⟨fun hruns => hruns cs List.infix_rfl h,
    fun hle => of_countP_le (List.countP_le_length.trans hle)⟩

/-- Where the characters on one side of a place are not digits, no run of digits reaches over it. -/
lemma append_iff (h : cs.getLast?.any isDigit = false ∨ cs'.head?.any isDigit = false) :
    DigitRunsAtMost bound (cs ++ cs') ↔ DigitRunsAtMost bound cs ∧ DigitRunsAtMost bound cs' := by
  constructor
  · intro hruns
    exact ⟨fun run hrun => hruns run (List.infix_append_of_infix_left hrun),
      fun run hrun => hruns run (List.infix_append_of_infix_right hrun)⟩
  · rintro ⟨hruns, hruns'⟩ run hrun hdigits
    obtain hleft | hright | ⟨front, back, rfl, hfront, hback⟩ := List.infix_append_iff.mp hrun
    · exact hruns run hleft hdigits
    · exact hruns' run hright hdigits
    · -- one of the two parts is empty, as there would be digits on both sides
      rcases front.eq_nil_or_concat' with rfl | ⟨front, c, rfl⟩
      · exact hruns' back hback.isInfix hdigits
      cases back with
      | nil =>
        rw [List.append_nil] at hdigits ⊢
        exact hruns _ hfront.isInfix hdigits
      | cons d back =>
        exfalso
        have hc : isDigit c = true := hdigits c (by simp)
        have hd : isDigit d = true := hdigits d (by simp)
        obtain ⟨cs, rfl⟩ := hfront
        obtain ⟨cs', rfl⟩ := hback
        simp [hc, hd] at h

end DigitRunsAtMost

/-- The characters keep digits in front of them and behind them apart, and have few digits. -/
def Separates (bound : Nat) (cs : List Char) : Prop :=
  cs ≠ [] ∧ cs.countP isDigit ≤ bound ∧
    cs.head?.any isDigit = false ∧ cs.getLast?.any isDigit = false

instance (bound : Nat) (cs : List Char) : Decidable (Separates bound cs) :=
  inferInstanceAs (Decidable (_ ∧ _))

namespace Separates

variable {mark : List Char}

lemma append_iff (h : Separates bound mark) :
    DigitRunsAtMost bound (cs ++ mark ++ cs') ↔
      DigitRunsAtMost bound cs ∧ DigitRunsAtMost bound cs' := by
  obtain ⟨hne, hcount, hhead, hlast⟩ := h
  have hend : (cs ++ mark).getLast?.any isDigit = false := by
    rwa [List.getLast?_append_of_ne_nil cs hne]
  rw [DigitRunsAtMost.append_iff (.inl hend), DigitRunsAtMost.append_iff (.inr hhead),
    and_iff_left (DigitRunsAtMost.of_countP_le hcount)]

lemma append_right_iff (h : Separates bound mark) :
    DigitRunsAtMost bound (mark ++ cs) ↔ DigitRunsAtMost bound cs := by
  rw [← List.nil_append (mark ++ cs), ← List.append_assoc, h.append_iff, and_iff_right .nil]

lemma append_left_iff (h : Separates bound mark) :
    DigitRunsAtMost bound (cs ++ mark) ↔ DigitRunsAtMost bound cs := by
  rw [← List.append_nil (cs ++ mark), h.append_iff, and_iff_left .nil]

end Separates

/-- The runs of digits in a numeral are as short as the integer is small. -/
lemma digitRunsAtMost_ofInt_iff (h : 0 < bound) (n : Int) :
    DigitRunsAtMost bound (Decimal.ofInt n).toList ↔ n.natAbs < Decimal.powerOfTen bound := by
  have hdigits : DigitRunsAtMost bound (Nat.toDigits 10 n.natAbs) ↔
      n.natAbs < Decimal.powerOfTen bound :=
    (DigitRunsAtMost.iff_length_le fun c => Decimal.isDigit_of_mem_toDigits).trans
      (Nat.length_toDigits_le_iff (by decide) h)
  rcases Int.lt_or_le n 0 with hneg | hnonneg
  · have hsign : Separates bound ['-'] := ⟨by decide, Nat.zero_le bound, rfl, rfl⟩
    rw [Decimal.toList_ofInt_of_neg hneg, ← List.singleton_append, hsign.append_right_iff, hdigits]
  · obtain ⟨n, rfl⟩ := Int.eq_ofNat_of_zero_le hnonneg
    rw [Decimal.toList_ofInt_natCast]
    exact hdigits

end Text

/-! ### About how many digits -/

namespace Arithmetic

/-- About how many digits an integer has, at 0.30103 digits for each bit. -/
def approximateDigits (n : Int) : Nat := (Nat.log2 n.natAbs + 1) * 30103 / 100000 + 1

/-- The sign that a message shows of an integer that is not written out. -/
def signText (n : Int) : String := if n < 0 then "-" else ""

variable {n : Int}

lemma operandText_of_lt (h : n.natAbs < Decimal.powerOfTen 50) :
    operandText n = Decimal.ofInt n := if_pos h

lemma operandText_of_le (h : Decimal.powerOfTen 50 ≤ n.natAbs) :
    operandText n =
      signText n ++ "<~" ++ Decimal.ofInt (approximateDigits n) ++ "-digit integer>" :=
  if_neg (Nat.not_lt.mpr h)

/-- Powers of two bases compare as a fraction for their logarithms says. -/
private lemma pow_le_pow_of_fraction {a b p q m k : Nat} (h : a ^ p ≤ b ^ q) (hb : 0 < b)
    (hp : p ≠ 0) (hm : q * m ≤ k * p) : a ^ m ≤ b ^ k := by
  have hpow : (a ^ m) ^ p ≤ (b ^ k) ^ p :=
    calc
      (a ^ m) ^ p = (a ^ p) ^ m := by rw [← Nat.pow_mul, ← Nat.pow_mul, Nat.mul_comm]
      _ ≤ (b ^ q) ^ m := Nat.pow_le_pow_left h m
      _ = b ^ (q * m) := (Nat.pow_mul b q m).symm
      _ ≤ b ^ (k * p) := Nat.pow_le_pow_right hb hm
      _ = (b ^ k) ^ p := Nat.pow_mul b k p
  exact (Nat.pow_le_pow_iff_left hp).mp hpow

/-- A number lies below the least one with more digits. -/
lemma lt_pow_length_toDigits (m : Nat) : m < 10 ^ (Nat.toDigits 10 m).length :=
  (Nat.length_toDigits_le_iff (by decide) Nat.length_toDigits_pos).mp le_rfl

/-- A number that is not zero does not lie below the least one with as many digits. -/
lemma pow_length_toDigits_sub_one_le {m : Nat} (hm : m ≠ 0) :
    10 ^ ((Nat.toDigits 10 m).length - 1) ≤ m := by
  rcases Nat.eq_zero_or_pos ((Nat.toDigits 10 m).length - 1) with hone | hmany
  · rw [hone]
    exact Nat.pos_of_ne_zero hm
  · by_contra hlt
    have hshort : (Nat.toDigits 10 m).length ≤ (Nat.toDigits 10 m).length - 1 :=
      (Nat.length_toDigits_le_iff (by decide) hmany).mpr (Nat.not_le.mp hlt)
    omega

/-- The number of digits that is told is never too small. -/
lemma length_toDigits_le_approximateDigits (n : Int) :
    (Nat.toDigits 10 n.natAbs).length ≤ approximateDigits n := by
  refine (Nat.length_toDigits_le_iff (by decide) (Nat.succ_pos _)).mpr ?_
  have hbits : 2 ^ (Nat.log2 n.natAbs + 1) ≤ 10 ^ approximateDigits n := by
    -- 30103 digits are more than 100000 bits take
    have hfraction : 2 ^ 100000 ≤ 10 ^ 30103 := by decide +kernel
    refine pow_le_pow_of_fraction hfraction (by decide) (by decide) ?_
    unfold approximateDigits
    omega
  exact Nat.lt_log2_self.trans_le hbits

/-- A number has less than 2136 bits behind the first one for every 643 digits. -/
lemma log2_mul_lt (m : Nat) : Nat.log2 m * 643 < 2136 * (Nat.toDigits 10 m).length := by
  rcases eq_or_ne m 0 with rfl | hm
  · decide
  · by_contra hle
    have hfraction : 10 ^ 643 ≤ 2 ^ 2136 := by decide +kernel
    have hpow : 10 ^ (Nat.toDigits 10 m).length ≤ 2 ^ Nat.log2 m :=
      pow_le_pow_of_fraction hfraction (by decide) (by decide) (Nat.not_lt.mp hle)
    exact absurd (hpow.trans (Nat.log2_self_le hm)) (Nat.not_le.mpr (lt_pow_length_toDigits m))

/-- The number of digits that is told is never too small. It is too great by one at most, and by one
more for every fifty thousand digits. -/
lemma length_toDigits_approximate (n : Int) :
    let count := (Nat.toDigits 10 n.natAbs).length
    count ≤ approximateDigits n ∧ approximateDigits n ≤ count + 1 + count / 50000 := by
  intro count
  refine ⟨length_toDigits_le_approximateDigits n, ?_⟩
  have hbits : Nat.log2 n.natAbs * 643 < 2136 * count := log2_mul_lt n.natAbs
  unfold approximateDigits
  omega

/-- Up to ten million bits, what 0.30103 digits for each bit are too many adds up to less than one
digit. -/
lemma approximateDigits_le_succ {bits : Nat} (hbits : bits ≤ 10000000)
    (hlt : n.natAbs < 2 ^ bits) :
    approximateDigits n ≤ (Nat.toDigits 10 n.natAbs).length + 1 := by
  have hlog : Nat.log2 n.natAbs < 10000000 := by
    by_cases hzero : n.natAbs = 0
    · rw [hzero, Nat.log2_zero]
      decide
    · exact ((Nat.log2_lt hzero).mpr hlt).trans_le hbits
  have hdigits := log2_mul_lt n.natAbs
  unfold approximateDigits
  omega

/-- What stands for an integer has a long run of digits if it is told with a long number of digits.
-/
lemma digitRunsAtMost_operandText_iff :
    DigitRunsAtMost 50 (operandText n).toList ↔
      approximateDigits n < Decimal.powerOfTen 50 := by
  rcases Nat.lt_or_ge n.natAbs (Decimal.powerOfTen 50) with hlt | hge
  · have hsmall : approximateDigits n < Decimal.powerOfTen 50 := by
      have hcount : (Nat.toDigits 10 n.natAbs).length ≤ 50 :=
        (Nat.length_toDigits_le_iff (by decide) (by decide)).mpr hlt
      have hle : approximateDigits n ≤ 51 := by
        have happroximate := (length_toDigits_approximate n).2
        omega
      exact hle.trans_lt (by decide)
    rw [operandText_of_lt hlt, digitRunsAtMost_ofInt_iff (by decide)]
    exact iff_of_true hlt hsmall
  · have hopen : Separates 50 (signText n ++ "<~").toList := by
      unfold signText
      split <;> decide
    have hclose : Separates 50 "-digit integer>".toList := by decide
    rw [operandText_of_le hge, String.toList_append, String.toList_append, hclose.append_left_iff,
      hopen.append_right_iff, digitRunsAtMost_ofInt_iff (by decide), Int.natAbs_natCast]

end Arithmetic

/-- The only operations that fail for want of a message are powers whose exponent reaches a limit
that is too long for one. -/
lemma Operation.apply_eq_numeralTooLong_iff {limit : Int} {o : Operation} :
    o.apply limit = .error .numeralTooLong ↔
      ∃ base exponent, o = .binary .exponent base exponent ∧
        0 ≤ exponent ∧ limit ≤ exponent ∧ Decimal.fitsMessage limit = false := by
  constructor
  · intro h
    have hoverflows : o.Overflows limit := overflows_iff.mpr ⟨_, h, rfl⟩
    obtain ⟨base, exponent, rfl, -, -⟩ := apply_eq_isExcess h trivial
    exact ⟨base, exponent, rfl, hoverflows⟩
  · rintro ⟨base, exponent, rfl, hnonneg, hle, hfits⟩
    rw [apply, BinaryOp.apply, power, if_neg (Int.not_lt.mpr hnonneg), if_pos hle,
      excess_of_not_fitsMessage hfits]

namespace ArithmeticError

/-- The integers of the operation that failed. -/
def operands : ArithmeticError → List Int
  | .divisionByZero dividend => [dividend]
  | .exponentTooLarge base exponent _ | .negativeExponent base exponent => [base, exponent]
  | .negativeFactorial value => [value]
  | .factorialTooLarge | .numeralTooLong => []

/-- The limit on exponents that the message tells. -/
def limit? : ArithmeticError → Option Int
  | .exponentTooLarge _ _ limit => some limit
  | _ => none

variable {err : ArithmeticError}

/-- Both operands of a power are told. -/
lemma operandText_infix_of_or {n base exponent : Int} (hn : n = base ∨ n = exponent)
    (front caret : List Char) : (operandText n).toList <:+:
      front ++ (operandText base).toList ++ caret ++ (operandText exponent).toList := by
  rcases hn with rfl | rfl
  · exact List.infix_append_of_infix_left (List.infix_append _ _ _)
  · exact (List.suffix_append _ _).isInfix

lemma operandText_infix_message {n : Int} (hn : n ∈ err.operands) :
    (operandText n).toList <:+: err.message.toList := by
  cases err with
  | divisionByZero dividend | negativeFactorial value =>
    simp only [operands, List.mem_singleton] at hn
    subst hn
    unfold message
    simp only [String.toList_append]
    exact List.infix_append _ _ _
  | exponentTooLarge base exponent limit =>
    simp only [operands, List.mem_cons, List.not_mem_nil, or_false] at hn
    unfold message
    simp only [String.toList_append]
    exact List.infix_append_of_infix_left
      (List.infix_append_of_infix_left (operandText_infix_of_or hn _ _))
  | negativeExponent base exponent =>
    simp only [operands, List.mem_cons, List.not_mem_nil, or_false] at hn
    unfold message
    simp only [String.toList_append]
    exact List.infix_append_of_infix_left (operandText_infix_of_or hn _ _)
  | factorialTooLarge | numeralTooLong => cases hn

lemma digitRunsAtMost_message_iff (err : ArithmeticError) :
    DigitRunsAtMost 50 err.message.toList ↔
      (∀ n ∈ err.operands, approximateDigits n < Decimal.powerOfTen 50) ∧
        ∀ limit ∈ err.limit?, limit.natAbs < Decimal.powerOfTen 50 := by
  cases err with
  | divisionByZero dividend =>
    have hfront : Separates 50 "division by zero (".toList := by decide
    have hback : Separates 50 " / 0)".toList := by decide
    unfold message
    rw [String.toList_append, String.toList_append, hback.append_left_iff,
      hfront.append_right_iff, digitRunsAtMost_operandText_iff]
    simp [operands, limit?]
  | exponentTooLarge base exponent limit =>
    have hfront : Separates 50 "exponent too large (".toList := by decide
    have hcaret : Separates 50 " ^ ".toList := by decide
    have hback : Separates 50 "), must be below ".toList := by decide
    unfold message
    simp only [String.toList_append, hback.append_iff, hcaret.append_iff, hfront.append_right_iff,
      digitRunsAtMost_operandText_iff]
    rw [digitRunsAtMost_ofInt_iff (by decide)]
    simp [operands, limit?]
  | negativeExponent base exponent =>
    have hfront : Separates 50 "negative exponent (".toList := by decide
    have hcaret : Separates 50 " ^ ".toList := by decide
    have hback : Separates 50 ") has no integer result".toList := by decide
    unfold message
    simp only [String.toList_append, hback.append_left_iff, hcaret.append_iff,
      hfront.append_right_iff, digitRunsAtMost_operandText_iff]
    simp [operands, limit?]
  | negativeFactorial value =>
    have hfront : Separates 50 "factorial not defined for negative numbers (".toList := by decide
    have hback : Separates 50 "!)".toList := by decide
    unfold message
    rw [String.toList_append, String.toList_append, hback.append_left_iff,
      hfront.append_right_iff, digitRunsAtMost_operandText_iff]
    simp [operands, limit?]
  | factorialTooLarge =>
    have hfront : Separates 50 "factorial() argument should not exceed ".toList := by decide
    unfold message
    rw [String.toList_append, hfront.append_right_iff, digitRunsAtMost_ofInt_iff (by decide)]
    simp [operands, limit?]
    decide
  | numeralTooLong =>
    have hfront : Separates 50 "Exceeds the limit (".toList := by decide
    have hmiddle : Separates 50 " digits) for integer string".toList := by decide
    have hback : Separates 50
        " conversion; use sys.set_int_max_str_digits() to increase the limit".toList := by decide
    unfold message
    simp only [String.toList_append, hback.append_left_iff, hmiddle.append_left_iff,
      hfront.append_right_iff]
    rw [digitRunsAtMost_ofInt_iff (by decide)]
    simp [operands, limit?]
    decide

/-- There is no run of more than fifty digits in the message of an error, unless the error tells a
limit of more than fifty digits or an integer whose number of digits has itself more than fifty
digits. An integer of more than fifty digits is told by its sign and by about how many digits it
has. The limit alone can be too long for a message. Another error takes the place of this one then,
and there is no other way to that error. -/
theorem message_tells (err : ArithmeticError) :
    (DigitRunsAtMost 50 err.message.toList ↔
      (∀ n ∈ err.operands, approximateDigits n < Decimal.powerOfTen 50) ∧
        ∀ limit ∈ err.limit?, limit.natAbs < Decimal.powerOfTen 50) ∧
    (∀ n ∈ err.operands,
      (n.natAbs < Decimal.powerOfTen 50 → (Decimal.ofInt n).toList <:+: err.message.toList) ∧
      (Decimal.powerOfTen 50 ≤ n.natAbs → ∃ count : Nat,
        (signText n ++ "<~" ++ Decimal.ofInt count ++ "-digit integer>").toList <:+:
          err.message.toList ∧
        let digits := (Nat.toDigits 10 n.natAbs).length
        digits ≤ count ∧ count ≤ digits + 1 + digits / 50000)) ∧
    ∀ (limit : Int) (o : Operation), o.apply limit = .error .numeralTooLong ↔
      ∃ base exponent, o = .binary .exponent base exponent ∧
        0 ≤ exponent ∧ limit ≤ exponent ∧ Decimal.fitsMessage limit = false := by
  refine ⟨digitRunsAtMost_message_iff err, fun n hn => ⟨fun hlt => ?_, fun hle => ?_⟩,
    fun limit o => Operation.apply_eq_numeralTooLong_iff⟩
  · exact operandText_of_lt hlt ▸ operandText_infix_message hn
  · exact ⟨approximateDigits n, operandText_of_le hle ▸ operandText_infix_message hn,
      length_toDigits_approximate n⟩

/-- A base with 51 digits and a minus sign is told by the number of its digits. -/
theorem message_tells_huge_base :
    let base : Int := -Decimal.powerOfTen 50
    let err := negativeExponent base (-3)
    base ∈ err.operands ∧ Decimal.powerOfTen 50 ≤ base.natAbs ∧
      DigitRunsAtMost 50 err.message.toList ∧ ∃ count : Nat,
        ("-<~" ++ Decimal.ofInt count ++ "-digit integer>").toList <:+: err.message.toList ∧
          51 ≤ count ∧ count ≤ 52 := by
  intro base err
  have hbase : base ∈ err.operands := by decide +kernel
  have hle : Decimal.powerOfTen 50 ≤ base.natAbs := by decide +kernel
  obtain ⟨hruns, htold, -⟩ := message_tells err
  refine ⟨hbase, hle, hruns.mpr (by decide +kernel), ?_⟩
  obtain ⟨count, hcount, hdigits⟩ := (htold base hbase).2 hle
  have hlength : (Nat.toDigits 10 base.natAbs).length = 51 := by decide +kernel
  exact ⟨count, hcount, by omega, by omega⟩

/-- A limit with 51 digits is written out. -/
theorem message_shows_limit :
    let limit : Int := Decimal.powerOfTen 50
    let err := exponentTooLarge 2 limit limit
    power limit 2 limit = .error err ∧
      err.message = "exponent too large (2 ^ <~51-digit integer>), must be below " ++
        "100000000000000000000000000000000000000000000000000" ∧
      ¬ DigitRunsAtMost 50 err.message.toList := by
  intro limit err
  refine ⟨by decide +kernel, by decide +kernel, fun hruns => ?_⟩
  have hlimit := ((digitRunsAtMost_message_iff err).mp hruns).2 limit rfl
  exact absurd hlimit (by decide +kernel)

/-- An integer of more than fifty digits and at most ten million bits is told, in the message of
every error that it is an operand of, by its sign and by the number of its digits or by one more. -/
theorem message_counts_digits {n : Int} (hle : Decimal.powerOfTen 50 ≤ n.natAbs)
    (hlt : n.natAbs < 2 ^ 10000000) :
    let digits := (Nat.toDigits 10 n.natAbs).length
    (10 ^ (digits - 1) ≤ n.natAbs ∧ n.natAbs < 10 ^ digits) ∧
      ∃ count : Nat, (count = digits ∨ count = digits + 1) ∧
        operandText n =
          (if n < 0 then "-<~" else "<~") ++ Decimal.ofInt count ++ "-digit integer>" ∧
        ∀ err : ArithmeticError, n ∈ err.operands →
          (operandText n).toList <:+: err.message.toList := by
  intro digits
  have hne : n.natAbs ≠ 0 := ((Decimal.powerOfTen_pos 50).trans_le hle).ne'
  have hcount : approximateDigits n = digits ∨ approximateDigits n = digits + 1 := by
    have hmin := length_toDigits_le_approximateDigits n
    have hmax := approximateDigits_le_succ le_rfl hlt
    omega
  have hsign : signText n ++ "<~" = if n < 0 then "-<~" else "<~" := by
    unfold signText
    split <;> rfl
  refine ⟨⟨pow_length_toDigits_sub_one_le hne, lt_pow_length_toDigits n.natAbs⟩,
    approximateDigits n, hcount, ?_, fun err => operandText_infix_message⟩
  rw [operandText_of_le hle, hsign]

/-- The least integer of 51 digits is told with the number of its digits, and the greatest one with
one more. -/
theorem message_counts_digits_of_51 :
    let least : Int := Decimal.powerOfTen 50
    let greatest : Int := Decimal.powerOfTen 51 - 1
    (Decimal.powerOfTen 50 ≤ least.natAbs ∧ least.natAbs < 2 ^ 10000000) ∧
      (Decimal.powerOfTen 50 ≤ (-greatest).natAbs ∧ (-greatest).natAbs < 2 ^ 10000000) ∧
      ((Nat.toDigits 10 least.natAbs).length = 51 ∧ operandText least = "<~51-digit integer>" ∧
        "<~51-digit integer>".toList <:+: (divisionByZero least).message.toList) ∧
      (Nat.toDigits 10 (-greatest).natAbs).length = 51 ∧
        operandText (-greatest) = "-<~52-digit integer>" ∧
        "-<~52-digit integer>".toList <:+: (negativeFactorial (-greatest)).message.toList := by
  intro least greatest
  have hle : Decimal.powerOfTen 50 ≤ least.natAbs := by decide +kernel
  have hle' : Decimal.powerOfTen 50 ≤ (-greatest).natAbs := by decide +kernel
  have hlt : least.natAbs < 2 ^ 10000000 := by decide +kernel
  have hlt' : (-greatest).natAbs < 2 ^ 10000000 := by decide +kernel
  have hlength : (Nat.toDigits 10 least.natAbs).length = 51 := by decide +kernel
  have hlength' : (Nat.toDigits 10 (-greatest).natAbs).length = 51 := by decide +kernel
  obtain ⟨-, count, hcount, htext, htold⟩ := message_counts_digits hle hlt
  obtain ⟨-, count', hcount', htext', htold'⟩ := message_counts_digits hle' hlt'
  rw [hlength] at hcount
  rw [hlength'] at hcount'
  -- evaluating the text tells the two counts apart
  obtain rfl : count = 51 := by
    refine hcount.resolve_right ?_
    rintro rfl
    exact absurd htext (by decide +kernel)
  obtain rfl : count' = 52 := by
    refine hcount'.resolve_left ?_
    rintro rfl
    exact absurd htext' (by decide +kernel)
  have hshown : operandText least = "<~51-digit integer>" := htext.trans (by decide +kernel)
  have hshown' : operandText (-greatest) = "-<~52-digit integer>" :=
    htext'.trans (by decide +kernel)
  have hmessage := htold (divisionByZero least) (List.mem_singleton_self _)
  have hmessage' := htold' (negativeFactorial (-greatest)) (List.mem_singleton_self _)
  rw [hshown] at hmessage
  rw [hshown'] at hmessage'
  exact ⟨⟨hle, hlt⟩, ⟨hle', hlt'⟩, ⟨hlength, hshown, hmessage⟩, hlength', hshown', hmessage'⟩

end ArithmeticError

end Calculator
