/-!
# Decimal numerals

Integers of any size are written in decimal with an optional minus sign, and runs of ASCII digits
are read back by position. Converting a long numeral at once may be refused, so numerals are written
and read in groups of digits: written from the right, with every group but the first filled up with
zeros, and read from the left, where the last group may be shorter.
-/

namespace Calculator.Text

/-- Whether a character is an ASCII digit. -/
def isDigit (c : Char) : Bool := '0' ≤ c && c ≤ '9'

namespace Decimal

/-- The least number with more than `width` digits. -/
def powerOfTen (width : Nat) : Nat := Nat.pow 10 width

theorem powerOfTen_succ (width : Nat) : powerOfTen (width + 1) = powerOfTen width * 10 := rfl

theorem powerOfTen_pos (width : Nat) : 0 < powerOfTen width := Nat.pow_pos (by decide)

theorem one_lt_powerOfTen {width : Nat} (h : 0 < width) : 1 < powerOfTen width :=
  Nat.one_lt_pow (Nat.ne_of_gt h) (by decide)

/-- The number of digits in a group. -/
def groupWidth : Nat := 4000

/-! ### Writing -/

/-- The digits of a number, filled up with leading zeros to `width` digits. -/
def padded (width n : Nat) : List Char := (Nat.toDigits 10 n).leftpad width '0'

/-- The digits of a number before those in `done`, written in groups. -/
def grouped (n : Nat) (done : List Char) : List Char :=
  if n < powerOfTen groupWidth then Nat.toDigits 10 n ++ done
  else
    grouped (n / powerOfTen groupWidth) (padded groupWidth (n % powerOfTen groupWidth) ++ done)
termination_by n
decreasing_by
  have hone : 1 < powerOfTen groupWidth := one_lt_powerOfTen (by decide)
  exact Nat.div_lt_self (by omega) hone

/-- The digits of a number, without leading zeros. -/
def digits (n : Nat) : List Char :=
  if n < powerOfTen groupWidth then Nat.toDigits 10 n else grouped n []

/-- The numeral of an integer: digits without leading zeros, after a minus sign if negative. -/
def ofInt (n : Int) : String :=
  String.ofList (if n < 0 then '-' :: digits n.natAbs else digits n.natAbs)

/-- The greatest number of digits that a numeral in a message may have. -/
def messageWidth : Nat := 4300

/-- Whether the numeral of an integer is short enough for a message. -/
def fitsMessage (n : Int) : Bool := n.natAbs < powerOfTen messageWidth

/-- The last digit of a filled-up number stands behind the others, which are filled up too. -/
private theorem padded_succ {width : Nat} (hwidth : 0 < width) (n : Nat) :
    padded (width + 1) n = padded width (n / 10) ++ [Nat.digitChar (n % 10)] := by
  by_cases hn : n < 10
  · have hdiv : n / 10 = 0 := Nat.div_eq_of_lt hn
    have hzeros : List.replicate (width - 1) '0' ++ ['0'] = List.replicate width '0' := by
      rw [← List.replicate_succ', Nat.sub_add_cancel hwidth]
    rw [padded, padded, hdiv, Nat.mod_eq_of_lt hn, Nat.toDigits_of_lt_base hn, Nat.toDigits_zero,
      List.leftpad, List.leftpad, List.length_singleton, List.length_singleton, hzeros,
      Nat.add_sub_cancel]
  · have hdigits : Nat.toDigits 10 n = Nat.toDigits 10 (n / 10) ++ [Nat.digitChar (n % 10)] := by
      have hmod : n % 10 < 10 := Nat.mod_lt _ (by decide)
      rw [← Nat.toDigits_of_lt_base hmod,
        Nat.toDigits_append_toDigits (by decide) (by omega) hmod, Nat.div_add_mod]
    rw [padded, padded, hdigits, List.leftpad, List.leftpad, List.length_append,
      List.length_singleton, Nat.add_sub_add_right, List.append_assoc]

private theorem toDigits_append_padded {width : Nat} (hwidth : 0 < width) {q : Nat} (hq : 0 < q)
    {r : Nat} (hr : r < powerOfTen width) :
    Nat.toDigits 10 q ++ padded width r = Nat.toDigits 10 (powerOfTen width * q + r) := by
  induction width generalizing r with
  | zero => exact absurd hwidth (Nat.lt_irrefl 0)
  | succ width ih =>
    rw [powerOfTen_succ] at hr
    have hmod : r % 10 < 10 := Nat.mod_lt _ (by decide)
    have hsplit : powerOfTen width * 10 * q + r =
        10 * (powerOfTen width * q + r / 10) + r % 10 := by
      rw [Nat.mul_comm (powerOfTen width) 10, Nat.mul_assoc, Nat.mul_add]
      omega
    have hpos : 0 < powerOfTen width * q := Nat.mul_pos (powerOfTen_pos width) hq
    rw [powerOfTen_succ, hsplit, ← Nat.toDigits_append_toDigits (by decide) (by omega) hmod,
      Nat.toDigits_of_lt_base hmod]
    cases width with
    | zero =>
      have hone : powerOfTen 0 = 1 := rfl
      have hr₁ : r < 10 := by rwa [hone, Nat.one_mul] at hr
      rw [padded, Nat.toDigits_of_lt_base hr₁, Nat.div_eq_of_lt hr₁, Nat.mod_eq_of_lt hr₁, hone,
        Nat.one_mul, Nat.add_zero]
      rfl
    | succ width =>
      rw [padded_succ (Nat.succ_pos width), ← List.append_assoc,
        ih (Nat.succ_pos width) (by omega)]

private theorem grouped_eq (n : Nat) (done : List Char) :
    grouped n done = Nat.toDigits 10 n ++ done := by
  fun_induction grouped n done with
  | case1 => rfl
  | case2 n done h ih =>
    have hpos : 0 < powerOfTen groupWidth := powerOfTen_pos groupWidth
    rw [ih, ← List.append_assoc,
      toDigits_append_padded (by decide) (Nat.div_pos (by omega) hpos) (Nat.mod_lt _ hpos),
      Nat.div_add_mod]

/-- Writing in groups makes no difference. -/
theorem digits_eq_toDigits (n : Nat) : digits n = Nat.toDigits 10 n := by
  unfold digits
  split
  · rfl
  · rw [grouped_eq, List.append_nil]

theorem toList_ofInt_natCast (n : Nat) : (ofInt n).toList = Nat.toDigits 10 n := by
  have h : ¬ ((n : Int) < 0) := by omega
  simp only [ofInt, h, if_false, String.toList_ofList, digits_eq_toDigits, Int.natAbs_natCast]

theorem toList_ofInt_of_neg {n : Int} (h : n < 0) :
    (ofInt n).toList = '-' :: Nat.toDigits 10 n.natAbs := by
  simp only [ofInt, h, if_true, String.toList_ofList, digits_eq_toDigits]

/-! ### Reading -/

/-- The positional value of a run of digits; the empty run is zero. -/
def value (digits : List Char) : Nat := Nat.ofDigitChars 10 digits 0

/-- The value of the first `count` groups of a run of digits. -/
def valueOfGroups (digits : List Char) : (count : Nat) → Nat
  | 0 => 0
  | count + 1 =>
    let group := (digits.drop (count * groupWidth)).take groupWidth
    valueOfGroups digits count * powerOfTen group.length + value group

/-- The value of a run of digits, read in groups. -/
def valueInGroups (digits : List Char) : Nat :=
  valueOfGroups digits ((digits.length + groupWidth - 1) / groupWidth)

theorem value_append (ds es : List Char) :
    value (ds ++ es) = value ds * powerOfTen es.length + value es := by
  rw [value, Nat.ofDigitChars_append, Nat.ofDigitChars_eq_ofDigitChars_zero, Nat.mul_comm]
  rfl

private theorem valueOfGroups_eq (digits : List Char) (count : Nat) :
    valueOfGroups digits count = value (digits.take (count * groupWidth)) := by
  induction count with
  | zero => rw [valueOfGroups, Nat.zero_mul, List.take_zero]; rfl
  | succ count ih => rw [valueOfGroups, ih, Nat.succ_mul, List.take_add, value_append]

/-- Reading in groups makes no difference. -/
theorem valueInGroups_eq_value (digits : List Char) : valueInGroups digits = value digits := by
  have hall : digits.length ≤ (digits.length + groupWidth - 1) / groupWidth * groupWidth := by
    unfold groupWidth
    omega
  rw [valueInGroups, valueOfGroups_eq, List.take_of_length_le hall]

end Decimal

end Calculator.Text
