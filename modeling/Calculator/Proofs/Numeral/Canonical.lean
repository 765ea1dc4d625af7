import Calculator.Proofs.Evaluation.Nesting
import Calculator.Proofs.Grammar.Completeness
import Calculator.Proofs.Numeral
import Mathlib.Data.List.Induction
import Mathlib.Data.Nat.Digits.Defs
import Mathlib.Tactic.IntervalCases

/-!
# Canonical numerals

A number has many numerals, which differ by the zeros in front, and one of them is canonical. That
one is written, whatever the number of digits, and every numeral is read as its positional value. So
reading and writing turn a run of digits into the canonical one, and writing and reading an integer
gives it back, as a number or as an expression.
-/

namespace Calculator

open Text

namespace Text.Decimal

variable {d : Char} {ds : List Char} {n : Nat} {v : Int} {text : String}

/-- The number that a digit stands for. -/
def digitValue (d : Char) : Nat := d.toNat - '0'.toNat

/-- The decimal value of a run of digits: the last one counts ones, the one before it tens, and so
on. -/
def positional (ds : List Char) : Nat := Nat.ofDigits 10 (ds.reverse.map digitValue)

/-- A run of digits without its leading zeros, or a single zero if there are no others. -/
def withoutLeadingZeros (ds : List Char) : List Char :=
  let rest := ds.dropWhile (· = '0')
  if rest = [] then ['0'] else rest

/-- The digits have the value `n`, and no zero stands in front of other digits. -/
structure IsNumeral (n : Nat) (ds : List Char) : Prop where
  ne_nil : ds ≠ []
  isDigit : ∀ d ∈ ds, isDigit d = true
  positional_eq : positional ds = n
  leading : ∀ rest, ds = '0' :: rest → rest = []

/-- The canonical text of an integer: the digits of its absolute value, behind a minus sign if it is
negative. -/
def Canonical (v : Int) (text : String) : Prop :=
  ∃ ds, IsNumeral v.natAbs ds ∧ text.toList = if v < 0 then '-' :: ds else ds

/-! ### Values by position -/

lemma positional_append_singleton (ds : List Char) (d : Char) :
    positional (ds ++ [d]) = 10 * positional ds + digitValue d := by
  rw [positional, List.reverse_append, List.reverse_singleton, List.singleton_append, List.map_cons,
    Nat.ofDigits_cons, Nat.add_comm]
  rfl

theorem value_eq_positional (ds : List Char) : value ds = positional ds := by
  induction ds using List.reverseRecOn with
  | nil => rfl
  | append_singleton ds d ih =>
    have hone : powerOfTen [d].length = 10 := rfl
    have hdigit : value [d] = digitValue d := Nat.zero_add _
    rw [value_append, positional_append_singleton, ih, hone, hdigit, Nat.mul_comm]

lemma positional_zero_cons (ds : List Char) : positional ('0' :: ds) = positional ds := by
  rw [← value_eq_positional, ← value_eq_positional]
  rfl

lemma positional_dropWhile_zero (ds : List Char) :
    positional (ds.dropWhile (· = '0')) = positional ds := by
  induction ds with
  | nil => rfl
  | cons d ds ih =>
    by_cases hd : d = '0'
    · rw [List.dropWhile_cons_of_pos (by simpa using hd), ih, hd, positional_zero_cons]
    · rw [List.dropWhile_cons_of_neg (by simpa using hd)]

lemma positional_toDigits (n : Nat) : positional (Nat.toDigits 10 n) = n := by
  rw [← value_eq_positional]
  exact Nat.ofDigitChars_ten_toDigits

/-! ### Digits -/

lemma digitValue_lt (hd : isDigit d = true) : digitValue d < 10 := by
  have hbounds := isDigit_iff.mp hd
  have hzero : '0'.toNat = 48 := rfl
  unfold digitValue
  omega

lemma digitChar_digitValue (hd : isDigit d = true) : Nat.digitChar (digitValue d) = d := by
  have hbounds := isDigit_iff.mp hd
  have hzero : '0'.toNat = 48 := rfl
  obtain ⟨k, hk, hcode⟩ : ∃ k, k < 10 ∧ d.toNat = 48 + k := ⟨d.toNat - 48, by omega, by omega⟩
  have hvalue : digitValue d = k := by
    unfold digitValue
    omega
  rw [hvalue, ← Char.ofNat_toNat d, hcode]
  interval_cases k <;> rfl

lemma toDigits_digitValue (hd : isDigit d = true) : Nat.toDigits 10 (digitValue d) = [d] := by
  rw [Nat.toDigits_of_lt_base (digitValue_lt hd), digitChar_digitValue hd]

/-! ### The canonical numeral -/

lemma eq_nil_of_toDigits_eq_zero_cons {rest : List Char} (h : Nat.toDigits 10 n = '0' :: rest) :
    rest = [] := by
  induction n using Nat.strong_induction_on generalizing rest with
  | _ n ih =>
    by_cases hn : n < 10
    · rw [Nat.toDigits_of_lt_base hn] at h
      exact (List.cons_eq_cons.mp h).2.symm
    · have hmod : n % 10 < 10 := Nat.mod_lt _ (by decide)
      have hsplit : Nat.toDigits 10 n = Nat.toDigits 10 (n / 10) ++ Nat.toDigits 10 (n % 10) := by
        rw [Nat.toDigits_append_toDigits (by decide) (by omega) hmod, Nat.div_add_mod]
      obtain ⟨c, w, hcw⟩ := List.exists_cons_of_ne_nil
        (Nat.toDigits_ne_nil : Nat.toDigits 10 (n / 10) ≠ [])
      rw [hsplit, hcw, List.cons_append] at h
      obtain ⟨rfl, -⟩ := List.cons_eq_cons.mp h
      -- then the digits in front of the last one are a single zero, but their number is not zero
      obtain rfl := ih (n / 10) (by omega) hcw
      have hzero : n / 10 = 0 := by rw [← positional_toDigits (n / 10), hcw]; rfl
      omega

lemma isNumeral_toDigits (n : Nat) : IsNumeral n (Nat.toDigits 10 n) where
  ne_nil := Nat.toDigits_ne_nil
  isDigit _ := isDigit_of_mem_toDigits
  positional_eq := positional_toDigits n
  leading _ := eq_nil_of_toDigits_eq_zero_cons

/-- A number has no other numeral without zeros in front. -/
theorem IsNumeral.eq_toDigits (h : IsNumeral n ds) : ds = Nat.toDigits 10 n := by
  induction ds using List.reverseRecOn generalizing n with
  | nil => exact absurd rfl h.ne_nil
  | append_singleton es d ih =>
    obtain ⟨-, hdigits, rfl, hleading⟩ := h
    obtain ⟨hes, hd⟩ := List.forall_mem_append.mp hdigits
    have hd : Text.isDigit d = true := hd d (List.mem_singleton_self d)
    rw [positional_append_singleton]
    by_cases hnil : es = []
    · have hvalue : 10 * positional [] + digitValue d = digitValue d := Nat.zero_add _
      rw [hnil, hvalue, toDigits_digitValue hd]
      rfl
    · have hnumeral : IsNumeral (positional es) es := by
        refine ⟨hnil, hes, rfl, fun rest hrest => ?_⟩
        have hempty : rest ++ [d] = [] := hleading (rest ++ [d]) (by rw [hrest]; rfl)
        exact absurd hempty (by simp)
      have heq := ih hnumeral
      have hpos : 0 < positional es := by
        by_contra hzero
        have hes₀ : es = ['0'] := by
          rw [heq, Nat.eq_zero_of_not_pos hzero]
          rfl
        exact absurd (hleading [d] (by rw [hes₀]; rfl)) (by simp)
      rw [← Nat.toDigits_append_toDigits (by decide) hpos (digitValue_lt hd),
        toDigits_digitValue hd, ← heq]

lemma isNumeral_withoutLeadingZeros (hdigits : ∀ d ∈ ds, isDigit d = true) :
    IsNumeral (positional ds) (withoutLeadingZeros ds) := by
  rw [← positional_dropWhile_zero, withoutLeadingZeros]
  split
  · next hnil =>
    rw [hnil]
    exact isNumeral_toDigits 0
  · next hrest =>
    refine ⟨hrest, fun d hd => hdigits d (List.dropWhile_suffix _ |>.subset hd), rfl, ?_⟩
    intro rest heq
    have hhead := List.head_dropWhile_not (fun c => decide (c = '0')) hrest
    simp [heq] at hhead

theorem canonical_iff : Canonical v text ↔ text = ofInt v := by
  have htoList : (ofInt v).toList =
      if v < 0 then '-' :: Nat.toDigits 10 v.natAbs else Nat.toDigits 10 v.natAbs := by
    rw [ofInt, String.toList_ofList, digits_eq_toDigits]
  constructor
  · rintro ⟨ds, hds, htext⟩
    rw [← String.toList_inj, htext, htoList, hds.eq_toDigits]
  · rintro rfl
    exact ⟨_, isNumeral_toDigits v.natAbs, htoList⟩

end Text.Decimal

/-! ### Integers as expressions -/

namespace Expr

variable {e : Expr} {ts : List Token} {count : Nat} {allowance : Allowance}

lemma need_numeral (v : Int) : (numeral v).need ≤ 2 := by
  unfold numeral
  split <;> simp [need]

lemma height_numeral (v : Int) : (numeral v).height ≤ 2 := by
  unfold numeral
  split <;> simp [height]

/-- The tree that the tokens spell is returned where all the calls that it needs are allowed. -/
lemma ofTokens_of_atMost (hw : e.WellLevelled) (hlexemes : ts.map Token.lexeme = e.lexemes)
    (hneed : e.need ≤ count) (h : (Allowance.levels count).AtMost allowance) :
    ofTokens allowance ts = .ok e := by
  cases allowance with
  | levels m => exact ofTokens_of_need_le hw hlexemes (Nat.le_trans hneed h)
  | unlimited =>
    exact ofTokens_unlimited_eq_ok_iff.mpr
      (readWithin_unlimited_eq_ok_iff.mpr (.of_lexemes hw hlexemes))

/-- A tree is evaluated to the end where at least its height is allowed. -/
lemma run_of_atMost (limit : Int) (hheight : e.height ≤ count)
    (h : (Allowance.levels count).AtMost allowance) (env : Environment) :
    e.run limit allowance env = e.run limit .unlimited env := by
  cases allowance with
  | levels m => exact run_of_height_le limit (Nat.le_trans hheight h) env
  | unlimited => rfl

/-- A numeral is read and evaluated as its integer and changes nothing. -/
theorem evaluate_numeral (v limit : Int) (env : Environment)
    (h : (Allowance.levels 2).AtMost allowance) :
    ∃ ts, Token.ofText (Decimal.ofInt v) = .ok ts ∧ ofTokens allowance ts = .ok (numeral v) ∧
      (numeral v).evaluate limit allowance env = (.ok v, env) := by
  have hsays := Token.Says.nil.numeral nofun v
  rw [List.append_nil, List.append_nil] at hsays
  obtain ⟨ts, hts, hlexemes⟩ := hsays.exists_ofText
  refine ⟨ts, hts, ofTokens_of_atMost (wellLevelled_numeral v) hlexemes (need_numeral v) h, ?_⟩
  rw [evaluate, run_of_atMost limit (height_numeral v) h, run_numeral]
  rfl

end Expr

namespace Text.Decimal

/-- Since it can be read back, the text of an integer belongs to no other one. -/
theorem ofInt_injective : Function.Injective ofInt := by
  intro v w h
  obtain ⟨ts, hts, he, hv⟩ := Expr.evaluate_numeral v 0 .empty (Allowance.atMost_unlimited _)
  obtain ⟨ts', hts', he', hw⟩ := Expr.evaluate_numeral w 0 .empty (Allowance.atMost_unlimited _)
  rw [h, hts', Except.ok.injEq] at hts
  rw [← hts, he', Except.ok.injEq] at he
  rw [he, hv] at hw
  cases hw
  rfl

/-- Integers of any size survive being written and read. What is written is the canonical text of
the integer and no other text is, and it is read and evaluated as the integer. A run of digits is
read as its value by position, and written again it has lost its leading zeros. -/
theorem integers_survive_text :
    (∀ v : Int, (∀ text, Canonical v text ↔ text = ofInt v) ∧ ofInt v ≠ "-0" ∧
      ∀ limit allowance env, (Allowance.levels 2).AtMost allowance →
        ∃ ts e, Token.ofText (ofInt v) = .ok ts ∧ Expr.ofTokens allowance ts = .ok e ∧
          e.evaluate limit allowance env = (.ok v, env)) ∧
    ∀ ds : List Char, (∀ d ∈ ds, isDigit d = true) →
      valueInGroups ds = positional ds ∧
        (ofInt (valueInGroups ds)).toList = withoutLeadingZeros ds := by
  refine ⟨fun v => ⟨fun text => canonical_iff, fun hzero => ?_, ?_⟩, fun ds hdigits => ?_⟩
  · obtain ⟨ds, hds, htext⟩ := canonical_iff.mpr hzero.symm
    have hneg : v < 0 := by
      by_contra hv
      rw [if_neg hv] at htext
      exact absurd (hds.isDigit '-' (htext ▸ List.mem_cons_self)) (by decide)
    rw [if_pos hneg] at htext
    obtain rfl : ['0'] = ds := (List.cons_eq_cons.mp htext).2
    have hvalue : 0 = v.natAbs := hds.positional_eq
    omega
  · intro limit allowance env h
    obtain ⟨ts, hts, he, hvalue⟩ := Expr.evaluate_numeral v limit env h
    exact ⟨ts, _, hts, he, hvalue⟩
  · have hvalue : valueInGroups ds = positional ds := by
      rw [valueInGroups_eq_value, value_eq_positional]
    refine ⟨hvalue, ?_⟩
    rw [hvalue, toList_ofInt_natCast]
    exact (isNumeral_withoutLeadingZeros hdigits).eq_toDigits.symm

/-- The first group of the digits is all zeros, and so is the start of the second one. -/
theorem integers_survive_text_zeros :
    let ds := List.replicate 4001 '0' ++ ['7']
    ((∀ d ∈ ds, isDigit d = true) ∧ (ofInt (valueInGroups ds)).toList = ['7']) ∧
      (Allowance.levels 2).AtMost .standard ∧
      ∃ ts e, Token.ofText (ofInt (-7)) = .ok ts ∧ Expr.ofTokens .standard ts = .ok e ∧
        e.evaluate 100 .standard .empty = (.ok (-7), .empty) := by
  intro ds
  have hzero : ∀ d ∈ List.replicate 4001 '0', d = '0' := fun d hd => List.eq_of_mem_replicate hd
  have hdigits : ∀ d ∈ ds, isDigit d = true := by
    intro d hd
    rcases List.mem_append.mp hd with hd | hd
    · rw [hzero d hd]
      decide
    · rw [List.mem_singleton.mp hd]
      decide
  have hallowed : (Allowance.levels 2).AtMost .standard := by
    show 2 ≤ 1000
    decide
  have hdrop : ds.dropWhile (· = '0') = ['7'] :=
    List.dropWhile_append_of_pos fun d hd => decide_eq_true (hzero d hd)
  have hzeros : withoutLeadingZeros ds = ['7'] := by
    rw [withoutLeadingZeros, hdrop]
    rfl
  obtain ⟨hintegers, hruns⟩ := integers_survive_text
  refine ⟨⟨hdigits, ?_⟩, hallowed, (hintegers (-7)).2.2 100 .standard .empty hallowed⟩
  rw [(hruns ds hdigits).2, hzeros]

end Text.Decimal

end Calculator
