import Calculator.Proofs.Grammar.Soundness

/-!
# Nesting and the answer of the parser

A limit on nesting can make reading give up, but it cannot change any other answer. Without a limit
reading never gives up, since no more calls can be active than there are tokens, and one.
-/

namespace Calculator

namespace Expr

/-! ### Agreement -/

section Agreement

variable {α β : Type}

/-- `x'` is what `x` becomes with more nesting allowed: the same, unless `x` gives up. -/
def UpToNesting (x x' : Except Stop α) : Prop := (∃ rest, x = .error ⟨.tooDeep, rest⟩) ∨ x = x'

lemma UpToNesting.rfl {x : Except Stop α} : UpToNesting x x := .inr (Eq.refl x)

lemma UpToNesting.bind {x x' : Except Stop α} {f f' : α → Except Stop β}
    (hx : UpToNesting x x') (hf : ∀ a, UpToNesting (f a) (f' a)) :
    UpToNesting (x >>= f) (x' >>= f') := by
  rcases hx with ⟨rest, rfl⟩ | rfl
  · exact .inl ⟨rest, Eq.refl _⟩
  · cases x with
    | error stop => exact .rfl
    | ok a => exact hf a

lemma UpToNesting.map {x x' : Except Stop α} (h : UpToNesting x x') (f : α → β) :
    UpToNesting (x.map f) (x'.map f) := by
  rcases h with ⟨rest, rfl⟩ | rfl
  · exact .inl ⟨rest, Eq.refl _⟩
  · exact .rfl

/-- The answer is not that the expression is nested too deeply. -/
def Completes (x : Except Stop α) : Prop := ∀ rest, x ≠ .error ⟨.tooDeep, rest⟩

lemma Completes.ok (a : α) : Completes (.ok a) := by
  intro rest h
  cases h

lemma Completes.error {stop : Stop} (h : stop.cause ≠ .tooDeep) :
    Completes (.error stop : Except Stop α) := by
  intro rest heq
  cases heq
  exact h (Eq.refl _)

lemma Completes.bind {x : Except Stop α} {f : α → Except Stop β} (hx : Completes x)
    (hf : ∀ a, x = .ok a → Completes (f a)) : Completes (x >>= f) := by
  cases x with
  | error stop => intro rest h; cases h; exact hx rest (Eq.refl _)
  | ok a => exact hf a (Eq.refl _)

lemma UpToNesting.eq {x x' : Except Stop α} (h : UpToNesting x x') (hx : Completes x) : x = x' := by
  rcases h with ⟨rest, hrest⟩ | h
  · exact absurd hrest (hx rest)
  · exact h

end Agreement

/-! ### Deeper reading -/

section Deeper

variable {read read' : Reader} (hread : ∀ least ts, UpToNesting (read least ts) (read' least ts))

include hread

lemma readGroup_upToNesting (ts : List Token) :
    UpToNesting (readGroup read ts) (readGroup read' ts) :=
  (hread 0 ts).bind fun _ => .rfl

lemma readConditional_upToNesting (ts : List Token) :
    UpToNesting (readConditional read ts) (readConditional read' ts) := by
  refine (hread 0 ts).bind fun c => .bind .rfl fun ts₁ => ?_
  refine (hread 0 ts₁).bind fun y => .bind .rfl fun ts₂ => ?_
  exact (hread 0 ts₂).bind fun n => .rfl

lemma readAtom_upToNesting (ts : List Token) :
    UpToNesting (readAtom read ts) (readAtom read' ts) := by
  cases ts with
  | nil => exact .rfl
  | cons t ts =>
    simp only [readAtom]
    split
    · exact .rfl
    · exact .rfl
    · exact readGroup_upToNesting hread ts
    · exact readConditional_upToNesting hread ts
    · exact .rfl

lemma readOperand_upToNesting (least : Power) (ts : List Token) :
    UpToNesting (readOperand read least ts) (readOperand read' least ts) := by
  cases ts with
  | nil => exact readAtom_upToNesting hread []
  | cons t ts =>
    simp only [readOperand]
    split
    · split
      · next op _ _ => exact (hread op.power ts).bind fun _ => .rfl
      · exact readAtom_upToNesting hread (t :: ts)
    · exact readAtom_upToNesting hread (t :: ts)

lemma readOperations_upToNesting (least : Power) (bound : List Token) (left : Expr)
    (ts : List Token) :
    UpToNesting (readOperations read least bound left ts)
      (readOperations read' least bound left ts) := by
  induction bound generalizing left ts with
  | nil => cases ts <;> exact .rfl
  | cons b bound ih =>
    cases ts with
    | nil => exact .rfl
    | cons t ts =>
      simp only [readOperations]
      split
      · split
        · next op _ _ => exact (hread op.binding.right ts).bind fun right => ih _ _
        · exact .rfl
      · exact .rfl

end Deeper

/-- Allowing more nesting changes no answer other than that there is too much. -/
theorem read_upToNesting {depth depth' : Nat} (h : depth ≤ depth') (least : Power)
    (ts : List Token) : UpToNesting (Expr.read depth least ts) (Expr.read depth' least ts) := by
  induction depth generalizing depth' least ts with
  | zero => exact .inl ⟨ts, rfl⟩
  | succ depth ih =>
    obtain ⟨depth', rfl⟩ : ∃ d, depth' = d + 1 := ⟨depth' - 1, by omega⟩
    have hread := fun least ts => ih (Nat.le_of_succ_le_succ h) least ts
    refine (readOperand_upToNesting hread least ts).bind fun left => ?_
    exact readOperations_upToNesting hread least _ _ _

/-! ### Reading without a limit -/

lemma readKeyword_completes (word : Keyword) (ts : List Token) :
    Completes (readKeyword word ts) := by
  cases ts with
  | nil => exact .error (by simp)
  | cons t ts =>
    simp only [readKeyword]
    split
    · exact .ok _
    · exact .error (by simp)

lemma readClosing_completes (ts : List Token) : Completes (readClosing ts) := by
  cases ts with
  | nil => exact .error (by simp)
  | cons t ts =>
    simp only [readClosing]
    split
    · exact .ok _
    · exact .error (by simp)

section Unlimited

/-- A reader that gives up on no list of fewer than `size` tokens. -/
def CompletesBelow (read : Reader) (size : Nat) : Prop :=
  ∀ ⦃least ts⦄, ts.length < size → Completes (read least ts)

variable {read : Reader} {size : Nat} (hread : CompletesBelow read size)

include hread

lemma readGroup_completes {ts : List Token} (h : ts.length < size) :
    Completes (readGroup read ts) := by
  refine (hread h).bind fun (e, ts₁) _ => ?_
  exact (readClosing_completes ts₁).bind fun ts₂ _ => .ok _

variable (hsound : SoundReader read)

include hsound

lemma readConditional_completes {ts : List Token} (h : ts.length < size) :
    Completes (readConditional read ts) := by
  refine (hread h).bind fun (c, ts₁) hc => ?_
  refine (readKeyword_completes _ ts₁).bind fun ts₂ hthen => ?_
  have h₁ := (hsound hc).spelled.length_eq
  obtain ⟨t, rfl, -⟩ := readKeyword_eq_ok_iff.mp hthen
  simp only [List.length_cons] at h₁
  refine (hread (by omega)).bind fun (y, ts₃) hy => ?_
  refine (readKeyword_completes _ ts₃).bind fun ts₄ helse => ?_
  have h₃ := (hsound hy).spelled.length_eq
  obtain ⟨u, rfl, -⟩ := readKeyword_eq_ok_iff.mp helse
  simp only [List.length_cons] at h₃
  refine (hread (by omega)).bind fun (n, ts₅) _ => ?_
  exact (readKeyword_completes _ ts₅).bind fun ts₆ _ => .ok _

lemma readAtom_completes {ts : List Token} (h : ts.length < size + 1) :
    Completes (readAtom read ts) := by
  cases ts with
  | nil => exact .error (by simp)
  | cons t ts =>
    have h : ts.length < size := Nat.lt_of_succ_lt_succ h
    simp only [readAtom]
    split
    · exact .ok _
    · exact .ok _
    · exact readGroup_completes hread h
    · exact readConditional_completes hread hsound h
    · exact .error (by simp)

lemma readOperand_completes {least : Power} {ts : List Token} (h : ts.length < size + 1) :
    Completes (readOperand read least ts) := by
  cases ts with
  | nil => exact readAtom_completes hread hsound h
  | cons t ts =>
    simp only [readOperand]
    split
    · split
      · exact (hread (Nat.lt_of_succ_lt_succ h)).bind fun _ _ => .ok _
      · exact readAtom_completes hread hsound h
    · exact readAtom_completes hread hsound h

lemma readOperations_completes {least : Power} {bound ts : List Token}
    (h : ts.length < size + 1) (left : Expr) :
    Completes (readOperations read least bound left ts) := by
  induction bound generalizing left ts with
  | nil => cases ts <;> exact .ok _
  | cons b bound ih =>
    cases ts with
    | nil => exact .ok _
    | cons t ts =>
      simp only [List.length_cons] at h
      simp only [readOperations]
      split
      · split
        · refine (hread (by omega)).bind fun pair hright => ?_
          obtain ⟨right, ts₁⟩ := pair
          have hlength := (hsound hright).spelled.length_eq
          have h₁ : ts₁.length < size + 1 := by omega
          exact ih h₁ _
        · exact .ok _
      · exact .ok _

end Unlimited

/-- Reading does not give up if it may be nested more deeply than there are tokens. -/
theorem read_completes (depth : Nat) : CompletesBelow (Expr.read depth) depth := by
  induction depth with
  | zero => intro least ts h; exact absurd h (Nat.not_lt_zero _)
  | succ depth ih =>
    intro least ts h
    have hsound := read_sound depth
    refine (readOperand_completes ih hsound h).bind fun (left, ts₁) hleft => ?_
    obtain ⟨hpartial, -⟩ := readSuffixes_sound (readOperand_sound hsound hleft) rfl
    have hlength := hpartial.spelled.length_eq
    exact readOperations_completes ih hsound (by omega) _

lemma readWithin_unlimited_completes (least : Power) (ts : List Token) :
    Completes (readWithin .unlimited least ts) := read_completes _ (Nat.lt_succ_self _)

/-- A limited reading that does not give up is the unlimited one. -/
lemma readWithin_eq_unlimited {allowance : Allowance} {least : Power} {ts : List Token}
    (h : Completes (readWithin allowance least ts)) :
    readWithin allowance least ts = readWithin .unlimited least ts := by
  cases allowance with
  | unlimited => rfl
  | levels count =>
    rcases Nat.le_total count (ts.length + 1) with hle | hle
    · exact (read_upToNesting hle least ts).eq h
    · exact ((read_upToNesting hle least ts).eq (readWithin_unlimited_completes least ts)).symm

/-! ### Whole lists of tokens -/

lemma completes_readWithin_of_ofTokens {allowance : Allowance} {ts : List Token}
    (h : Completes (ofTokens allowance ts)) : Completes (readWithin allowance 0 ts) := by
  intro rest hrest
  apply h rest
  rw [ofTokens, hrest]

lemma ofTokens_unlimited_completes (ts : List Token) : Completes (ofTokens .unlimited ts) := by
  intro rest h
  have hread := readWithin_unlimited_completes 0 ts
  unfold ofTokens at h
  split at h
  · next hr => cases h; exact hread rest hr
  · cases h
  · cases h

lemma ofTokens_eq_unlimited {allowance : Allowance} {ts : List Token}
    (h : Completes (ofTokens allowance ts)) : ofTokens allowance ts = ofTokens .unlimited ts := by
  unfold ofTokens
  rw [readWithin_eq_unlimited (completes_readWithin_of_ofTokens h)]

/-- A limit on nesting can make the parser give up, but it changes no other answer. -/
lemma ofTokens_upToNesting (allowance : Allowance) (ts : List Token) :
    UpToNesting (ofTokens allowance ts) (ofTokens .unlimited ts) := by
  by_cases hdeep : ∃ rest, ofTokens allowance ts = .error ⟨.tooDeep, rest⟩
  · exact .inl hdeep
  · exact .inr (ofTokens_eq_unlimited fun rest hrest => hdeep ⟨rest, hrest⟩)

end Expr

end Calculator
