import Calculator.Proofs.Pushdown

/-!
# Errors at the earliest token

The tokens in front of an error are the beginning of some expression, and with the token of the
error they are not. Both are seen on the pass with a stack: from every point of it some tokens lead
to the end, since what is open can be closed one by one, and a token that it refuses it refuses
whatever follows.
-/

namespace Calculator

/-- The token that an error names, if it is not the end of the input. -/
def ParseError.found : ParseError → Option Token
  | .expectedOperand found | .expectedKeyword _ found | .expectedClosing found => found
  | .expectedEnd found => some found
  | .tooDeep => none

/-- The number of tokens of `ts` that were consumed before reading stopped. -/
def Stop.position (stop : Stop) (ts : List Token) : Nat := ts.length - stop.rest.length

/-- The first `k` tokens of `ts` begin an expression, and with the next one, if there is one, they
begin none. -/
structure LongestViable (ts : List Token) (k : Nat) : Prop where
  le_length : k ≤ ts.length
  viable : ∃ more e, Expr.ofTokens .unlimited (ts.take k ++ more) = .ok e
  maximal : k < ts.length →
    ∀ allowance more e, Expr.ofTokens allowance (ts.take (k + 1) ++ more) ≠ .ok e

namespace Scan

/-! ### Completing -/

/-- The number zero, with which an operand can be completed. -/
def zero : Token := ⟨.number, 0, 1, "0"⟩

/-- What closes all that has been opened. -/
def closing : List Opened → List Token
  | [] => []
  | .paren :: stack => ⟨.closeParen, 0, 1, ")"⟩ :: closing stack
  | .condition :: stack =>
    ⟨.keyword .thenWord, 0, 4, "then"⟩ :: zero :: ⟨.keyword .elseWord, 0, 4, "else"⟩ :: zero ::
      ⟨.keyword .endWord, 0, 3, "end"⟩ :: closing stack
  | .thenPart :: stack =>
    ⟨.keyword .elseWord, 0, 4, "else"⟩ :: zero :: ⟨.keyword .endWord, 0, 3, "end"⟩ ::
      closing stack
  | .elsePart :: stack => ⟨.keyword .endWord, 0, 3, "end"⟩ :: closing stack

lemma verdict_closing (stack : List Opened) :
    verdict ⟨.operator, stack⟩ (closing stack) = .ok () := by
  induction stack with
  | nil => rfl
  | cons opened stack ih => cases opened <;> exact ih

/-- From every point of the pass some tokens are accepted. -/
lemma exists_verdict_eq_ok (s : Scan) : ∃ more, s.verdict more = .ok () := by
  obtain ⟨expected, stack⟩ := s
  cases expected with
  | operand signed => exact ⟨zero :: closing stack, verdict_closing stack⟩
  | operator => exact ⟨closing stack, verdict_closing stack⟩

/-! ### Refusing -/

lemma found_of_takeKeyword {word : Keyword} {t : Token} {next : Scan} {cause : ParseError}
    (h : takeKeyword word t next = .error cause) : cause.found = some t := by
  unfold takeKeyword at h
  split at h
  · cases h
  · cases h; rfl

lemma found_of_close {stack : List Opened} {t : Token} {cause : ParseError}
    (h : close stack t = .error cause) : cause.found = some t := by
  cases stack with
  | nil => cases h; rfl
  | cons opened stack =>
    cases opened with
    | paren =>
      simp only [close] at h
      split at h
      · cases h
      · cases h; rfl
    | _ => exact found_of_takeKeyword h

/-- An error of a step names the token that the step was to take. -/
lemma found_of_step {s : Scan} {t : Token} {cause : ParseError} (h : s.step t = .error cause) :
    cause.found = some t := by
  obtain ⟨expected, stack⟩ := s
  cases expected with
  | operand signed =>
    simp only [step] at h
    split at h
    · cases h
    · cases h
    · cases h
    · cases h
    · split at h <;> cases h
      rfl
    · split at h <;> cases h
      rfl
    · cases h; rfl
  | operator =>
    cases hs : t.kind.suffix? with
    | some op => rw [step_suffix hs] at h; cases h
    | none =>
      cases ho : t.kind.operator? with
      | some op => rw [step_operator ho] at h; cases h
      | none =>
        rw [step_of_stops (.of_kind hs ho 0 [])] at h
        exact found_of_close h

lemma found_of_missing? {s : Scan} {cause : ParseError} (h : s.missing? = some cause) :
    cause.found = none := by
  obtain ⟨expected, stack⟩ := s
  cases expected with
  | operand signed => cases h; rfl
  | operator =>
    cases stack with
    | nil => cases h
    | cons opened stack => cases opened <;> cases h <;> rfl

/-- Where the pass fails, it has refused the token there, or the end of the input. -/
lemma verdict_eq_error {s : Scan} {ts : List Token} {stop : Stop}
    (h : s.verdict ts = .error stop) :
    ∃ k ≤ ts.length, stop.rest = ts.drop k ∧ stop.cause.found = ts[k]? ∧
      (∃ more, s.verdict (ts.take k ++ more) = .ok ()) ∧
      (k < ts.length → ∀ more, s.verdict (ts.take (k + 1) ++ more) ≠ .ok ()) := by
  induction ts generalizing s with
  | nil =>
    simp only [verdict] at h
    split at h
    · cases h
    · next cause hmissing =>
      cases h
      exact ⟨0, Nat.le_refl 0, rfl, found_of_missing? hmissing, exists_verdict_eq_ok s,
        fun hk => absurd hk (Nat.lt_irrefl 0)⟩
  | cons t ts ih =>
    cases hstep : s.step t with
    | error cause =>
      rw [verdict, hstep] at h
      cases h
      refine ⟨0, Nat.zero_le _, rfl, found_of_step hstep, exists_verdict_eq_ok s, ?_⟩
      intro _ more hmore
      simp only [List.take_succ_cons, List.take_zero, List.cons_append, List.nil_append, verdict,
        hstep] at hmore
      cases hmore
    | ok s' =>
      rw [verdict_of_step hstep] at h
      obtain ⟨k, hk, hrest, hfound, ⟨more, hmore⟩, hrefused⟩ := ih h
      refine ⟨k + 1, Nat.succ_le_succ hk, hrest, hfound, ⟨more, ?_⟩, ?_⟩
      · rw [List.take_succ_cons, List.cons_append, verdict_of_step hstep]
        exact hmore
      · intro hlt more
        rw [List.take_succ_cons, List.cons_append, verdict_of_step hstep]
        exact hrefused (Nat.lt_of_succ_lt_succ hlt) more

end Scan

namespace Expr

lemma verdict_start_of_eq_ok {allowance : Allowance} {ts : List Token} {e : Expr}
    (h : ofTokens allowance ts = .ok e) : Scan.start.verdict ts = .ok () := by
  have hcompletes : Completes (ofTokens allowance ts) := h ▸ .ok e
  rw [Scan.verdict_start_eq hcompletes, h]
  rfl

lemma exists_eq_ok_of_verdict_start {ts : List Token} (h : Scan.start.verdict ts = .ok ()) :
    ∃ e, ofTokens .unlimited ts = .ok e := by
  rw [Scan.verdict_start_eq (ofTokens_unlimited_completes ts)] at h
  cases he : ofTokens .unlimited ts with
  | error stop => rw [he] at h; cases h
  | ok e => exact ⟨e, rfl⟩

lemma eq_error_of_verdict_start {ts : List Token} {stop : Stop}
    (h : Scan.start.verdict ts = .error stop) : ofTokens .unlimited ts = .error stop := by
  rw [Scan.verdict_start_eq (ofTokens_unlimited_completes ts)] at h
  cases he : ofTokens .unlimited ts with
  | error stop' => rw [he] at h; cases h; rfl
  | ok e => rw [he] at h; cases h

/-- An error of the parser names the token that it stands at, which is not consumed, and stands at
the earliest place possible. -/
theorem earliest_of_ofTokens_eq_error {allowance : Allowance} {ts : List Token} {stop : Stop}
    (h : ofTokens allowance ts = .error stop) (hcause : stop.cause ≠ .tooDeep) :
    stop.rest = ts.drop (stop.position ts) ∧ stop.cause.found = ts[stop.position ts]? ∧
      LongestViable ts (stop.position ts) := by
  have hcompletes : Completes (ofTokens allowance ts) := h ▸ .error hcause
  have hverdict : Scan.start.verdict ts = .error stop := by
    rw [Scan.verdict_start_eq hcompletes, h]
    rfl
  obtain ⟨k, hk, hrest, hfound, ⟨more, hmore⟩, hrefused⟩ := Scan.verdict_eq_error hverdict
  have hposition : stop.position ts = k := by
    rw [Stop.position, hrest, List.length_drop]
    omega
  rw [hposition]
  refine ⟨hrest, hfound, hk, ⟨more, exists_eq_ok_of_verdict_start hmore⟩, ?_⟩
  intro hlt allowance more e he
  exact hrefused hlt more (verdict_start_of_eq_ok he)

/-- The line `(2^-3`: the sign is the earliest error, although the parenthesis is not closed
either. -/
theorem earliest_sign_behind_power :
    let sign : Token := ⟨.minus, 3, 4, "-"⟩
    let three : Token := ⟨.number, 4, 5, "3"⟩
    let ts : List Token := [⟨.openParen, 0, 1, "("⟩, ⟨.number, 1, 2, "2"⟩, ⟨.caret, 2, 3, "^"⟩,
      sign, three]
    let stop : Stop := ⟨.expectedOperand (some sign), [sign, three]⟩
    (ofTokens .standard ts = .error stop ∧ stop.cause ≠ .tooDeep) ∧
      [sign, three] = ts.drop 3 ∧ some sign = ts[3]? ∧ LongestViable ts 3 := by
  intro sign three ts stop
  have h : ofTokens .standard ts = .error stop := by rfl
  have hcause : stop.cause ≠ .tooDeep := nofun
  exact ⟨⟨h, hcause⟩, earliest_of_ofTokens_eq_error h hcause⟩

end Expr

end Calculator
