import Calculator.Proofs.Nesting

/-!
# One pass with a stack

Whether tokens form an expression can be decided in one pass that keeps a stack of what has been
opened and not yet closed, and remembers whether an operand or an operator comes next. Of the powers
of operators only one matters for it: no sign may follow a power directly.

The parser gives the same verdict, with the same error at the same token. Where a call of the parser
returns, the pass stands behind an operand and on the stack on which the call began.
-/

namespace Calculator

/-- What has been opened and not yet closed. -/
inductive Opened where
  | paren
  | condition
  | thenPart
  | elsePart
  deriving DecidableEq

/-- What the pass expects next: an operand, before which a sign may or may not stand, or what may
follow an operand. -/
inductive Expected where
  | operand (signed : Bool)
  | operator
  deriving DecidableEq

/-- A point of the pass. -/
structure Scan where
  expected : Expected
  stack : List Opened
  deriving DecidableEq

namespace Scan

/-- The start of the pass. -/
def start : Scan := ⟨.operand true, []⟩

/-- Takes a keyword that something opened waits for. -/
def takeKeyword (word : Keyword) (t : Token) (next : Scan) : Except ParseError Scan :=
  if t.kind = .keyword word then .ok next else .error (.expectedKeyword word (some t))

/-- Takes a token behind a complete operand that is no operator. -/
def close : List Opened → Token → Except ParseError Scan
  | [], t => .error (.expectedEnd t)
  | .paren :: stack, t =>
    if t.kind = .closeParen then .ok ⟨.operator, stack⟩ else .error (.expectedClosing (some t))
  | .condition :: stack, t => takeKeyword .thenWord t ⟨.operand true, .thenPart :: stack⟩
  | .thenPart :: stack, t => takeKeyword .elseWord t ⟨.operand true, .elsePart :: stack⟩
  | .elsePart :: stack, t => takeKeyword .endWord t ⟨.operator, stack⟩

/-- Takes a token. -/
def step : Scan → Token → Except ParseError Scan
  | ⟨.operand signed, stack⟩, t =>
    match t.kind with
    | .number | .identifier => .ok ⟨.operator, stack⟩
    | .openParen => .ok ⟨.operand true, .paren :: stack⟩
    | .keyword .ifWord => .ok ⟨.operand true, .condition :: stack⟩
    | .plus | .minus =>
      if signed then .ok ⟨.operand true, stack⟩ else .error (.expectedOperand (some t))
    | _ => .error (.expectedOperand (some t))
  | ⟨.operator, stack⟩, t =>
    match t.kind with
    | .bang => .ok ⟨.operator, stack⟩
    | .plus | .minus | .asterisk | .slash | .becomes => .ok ⟨.operand true, stack⟩
    | .caret => .ok ⟨.operand false, stack⟩
    | _ => close stack t

/-- What is missing at the end of the input, if anything is. -/
def missing? : Scan → Option ParseError
  | ⟨.operand _, _⟩ => some (.expectedOperand none)
  | ⟨.operator, []⟩ => none
  | ⟨.operator, .paren :: _⟩ => some (.expectedClosing none)
  | ⟨.operator, .condition :: _⟩ => some (.expectedKeyword .thenWord none)
  | ⟨.operator, .thenPart :: _⟩ => some (.expectedKeyword .elseWord none)
  | ⟨.operator, .elsePart :: _⟩ => some (.expectedKeyword .endWord none)

/-- The verdict on the tokens from a point of the pass on. -/
def verdict (s : Scan) : List Token → Except Stop Unit
  | [] =>
    match s.missing? with
    | none => .ok ()
    | some cause => .error ⟨cause, []⟩
  | t :: ts =>
    match s.step t with
    | .ok s => s.verdict ts
    | .error cause => .error ⟨cause, t :: ts⟩

/-! ### Steps -/

section Steps

variable {s s' : Scan} {t : Token} {ts rest : List Token} {stack : List Opened}

lemma verdict_of_step (h : s.step t = .ok s') : s.verdict (t :: ts) = s'.verdict ts := by
  simp only [verdict, h]

lemma step_sign {op : UnaryOp} (hop : t.kind.sign? = some op) (signed : Bool) :
    step ⟨.operand signed, stack⟩ t =
      if signed then .ok ⟨.operand true, stack⟩ else .error (.expectedOperand (some t)) := by
  obtain ⟨hne, hk⟩ := Token.Kind.sign?_eq_some_iff.mp hop
  cases op with
  | factorial => exact absurd rfl hne
  | negate | identity => simp only [step, hk, UnaryOp.kind]

lemma step_suffix {op : UnaryOp} (hop : t.kind.suffix? = some op) :
    step ⟨.operator, stack⟩ t = .ok ⟨.operator, stack⟩ := by
  obtain ⟨-, hk⟩ := Token.Kind.suffix?_eq_some_iff.mp hop
  simp only [step, hk]

/-- Behind an operator a sign may stand if the right operand binds no more tightly than a sign. -/
lemma step_operator {op : BinaryOp} (hop : t.kind.operator? = some op) :
    step ⟨.operator, stack⟩ t =
      .ok ⟨.operand (op.binding.right ≤ UnaryOp.negate.power), stack⟩ := by
  have hk := Token.Kind.operator?_eq_some_iff.mp hop
  cases op <;> simp [step, hk, BinaryOp.kind]

/-- Where an expression of any power ends, only what is on the stack counts. -/
lemma step_of_stops (h : Stops 0 (t :: ts)) : step ⟨.operator, stack⟩ t = close stack t := by
  have hs := noSuffix_cons_iff.mp h.suffix
  have ho := noOperator_cons_iff.mp h.operator
  cases hk : t.kind with
  | bang => rw [hk] at hs; exact absurd (hs .factorial rfl) (by decide)
  | plus => rw [hk] at ho; exact absurd (ho .add rfl) (by decide)
  | minus => rw [hk] at ho; exact absurd (ho .subtract rfl) (by decide)
  | asterisk => rw [hk] at ho; exact absurd (ho .multiply rfl) (by decide)
  | slash => rw [hk] at ho; exact absurd (ho .divide rfl) (by decide)
  | caret => rw [hk] at ho; exact absurd (ho .exponent rfl) (by decide)
  | becomes => rw [hk] at ho; exact absurd (ho .assign rfl) (by decide)
  | _ => simp only [step, hk]

end Steps

/-! ### The pass and the parser -/

/-- The point at which an operand is read for a least power. -/
def before (least : Power) (stack : List Opened) : Scan :=
  ⟨.operand (least ≤ UnaryOp.negate.power), stack⟩

/-- The verdict `v` is what follows from an answer of the parser: if it has read an expression, the
pass goes on behind it on the same stack, and if it has failed, so has the pass. -/
def Agrees (stack : List Opened) (v : Except Stop Unit) :
    Except Stop (Expr × List Token) → Prop
  | .ok (_, rest) => v = verdict ⟨.operator, stack⟩ rest
  | .error stop => stop.cause = .tooDeep ∨ v = .error stop

lemma Agrees.bind {stack stack' : List Opened} {v : Except Stop Unit}
    {x : Except Stop (Expr × List Token)}
    {f : Expr × List Token → Except Stop (Expr × List Token)} (hx : Agrees stack v x)
    (hf : ∀ e rest, x = .ok (e, rest) →
      Agrees stack' (verdict ⟨.operator, stack⟩ rest) (f (e, rest))) :
    Agrees stack' v (x >>= f) := by
  cases x with
  | error stop => exact hx
  | ok result =>
    obtain ⟨e, rest⟩ := result
    obtain rfl : v = verdict ⟨.operator, stack⟩ rest := hx
    exact hf e rest rfl

/-- A keyword that is due is taken by both, and its absence fails both. -/
lemma agrees_readKeyword {stack stack' : List Opened} {word : Keyword} {next : Scan}
    {opened : Opened} {rest : List Token}
    {f : List Token → Except Stop (Expr × List Token)}
    (hclose : ∀ t, close (opened :: stack) t = takeKeyword word t next)
    (hmissing : missing? ⟨.operator, opened :: stack⟩ = some (.expectedKeyword word none))
    (hstops : Stops 0 rest) (hf : ∀ ts, Agrees stack' (next.verdict ts) (f ts)) :
    Agrees stack' (verdict ⟨.operator, opened :: stack⟩ rest)
      (Expr.readKeyword word rest >>= f) := by
  cases rest with
  | nil =>
    right
    simp only [verdict, hmissing]
  | cons t ts =>
    by_cases hk : t.kind = .keyword word
    · simp only [verdict, step_of_stops hstops, hclose, takeKeyword, Expr.readKeyword, if_pos hk]
      exact hf ts
    · simp only [verdict, step_of_stops hstops, hclose, takeKeyword, Expr.readKeyword, if_neg hk]
      exact .inr rfl

lemma verdict_readSuffixes (least : Power) (stack : List Opened) (left : Expr) (ts : List Token) :
    verdict ⟨.operator, stack⟩ ts =
      verdict ⟨.operator, stack⟩ (Expr.readSuffixes least left ts).2 := by
  induction ts generalizing left with
  | nil => rfl
  | cons t ts ih =>
    simp only [Expr.readSuffixes]
    split
    · next op hop =>
      split
      · rw [verdict_of_step (step_suffix hop)]
        exact ih _
      · rfl
    · rfl

section Simulation

open Calculator.Expr

variable {read : Reader} (hsound : SoundReader read)
  (hread : ∀ least ts stack, Agrees stack (verdict (before least stack) ts) (read least ts))

include hsound hread

lemma agrees_readGroup (stack : List Opened) (ts : List Token) :
    Agrees stack (verdict ⟨.operand true, .paren :: stack⟩ ts) (readGroup read ts) := by
  refine (hread 0 ts (.paren :: stack)).bind fun inner rest hinner => ?_
  have hstops := (hsound hinner).stops
  cases rest with
  | nil => exact .inr rfl
  | cons t rest =>
    by_cases hk : t.kind = .closeParen
    · simp only [verdict, step_of_stops hstops, close, readClosing, if_pos hk]
      exact rfl
    · simp only [verdict, step_of_stops hstops, close, readClosing, if_neg hk]
      exact .inr rfl

lemma agrees_readConditional (stack : List Opened) (ts : List Token) :
    Agrees stack (verdict ⟨.operand true, .condition :: stack⟩ ts)
      (readConditional read ts) := by
  refine (hread 0 ts (.condition :: stack)).bind fun c rest hc => ?_
  refine agrees_readKeyword (fun _ => rfl) rfl (hsound hc).stops fun ts₁ => ?_
  refine (hread 0 ts₁ (.thenPart :: stack)).bind fun y rest hy => ?_
  refine agrees_readKeyword (fun _ => rfl) rfl (hsound hy).stops fun ts₂ => ?_
  refine (hread 0 ts₂ (.elsePart :: stack)).bind fun n rest hn => ?_
  exact agrees_readKeyword (fun _ => rfl) rfl (hsound hn).stops fun ts₃ => rfl

/-- An operand without a sign, where a sign may not stand or does not. -/
lemma agrees_readAtom {signed : Bool} (stack : List Opened) {ts : List Token}
    (hsigned : signed = true → ∀ t ∈ ts.head?, t.kind.sign? = none) :
    Agrees stack (verdict ⟨.operand signed, stack⟩ ts) (readAtom read ts) := by
  cases ts with
  | nil => exact .inr rfl
  | cons t ts =>
    have hfail (h : step ⟨.operand signed, stack⟩ t = .error (.expectedOperand (some t))) :
        Agrees stack (verdict ⟨.operand signed, stack⟩ (t :: ts))
          (.error ⟨.expectedOperand (some t), t :: ts⟩) := by
      right
      simp only [verdict, h]
    have hplain (hk : t.kind = .plus ∨ t.kind = .minus) : signed = false := by
      cases signed with
      | false => rfl
      | true =>
        have hnone := hsigned rfl t rfl
        rcases hk with hk | hk <;> rw [hk] at hnone <;> cases hnone
    cases hk : t.kind with
    | number => simp only [readAtom, hk, verdict, step]; exact rfl
    | identifier => simp only [readAtom, hk, verdict, step]; exact rfl
    | openParen =>
      simp only [readAtom, hk, verdict, step]
      exact agrees_readGroup hsound hread stack ts
    | plus =>
      simp only [readAtom, hk]
      exact hfail (by simp [step, hk, hplain (.inl hk)])
    | minus =>
      simp only [readAtom, hk]
      exact hfail (by simp [step, hk, hplain (.inr hk)])
    | keyword word =>
      cases word with
      | ifWord =>
        simp only [readAtom, hk, verdict, step]
        exact agrees_readConditional hsound hread stack ts
      | _ => simp only [readAtom, hk]; exact hfail (by simp only [step, hk])
    | _ => simp only [readAtom, hk]; exact hfail (by simp only [step, hk])

lemma agrees_readOperand (least : Power) (stack : List Opened) (ts : List Token) :
    Agrees stack (verdict (before least stack) ts) (readOperand read least ts) := by
  cases ts with
  | nil => exact .inr rfl
  | cons t ts =>
    simp only [readOperand]
    split
    · next op hop =>
      have hpower : op.power = UnaryOp.negate.power := by
        obtain ⟨hne, -⟩ := Token.Kind.sign?_eq_some_iff.mp hop
        cases op with
        | factorial => exact absurd rfl hne
        | negate | identity => rfl
      split
      · next hle =>
        rw [hpower] at hle ⊢
        have hstep : (before least stack).step t = .ok (before UnaryOp.negate.power stack) := by
          rw [before, step_sign hop, if_pos (decide_eq_true hle)]
          simp only [before, Int.le_refl, decide_true]
        rw [verdict_of_step hstep]
        exact (hread UnaryOp.negate.power ts stack).bind fun e rest _ => rfl
      · next hle =>
        rw [hpower] at hle
        exact agrees_readAtom hsound hread stack fun h => absurd (of_decide_eq_true h) hle
    · next hop => exact agrees_readAtom hsound hread stack (by simp [hop])

lemma agrees_readOperations (least : Power) (stack : List Opened) (left : Expr)
    {bound ts : List Token} (hbound : ts.length ≤ bound.length) :
    Agrees stack (verdict ⟨.operator, stack⟩ ts) (readOperations read least bound left ts) := by
  induction bound generalizing left ts with
  | nil => cases ts <;> exact rfl
  | cons b bound ih =>
    cases ts with
    | nil => exact rfl
    | cons t ts =>
      simp only [readOperations]
      split
      · next op hop =>
        split
        · have hstep : step ⟨.operator, stack⟩ t = .ok (before op.binding.right stack) :=
            step_operator hop
          rw [verdict_of_step hstep]
          refine (hread op.binding.right ts stack).bind fun right rest hright => ?_
          have hlength := (hsound hright).spelled.length_eq
          simp only [List.length_cons] at hbound
          exact ih _ (by omega)
        · exact rfl
      · exact rfl

end Simulation

/-- Whatever is on the stack, a call of the parser and the pass take the same tokens. -/
theorem agrees_read (depth : Nat) (least : Power) (ts : List Token) (stack : List Opened) :
    Agrees stack (verdict (before least stack) ts) (Expr.read depth least ts) := by
  induction depth generalizing least ts stack with
  | zero => exact .inl rfl
  | succ depth ih =>
    have hsound := Expr.read_sound depth
    refine (agrees_readOperand hsound ih least stack ts).bind fun left rest _ => ?_
    rw [verdict_readSuffixes least stack left rest]
    exact agrees_readOperations hsound ih least stack _ (Nat.le_refl _)

/-- The parser and the pass agree on every list of tokens, unless the parser gives up. -/
theorem verdict_start_eq {allowance : Allowance} {ts : List Token}
    (h : Expr.Completes (Expr.ofTokens allowance ts)) :
    start.verdict ts = (Expr.ofTokens allowance ts).map fun _ => () := by
  have hagrees := agrees_read (allowance.count (ts.length + 1)) 0 ts []
  unfold Expr.ofTokens Expr.readWithin at h ⊢
  cases hr : Expr.read (allowance.count (ts.length + 1)) 0 ts with
  | error stop =>
    rw [hr] at h hagrees
    rcases hagrees with hdeep | hagrees
    · exact absurd rfl (hdeep ▸ h stop.rest)
    · exact hagrees
  | ok result =>
    obtain ⟨e, rest⟩ := result
    rw [hr] at hagrees
    have hstops := (Expr.read_sound _ hr).stops
    cases rest with
    | nil => exact hagrees
    | cons t rest =>
      have hverdict : start.verdict ts = verdict ⟨.operator, []⟩ (t :: rest) := hagrees
      rw [hverdict, verdict, step_of_stops hstops]
      rfl

/-! ### Signs behind powers -/

/-- The point that the pass reaches from another one, unless it fails on the way. -/
def advance (s : Scan) (ts : List Token) : Except ParseError Scan := ts.foldlM step s

lemma eq_of_takeKeyword {word : Keyword} {t : Token} {next s : Scan}
    (h : takeKeyword word t next = .ok s) : s = next ∧ t.kind = .keyword word := by
  unfold takeKeyword at h
  split at h
  · next hk => cases h; exact ⟨rfl, hk⟩
  · cases h

/-- A token that closes something is no power, and a sign may follow where an operand may. -/
lemma expected_of_close {stack : List Opened} {t : Token} {s : Scan} (h : close stack t = .ok s) :
    s.expected ≠ .operand false ∧ t.kind ≠ .caret := by
  cases stack with
  | nil => cases h
  | cons opened stack =>
    cases opened with
    | paren =>
      simp only [close] at h
      split at h
      · next hk => cases h; simp [hk]
      · cases h
    | condition | thenPart | elsePart =>
      obtain ⟨rfl, hk⟩ := eq_of_takeKeyword h
      simp [hk]

/-- No sign may follow a token that has been taken if and only if it is a power. -/
lemma expected_of_step {s s' : Scan} {t : Token} (h : s.step t = .ok s') :
    s'.expected = .operand false ↔ t.kind = .caret := by
  obtain ⟨expected, stack⟩ := s
  cases expected with
  | operand signed =>
    simp only [step] at h
    split at h
    · next hk => cases h; simp [hk]
    · next hk => cases h; simp [hk]
    · next hk => cases h; simp [hk]
    · next hk => cases h; simp [hk]
    · next hk => cases signed <;> cases h; simp [hk]
    · next hk => cases signed <;> cases h; simp [hk]
    · cases h
  | operator =>
    cases hs : t.kind.suffix? with
    | some op =>
      obtain ⟨-, hk⟩ := Token.Kind.suffix?_eq_some_iff.mp hs
      rw [step_suffix hs] at h
      cases h
      simp [hk]
    | none =>
      cases ho : t.kind.operator? with
      | some op =>
        have hk := Token.Kind.operator?_eq_some_iff.mp ho
        rw [step_operator ho] at h
        cases h
        cases op <;> simp [hk, BinaryOp.kind]
      | none =>
        rw [step_of_stops (.of_kind hs ho 0 [])] at h
        simp [expected_of_close h]

lemma expected_of_advance {ts : List Token} {s : Scan} (h : start.advance ts = .ok s) :
    s.expected = .operand false ↔ ∃ t ∈ ts.getLast?, t.kind = .caret := by
  obtain rfl | ⟨ts, t, rfl⟩ := List.eq_nil_or_concat ts
  · cases h
    simp [start]
  · rw [advance, List.concat_eq_append, List.foldlM_append, bind_eq_ok_iff] at h
    obtain ⟨s', -, hlast⟩ := h
    rw [List.foldlM_cons, bind_eq_ok_iff] at hlast
    obtain ⟨s'', hstep, hnil⟩ := hlast
    cases hnil
    rw [expected_of_step hstep]
    simp

/-- The parser and the pass give the same verdict on every list of tokens: both accept it, or both
fail with the same error at the same token. A limit on nesting changes nothing else than that the
parser may give up, and without one it never does. The one thing that the pass remembers beside the
stack is whether the last token was a power, behind which no sign may stand. -/
theorem ofTokens_agrees_verdict (allowance : Allowance) (ts : List Token) :
    Expr.UpToNesting ((Expr.ofTokens allowance ts).map fun _ => ()) (start.verdict ts) ∧
      (Expr.ofTokens .unlimited ts).map (fun _ => ()) = start.verdict ts ∧
      ∀ before s, before <+: ts → start.advance before = .ok s →
        (s.expected = .operand false ↔ ∃ t ∈ before.getLast?, t.kind = .caret) := by
  have hunlimited := verdict_start_eq (Expr.ofTokens_unlimited_completes ts)
  refine ⟨?_, hunlimited.symm, fun before s _ hs => expected_of_advance hs⟩
  rw [hunlimited]
  exact (Expr.ofTokens_upToNesting allowance ts).map _

end Scan

end Calculator
