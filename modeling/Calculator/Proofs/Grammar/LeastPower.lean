import Calculator.Proofs.Grammar.Completeness
import Calculator.Proofs.Remainder

/-!
# Greater and smaller least powers

Reading for a smaller power is reading for a greater one and then going on. So a greater power only
cuts a reading shorter: an error that is met for it is met for the smaller one too, and an
expression that is read for it stands at the front of what is read for the smaller one, where it is
the first operand of operators that follow it. The one thing that only a smaller power allows
earlier is a sign in front.
-/

namespace Calculator.Expr

/-- The second tree is the first one with operators put behind it, of which each takes what has
been built so far as its operand. -/
inductive Grows : Expr → Expr → Prop where
  | refl (e : Expr) : Grows e e
  | factorial {e e' : Expr} (h : Grows e e') : Grows e (.unary .factorial e')
  | operation {e e' : Expr} (op : BinaryOp) (right : Expr) (h : Grows e e') :
      Grows e (.binary op e' right)

variable {p q least : Power} {depth : Nat} {read : Reader} {bound ts rest : List Token}
  {start left e : Expr}

/-! ### Trees that grow -/

lemma Grows.readSuffixes (h : Grows start left) (least : Power) (ts : List Token) :
    Grows start (readSuffixes least left ts).1 := by
  induction ts generalizing left with
  | nil => exact h
  | cons t ts ih =>
    simp only [Expr.readSuffixes]
    split
    · next op hop =>
      obtain ⟨rfl, -⟩ := Token.Kind.suffix?_eq_some_iff.mp hop
      split
      · exact ih h.factorial
      · exact h
    · exact h

lemma Grows.readOperations (h : Grows start left)
    (hr : readOperations read least bound left ts = .ok (e, rest)) : Grows start e := by
  induction bound generalizing left ts with
  | nil => cases ts <;> cases hr <;> exact h
  | cons b bound ih =>
    cases ts with
    | nil => cases hr; exact h
    | cons t ts =>
      simp only [Expr.readOperations] at hr
      split at hr
      · next op _ =>
        split at hr
        · simp only [bind_eq_ok_iff, Prod.exists] at hr
          obtain ⟨right, ts', -, hr⟩ := hr
          exact ih (h.operation op right) hr
        · cases hr; exact h
      · cases hr; exact h

/-- What is built behind an operand has it in front. -/
lemma grows_of_readOn (h : readOn depth least left ts = .ok (e, rest)) : Grows left e :=
  .readOperations (.readSuffixes (.refl left) least ts) h

lemma readOn_leaves (depth : Nat) (least : Power) (left : Expr) (ts : List Token) :
    Leaves ts Prod.snd (readOn depth least left ts) :=
  (readOperations_leaves (read_leaves depth) least _ _ _).mono (readSuffixes_suffix least left ts)

/-! ### Going on for a smaller power -/

/-- No operator behind an operand binds more tightly than a factorial. -/
lemma stops_of_factorial_lt (h : UnaryOp.factorial.power < q) (ts : List Token) : Stops q ts where
  suffix t _ op hop := by
    obtain ⟨rfl, -⟩ := Token.Kind.suffix?_eq_some_iff.mp hop
    exact h
  operator t _ op _ := by
    have hle : op.binding.left ≤ UnaryOp.factorial.power := by cases op <;> decide
    exact Int.lt_of_le_of_lt hle h

lemma readSuffixes_congr (hp : p ≤ UnaryOp.factorial.power) (hq : q ≤ UnaryOp.factorial.power)
    (left : Expr) (ts : List Token) : readSuffixes p left ts = readSuffixes q left ts := by
  induction ts generalizing left with
  | nil => rfl
  | cons t ts ih =>
    simp only [readSuffixes]
    split
    · next op hop =>
      obtain ⟨rfl, -⟩ := Token.Kind.suffix?_eq_some_iff.mp hop
      rw [if_pos hp, if_pos hq]
      exact ih _
    · rfl

lemma readOperations_eq_bind (hle : p ≤ q) (hs : NoSuffix p ts) (hb : ts.length ≤ bound.length)
    (left : Expr) :
    readOperations (Expr.read depth) p bound left ts =
      readOperations (Expr.read depth) q bound left ts >>= fun r => readOn depth p r.1 r.2 := by
  induction bound generalizing left ts with
  | nil =>
    obtain rfl : ts = [] := List.length_eq_zero_iff.mp (Nat.le_zero.mp hb)
    rfl
  | cons b bound ih =>
    cases ts with
    | nil => rfl
    | cons t ts =>
      -- where the greater power stops, the smaller one is in the same loop
      have hstop : readOperations (Expr.read depth) p (b :: bound) left (t :: ts) =
          readOn depth p left (t :: ts) := by
        rw [readOn_of_noSuffix hs]
        exact readOperations_bound (read_sound depth) p hb (Nat.le_refl _) left
      cases hop : t.kind.operator? with
      | none =>
        rw [hstop]
        simp only [readOperations, hop, ok_bind]
      | some op =>
        by_cases hq : q ≤ op.binding.left
        · simp only [readOperations, hop, if_pos hq, if_pos (Int.le_trans hle hq)]
          cases hright : Expr.read depth op.binding.right ts with
          | error stop => rfl
          | ok result =>
            obtain ⟨right, ts'⟩ := result
            have hreads := read_sound depth hright
            have hlength := hreads.spelled.length_eq
            simp only [List.length_cons] at hb
            exact ih (hreads.stops.noSuffix p) (by omega) _
        · rw [hstop]
          simp only [readOperations, hop, if_neg hq, ok_bind]

/-- Behind an operand, going on for a smaller power is going on for a greater one first. -/
theorem readOn_eq_bind (hle : p ≤ q) (left : Expr) (ts : List Token) :
    readOn depth p left ts = readOn depth q left ts >>= fun r => readOn depth p r.1 r.2 := by
  by_cases hq : q ≤ UnaryOp.factorial.power
  · have hp := Int.le_trans hle hq
    have hs := noSuffix_readSuffixes p left ts
    simp only [readOn, ← readSuffixes_congr hp hq]
    exact readOperations_eq_bind hle hs (Nat.le_refl _) _
  · rw [readOn_of_stops (stops_of_factorial_lt (Int.not_le.mp hq) ts)]
    rfl

/-! ### A sign in front -/

/-- A sign stands in front that binds tightly enough for `p` and not for `q`. -/
def SignBetween (p q : Power) (ts : List Token) : Prop :=
  ∃ t ∈ ts.head?, (t.kind = .plus ∨ t.kind = .minus) ∧ p ≤ 8 ∧ 8 < q

lemma readOperand_congr (hle : p ≤ q) (h : ¬ SignBetween p q ts) (read : Reader) :
    readOperand read p ts = readOperand read q ts := by
  cases ts with
  | nil => rfl
  | cons t ts =>
    simp only [readOperand]
    split
    · next op hop =>
      obtain ⟨hne, hk⟩ := Token.Kind.sign?_eq_some_iff.mp hop
      obtain ⟨hkind, hpower⟩ : (t.kind = .plus ∨ t.kind = .minus) ∧ op.power = 8 := by
        cases op with
        | factorial => exact absurd rfl hne
        | negate => exact ⟨.inr hk, rfl⟩
        | identity => exact ⟨.inl hk, rfl⟩
      rw [hpower]
      by_cases hq : q ≤ 8
      · rw [if_pos hq, if_pos (Int.le_trans hle hq)]
      · have hp : ¬ p ≤ 8 := fun hp => h ⟨t, rfl, hkind, hp, Int.not_le.mp hq⟩
        rw [if_neg hq, if_neg hp]
    · rfl

/-- For the greater power an operand is missing where the sign stands. -/
lemma readOperand_of_signBetween (h : SignBetween p q ts) (read : Reader) :
    readOperand read q ts = .error ⟨.expectedOperand ts.head?, ts⟩ := by
  obtain ⟨t, ht, hkind, -, hq⟩ := h
  cases ts with
  | nil => cases ht
  | cons u ts =>
    obtain rfl : u = t := by simpa using ht
    have hq : ¬ q ≤ 8 := Int.not_le.mpr hq
    rcases hkind with hk | hk <;>
      simp [readOperand, readAtom, hk, Token.Kind.sign?, hq]

/-- Reading for a smaller power is reading for a greater one and going on, unless a sign in front
makes a difference. -/
theorem read_eq_bind (hle : p ≤ q) (h : ¬ SignBetween p q ts) (depth : Nat) :
    Expr.read (depth + 1) p ts =
      Expr.read (depth + 1) q ts >>= fun r => readOn depth p r.1 r.2 := by
  have hread (least : Power) : Expr.read (depth + 1) least ts =
      readOperand (Expr.read depth) least ts >>= fun r => readOn depth least r.1 r.2 := rfl
  rw [hread, hread, readOperand_congr hle h, bind_assoc]
  exact congrArg _ (funext fun r => readOn_eq_bind hle r.1 r.2)

/-- Raising the least power only cuts a reading shorter. Where reading for the greater power fails,
reading for the smaller one fails at the same token with the same error, except if it begins with a
sign that only the smaller one allows. If an expression is read for the greater power, reading for
the smaller one comes at least as far, and if it succeeds, its result is that expression with
operators put behind it; the token behind the expression is none that continues it for the greater
power. -/
theorem readWithin_of_le (hle : p ≤ q) {allowance allowance' : Allowance}
    (hp : Completes (readWithin allowance p ts)) (hq : Completes (readWithin allowance' q ts)) :
    let low := readWithin allowance p ts
    let high := readWithin allowance' q ts
    (¬ SignBetween p q ts → ∀ stop, high = .error stop → low = .error stop) ∧
    (SignBetween p q ts → high = .error ⟨.expectedOperand ts.head?, ts⟩) ∧
    ∀ e rest, high = .ok (e, rest) →
      ((∃ e' rest', low = .ok (e', rest') ∧ e.Grows e' ∧ rest' <:+ rest) ∨
        ∃ stop, low = .error stop ∧ stop.rest <:+ rest) ∧ Stops q rest := by
  intro low high
  have hlow : low = readWithin .unlimited p ts := readWithin_eq_unlimited hp
  have hhigh : high = readWithin .unlimited q ts := readWithin_eq_unlimited hq
  have hbind (h : ¬ SignBetween p q ts) :
      low = high >>= fun r => readOn ts.length p r.1 r.2 := by
    rw [hlow, hhigh]
    exact read_eq_bind hle h ts.length
  have hsign (h : SignBetween p q ts) : high = .error ⟨.expectedOperand ts.head?, ts⟩ := by
    rw [hhigh, readWithin, Allowance.count, Expr.read, readOperand_of_signBetween h, error_bind]
  refine ⟨fun h stop hstop => ?_, hsign, fun e rest hok => ⟨?_, ?_⟩⟩
  · rw [hbind h, hstop, error_bind]
  · have h : ¬ SignBetween p q ts := fun h => by cases hok.symm.trans (hsign h)
    have hon : low = readOn ts.length p e rest := by rw [hbind h, hok, ok_bind]
    have hleaves := readOn_leaves ts.length p e rest
    rw [hon]
    cases hr : readOn ts.length p e rest with
    | error stop =>
      rw [hr] at hleaves
      exact .inr ⟨stop, rfl, hleaves⟩
    | ok result =>
      obtain ⟨e', rest'⟩ := result
      rw [hr] at hleaves
      exact .inl ⟨e', rest', rfl, grows_of_readOn hr, hleaves⟩
  · exact (read_sound _ hok).stops

/-- The line `x ^ 2 ! * 4 - 1`, read for 10 and for 3. -/
theorem readWithin_of_le_power :
    let rest : List Token := [⟨.asterisk, 8, 9, "*"⟩, ⟨.number, 10, 11, "4"⟩,
      ⟨.minus, 12, 13, "-"⟩, ⟨.number, 14, 15, "1"⟩]
    let ts : List Token := ⟨.identifier, 0, 1, "x"⟩ :: ⟨.caret, 2, 3, "^"⟩ ::
      ⟨.number, 4, 5, "2"⟩ :: ⟨.bang, 6, 7, "!"⟩ :: rest
    let e := binary .exponent (ident "x") (unary .factorial (number 2))
    let e' := binary .subtract (binary .multiply e (number 4)) (number 1)
    ((3 : Power) ≤ 10 ∧ Completes (readWithin .standard 3 ts) ∧
        Completes (readWithin .standard 10 ts)) ∧
      readWithin .standard 10 ts = .ok (e, rest) ∧ readWithin .standard 3 ts = .ok (e', []) ∧
        e.Grows e' ∧ [] <:+ rest ∧ Stops 10 rest := by
  intro rest ts e e'
  have hhigh : readWithin .standard 10 ts = .ok (e, rest) := rfl
  have hlow : readWithin .standard 3 ts = .ok (e', []) := rfl
  have hle : (3 : Power) ≤ 10 := by decide
  have hp : Completes (readWithin .standard 3 ts) := hlow ▸ .ok _
  have hq : Completes (readWithin .standard 10 ts) := hhigh ▸ .ok _
  obtain ⟨-, -, hread⟩ := readWithin_of_le hle hp hq
  obtain ⟨hlonger, hstops⟩ := hread e rest hhigh
  rcases hlonger with ⟨_, _, h, hgrows, hsuffix⟩ | ⟨stop, h, -⟩
  · cases hlow.symm.trans h
    exact ⟨⟨hle, hp, hq⟩, hhigh, hlow, hgrows, hsuffix, hstops⟩
  · cases hlow.symm.trans h

end Calculator.Expr
