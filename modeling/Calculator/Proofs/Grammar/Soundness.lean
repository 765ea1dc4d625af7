import Calculator.Proofs.Grammar
import Calculator.Proofs.Sequencing

/-!
# What reading returns

If an expression is read for a least power, then it is well-levelled, it binds with at least that
power, the consumed tokens spell it, and the next token does not continue it. Every loop of the
reader keeps this up to the last point: what has been read so far stands before a token that is not
part of its last operand.
-/

namespace Calculator

/-! ### Consumed tokens -/

/-- The tokens of `ts` before `rest` say `ls`. -/
def Consumes (ls : List Lexeme) (ts rest : List Token) : Prop :=
  ∃ used, ts = used ++ rest ∧ used.map Token.lexeme = ls

namespace Consumes

variable {ls ls' : List Lexeme} {t : Token} {ts ts' ts'' : List Token}

lemma token {l : Lexeme} (h : t.lexeme = l) (ts : List Token) : Consumes [l] (t :: ts) ts :=
  ⟨[t], rfl, by simp [h]⟩

lemma mark {k : Token.Kind} (h : t.kind = k) (hn : k ≠ .number) (hi : k ≠ .identifier)
    (ts : List Token) : Consumes [.mark k] (t :: ts) ts :=
  token (Token.lexeme_of_kind h hn hi) ts

lemma append (h : Consumes ls ts ts') (h' : Consumes ls' ts' ts'') :
    Consumes (ls ++ ls') ts ts'' := by
  obtain ⟨used, rfl, rfl⟩ := h
  obtain ⟨used', rfl, rfl⟩ := h'
  exact ⟨used ++ used', by simp, by simp⟩

lemma length_eq (h : Consumes ls ts ts') : ts.length = ls.length + ts'.length := by
  obtain ⟨used, rfl, rfl⟩ := h
  simp

end Consumes

namespace Expr

/-! ### Trees and what follows them -/

/-- Reading `ts` for `least` may return `e` and leave `rest`. -/
structure Reads (least : Power) (ts : List Token) (e : Expr) (rest : List Token) : Prop where
  wellLevelled : e.WellLevelled
  fits : e.Fits least
  stops : Stops least rest
  spelled : Consumes e.lexemes ts rest

/-- Between two operators: `left` has been read from `start` on for `least`, and `ts` are the tokens
behind it. -/
structure Partial (least : Power) (start : List Token) (left : Expr) (ts : List Token) :
    Prop where
  wellLevelled : left.WellLevelled
  fits : left.Fits least
  closed : left.ClosedBefore ts
  spelled : Consumes left.lexemes start ts

namespace Partial

variable {least : Power} {start rest rest' : List Token} {left right e : Expr} {t : Token}

lemma sign {op : UnaryOp} (hop : t.kind.sign? = some op) (hle : least ≤ op.power)
    (h : Reads op.power rest e rest') : Partial least (t :: rest) (.unary op e) rest' := by
  obtain ⟨hne, hk⟩ := Token.Kind.sign?_eq_some_iff.mp hop
  refine ⟨⟨(operandLevel_sign_iff hne e).mpr h.fits, h.wellLevelled⟩, hle, ?_, ?_⟩
  · exact closedBefore_of_stops (Int.le_refl op.power) h.stops
  · cases op with
    | factorial => exact absurd rfl hne
    | negate => exact (Consumes.mark hk (by decide) (by decide) rest).append h.spelled
    | identity => exact (Consumes.mark hk (by decide) (by decide) rest).append h.spelled

/-- A factorial closes its operand, so that anything may follow. -/
lemma factorial (h : Partial least start left (t :: rest)) (hk : t.kind = .bang)
    (hle : least ≤ UnaryOp.factorial.power) :
    Partial least start (.unary .factorial left) rest := by
  have hedge : left.edge? = none := h.closed.edge?_eq_none (by rw [hk]; rfl)
  exact ⟨⟨(operandLevel_factorial_iff left).mpr hedge, h.wellLevelled⟩, hle,
    .of_edge?_eq_none rfl rest, h.spelled.append (.mark hk (by decide) (by decide) rest)⟩

lemma binary {op : BinaryOp} (h : Partial least start left (t :: rest))
    (hop : t.kind.operator? = some op) (hle : least ≤ op.binding.left)
    (hright : Reads op.binding.right rest right rest') :
    Partial least start (.binary op left right) rest' := by
  have hk : t.kind = op.kind := Token.Kind.operator?_eq_some_iff.mp hop
  have hl : op.leftLevel ≤ left.level :=
    (leftLevel_le_iff op left).mpr fun q hq => (h.closed q hq).operator t rfl op hop
  have hr : op.rightLevel ≤ right.level := (rightLevel_le_iff op right).mpr hright.fits
  refine ⟨⟨⟨hl, hr⟩, h.wellLevelled, hright.wellLevelled⟩, hle, ?_, ?_⟩
  · intro q hq
    cases hq
    exact hright.stops
  · have hmark : Consumes [.mark op.kind] (t :: rest) rest :=
      .mark hk (by cases op <;> decide) (by cases op <;> decide) rest
    exact h.spelled.append (hmark.append hright.spelled)

end Partial

/-! ### The stages of reading -/

lemma readKeyword_eq_ok_iff {word : Keyword} {ts rest : List Token} :
    readKeyword word ts = .ok rest ↔ ∃ t, ts = t :: rest ∧ t.kind = .keyword word := by
  cases ts with
  | nil => simp [readKeyword]
  | cons t ts =>
    by_cases h : t.kind = .keyword word
    · simp [readKeyword, h]
    · simp [readKeyword, h]

lemma readClosing_eq_ok_iff {ts rest : List Token} :
    readClosing ts = .ok rest ↔ ∃ t, ts = t :: rest ∧ t.kind = .closeParen := by
  cases ts with
  | nil => simp [readClosing]
  | cons t ts =>
    by_cases h : t.kind = .closeParen
    · simp [readClosing, h]
    · simp [readClosing, h]

/-- A reader that returns only what the grammar allows. -/
def SoundReader (read : Reader) : Prop :=
  ∀ ⦃least ts e rest⦄, read least ts = .ok (e, rest) → Reads least ts e rest

variable {read : Reader} {least : Power} {start ts rest bound : List Token} {left e : Expr}

lemma readGroup_sound (hread : SoundReader read) (h : readGroup read ts = .ok (e, rest))
    (least : Power) {t : Token} (ht : t.kind = .openParen) : Partial least (t :: ts) e rest := by
  simp only [readGroup, bind_eq_ok_iff, Prod.exists, pure_eq_ok, Except.ok.injEq,
    Prod.mk.injEq] at h
  obtain ⟨inner, ts₁, hinner, ts₂, hclose, rfl, rfl⟩ := h
  obtain ⟨u, rfl, hu⟩ := readClosing_eq_ok_iff.mp hclose
  have hreads := hread hinner
  have hopen := Consumes.mark ht (by decide) (by decide) ts
  have hclose := Consumes.mark hu (by decide) (by decide) ts₂
  exact ⟨hreads.wellLevelled, trivial, .of_edge?_eq_none rfl ts₂,
    hopen.append (hreads.spelled.append hclose)⟩

lemma readConditional_sound (hread : SoundReader read)
    (h : readConditional read ts = .ok (e, rest)) (least : Power) {t : Token}
    (ht : t.kind = .keyword .ifWord) : Partial least (t :: ts) e rest := by
  simp only [readConditional, bind_eq_ok_iff, Prod.exists, pure_eq_ok, Except.ok.injEq,
    Prod.mk.injEq] at h
  obtain ⟨c, ts₁, hc, ts₂, hthen, y, ts₃, hy, ts₄, helse, n, ts₅, hn, ts₆, hend, rfl, rfl⟩ := h
  obtain ⟨u, rfl, hu⟩ := readKeyword_eq_ok_iff.mp hthen
  obtain ⟨v, rfl, hv⟩ := readKeyword_eq_ok_iff.mp helse
  obtain ⟨w, rfl, hw⟩ := readKeyword_eq_ok_iff.mp hend
  have hc := hread hc
  have hy := hread hy
  have hn := hread hn
  have hif := Consumes.mark ht (by decide) (by decide) ts
  have hthen := Consumes.mark hu (by decide) (by decide) ts₂
  have helse := Consumes.mark hv (by decide) (by decide) ts₄
  have hend := Consumes.mark hw (by decide) (by decide) ts₆
  refine ⟨⟨hc.wellLevelled, hy.wellLevelled, hn.wellLevelled⟩, trivial,
    .of_edge?_eq_none rfl ts₆, ?_⟩
  exact hif.append (hc.spelled.append (hthen.append (hy.spelled.append
    (helse.append (hn.spelled.append hend)))))

lemma readAtom_sound (hread : SoundReader read) (h : readAtom read ts = .ok (e, rest))
    (least : Power) : Partial least ts e rest := by
  cases ts with
  | nil => cases h
  | cons t ts =>
    simp only [readAtom, Text.Decimal.valueInGroups_eq_value] at h
    split at h
    · next hk =>
      cases h
      exact ⟨trivial, trivial, .of_edge?_eq_none rfl rest,
        .token (Token.lexeme_eq_number_iff.mpr ⟨hk, rfl⟩) rest⟩
    · next hk =>
      cases h
      exact ⟨trivial, trivial, .of_edge?_eq_none rfl rest,
        .token (Token.lexeme_eq_ident_iff.mpr ⟨hk, rfl⟩) rest⟩
    · next hk => exact readGroup_sound hread h least hk
    · next hk => exact readConditional_sound hread h least hk
    · cases h

lemma readOperand_sound (hread : SoundReader read)
    (h : readOperand read least ts = .ok (e, rest)) : Partial least ts e rest := by
  cases ts with
  | nil => cases h
  | cons t ts =>
    simp only [readOperand] at h
    split at h
    · next op hop =>
      split at h
      · next hle =>
        simp only [bind_eq_ok_iff, Prod.exists, pure_eq_ok, Except.ok.injEq, Prod.mk.injEq] at h
        obtain ⟨operand, ts', hoperand, rfl, rfl⟩ := h
        exact .sign hop hle (hread hoperand)
      · exact readAtom_sound hread h least
    · exact readAtom_sound hread h least

lemma readSuffixes_sound (h : Partial least start left ts)
    (hr : readSuffixes least left ts = (e, rest)) :
    Partial least start e rest ∧ NoSuffix least rest := by
  induction ts generalizing left with
  | nil => cases hr; exact ⟨h, noSuffix_nil least⟩
  | cons t ts ih =>
    simp only [readSuffixes] at hr
    split at hr
    · next op hop =>
      obtain ⟨rfl, hk⟩ := Token.Kind.suffix?_eq_some_iff.mp hop
      split at hr
      · next hle => exact ih (h.factorial hk hle) hr
      · next hle =>
        cases hr
        exact ⟨h, noSuffix_cons_iff.mpr (by simpa [hop] using hle)⟩
    · next hop =>
      cases hr
      exact ⟨h, noSuffix_cons_iff.mpr (by simp [hop])⟩

lemma readOperations_sound (hread : SoundReader read) (h : Partial least start left ts)
    (hs : NoSuffix least ts) (hbound : ts.length ≤ bound.length)
    (hr : readOperations read least bound left ts = .ok (e, rest)) :
    Reads least start e rest := by
  induction bound generalizing left ts with
  | nil =>
    obtain rfl : ts = [] := List.length_eq_zero_iff.mp (Nat.le_zero.mp hbound)
    cases hr
    exact ⟨h.wellLevelled, h.fits, .nil least, h.spelled⟩
  | cons b bound ih =>
    cases ts with
    | nil => cases hr; exact ⟨h.wellLevelled, h.fits, .nil least, h.spelled⟩
    | cons t ts =>
      simp only [readOperations] at hr
      split at hr
      · next op hop =>
        split at hr
        · next hle =>
          simp only [bind_eq_ok_iff, Prod.exists] at hr
          obtain ⟨right, ts', hright, hr⟩ := hr
          have hright := hread hright
          have hlength := hright.spelled.length_eq
          refine ih (h.binary hop hle hright) (hright.stops.noSuffix least) ?_ hr
          simp only [List.length_cons] at hbound
          omega
        · next hle =>
          cases hr
          have ho : NoOperator least (t :: ts) := noOperator_cons_iff.mpr (by simpa [hop] using hle)
          exact ⟨h.wellLevelled, h.fits, ⟨hs, ho⟩, h.spelled⟩
      · next hop =>
        cases hr
        have ho : NoOperator least (t :: ts) := noOperator_cons_iff.mpr (by simp [hop])
        exact ⟨h.wellLevelled, h.fits, ⟨hs, ho⟩, h.spelled⟩

/-- Whatever is read is an expression of the grammar that ends where reading stops. -/
theorem read_sound (depth : Nat) : SoundReader (Expr.read depth) := by
  induction depth with
  | zero => intro least ts e rest h; cases h
  | succ depth ih =>
    intro least ts e rest h
    simp only [Expr.read, bind_eq_ok_iff, Prod.exists] at h
    obtain ⟨left, ts', hleft, h⟩ := h
    obtain ⟨hpartial, hs⟩ := readSuffixes_sound (readOperand_sound ih hleft) rfl
    exact readOperations_sound ih hpartial hs (Nat.le_refl _) h

/-- Whatever the parser returns is a tree of the grammar that the tokens spell. -/
theorem spelled_of_ofTokens {allowance : Allowance} (h : ofTokens allowance ts = .ok e) :
    e.WellLevelled ∧ ts.map Token.lexeme = e.lexemes := by
  unfold ofTokens at h
  split at h
  · cases h
  · next hread =>
    cases h
    have hreads := read_sound _ hread
    obtain ⟨used, hused, hlexemes⟩ := hreads.spelled
    rw [hused, List.append_nil]
    exact ⟨hreads.wellLevelled, hlexemes⟩
  · cases h

end Expr

end Calculator
