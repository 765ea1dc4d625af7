import Calculator.Proofs.Nesting

/-!
# Every expression is read

A well-levelled tree is read from any tokens that spell it, as long as it may be nested deeply
enough. The proof is by induction on the tree, for all least powers and all tokens that follow:
after the tokens of a tree, reading goes on as if the tree were an operand that has just been taken.
Where the tokens behind it stop reading, it is the result.
-/

namespace Calculator

namespace Consumes

variable {ls ls' : List Lexeme} {l : Lexeme} {ts rest : List Token}

lemma eq_of_nil (h : Consumes [] ts rest) : ts = rest := by
  obtain ⟨used, rfl, hused⟩ := h
  rw [List.map_eq_nil_iff.mp hused, List.nil_append]

lemma exists_of_append (h : Consumes (ls ++ ls') ts rest) :
    ∃ mid, Consumes ls ts mid ∧ Consumes ls' mid rest := by
  obtain ⟨used, rfl, hused⟩ := h
  obtain ⟨us, vs, rfl, hus, hvs⟩ := List.map_eq_append_iff.mp hused
  exact ⟨vs ++ rest, ⟨us, by simp, hus⟩, ⟨vs, rfl, hvs⟩⟩

lemma exists_of_cons (h : Consumes (l :: ls) ts rest) :
    ∃ t ts', ts = t :: ts' ∧ t.lexeme = l ∧ Consumes ls ts' rest := by
  obtain ⟨used, rfl, hused⟩ := h
  obtain ⟨t, us, rfl, ht, hus⟩ := List.map_eq_cons_iff.mp hused
  exact ⟨t, us ++ rest, rfl, ht, us, rfl, hus⟩

lemma exists_of_mark {k : Token.Kind} (h : Consumes (.mark k :: ls) ts rest) :
    ∃ t ts', ts = t :: ts' ∧ t.kind = k ∧ Consumes ls ts' rest := by
  obtain ⟨t, ts', rfl, ht, h⟩ := h.exists_of_cons
  exact ⟨t, ts', rfl, Token.kind_of_lexeme_eq_mark ht, h⟩

end Consumes

namespace Expr

/-! ### Going on behind an operand -/

/-- The rounds of the loop are bounded by the tokens, so that the bound makes no difference. -/
lemma readOperations_bound {read : Reader} (hread : SoundReader read) (least : Power)
    {bound bound' ts : List Token} (hb : ts.length ≤ bound.length)
    (hb' : ts.length ≤ bound'.length) (left : Expr) :
    readOperations read least bound left ts = readOperations read least bound' left ts := by
  induction bound generalizing bound' left ts with
  | nil =>
    obtain rfl : ts = [] := List.length_eq_zero_iff.mp (Nat.le_zero.mp hb)
    cases bound' <;> rfl
  | cons b bound ih =>
    cases ts with
    | nil => cases bound' <;> rfl
    | cons t ts =>
      obtain ⟨b', bound', rfl⟩ := List.exists_cons_of_length_pos
        (Nat.lt_of_lt_of_le (Nat.succ_pos _) hb')
      simp only [List.length_cons, Nat.add_le_add_iff_right] at hb hb'
      simp only [readOperations]
      split
      · split
        · next op _ _ =>
          cases hright : read op.binding.right ts with
          | error stop => rfl
          | ok result =>
            obtain ⟨right, ts'⟩ := result
            have hlength := (hread hright).spelled.length_eq
            have hb : ts'.length ≤ bound.length := by omega
            have hb' : ts'.length ≤ bound'.length := by omega
            exact ih hb hb' (.binary op left right)
        · rfl
      · rfl

/-- What reading does behind its first operand. -/
def readOn (depth : Nat) (least : Power) (left : Expr) (ts : List Token) :
    Except Stop (Expr × List Token) :=
  let (left, ts) := readSuffixes least left ts
  readOperations (Expr.read depth) least ts left ts

variable {depth : Nat} {least : Power} {t : Token} {ts ts' rest : List Token} {left right e : Expr}

lemma read_of_readOperand (h : readOperand (Expr.read depth) least ts = .ok (left, ts')) :
    Expr.read (depth + 1) least ts = readOn depth least left ts' := by
  simp only [Expr.read, h, ok_bind, readOn]

lemma readSuffixes_of_noSuffix (h : NoSuffix least ts) (left : Expr) :
    readSuffixes least left ts = (left, ts) := by
  cases ts with
  | nil => rfl
  | cons t ts =>
    simp only [readSuffixes]
    split
    · next op hop => rw [if_neg (Int.not_le.mpr (noSuffix_cons_iff.mp h op hop))]
    · rfl

lemma noSuffix_readSuffixes (least : Power) (left : Expr) (ts : List Token) :
    NoSuffix least (readSuffixes least left ts).2 := by
  induction ts generalizing left with
  | nil => exact noSuffix_nil least
  | cons t ts ih =>
    simp only [readSuffixes]
    split
    · next op hop =>
      split
      · exact ih _
      · next hle => exact noSuffix_cons_iff.mpr (by simpa [hop] using hle)
    · next hop => exact noSuffix_cons_iff.mpr (by simp [hop])

lemma readOn_of_noSuffix (h : NoSuffix least ts) (left : Expr) :
    readOn depth least left ts = readOperations (Expr.read depth) least ts left ts := by
  simp only [readOn, readSuffixes_of_noSuffix h]

lemma readOn_of_stops (h : Stops least ts) (left : Expr) :
    readOn depth least left ts = .ok (left, ts) := by
  rw [readOn_of_noSuffix h.suffix]
  cases ts with
  | nil => rfl
  | cons t ts =>
    simp only [readOperations]
    split
    · next op hop => rw [if_neg (Int.not_le.mpr (noOperator_cons_iff.mp h.operator op hop))]
    · rfl

lemma readOn_factorial (ht : t.kind = .bang) (hle : least ≤ UnaryOp.factorial.power)
    (left : Expr) (ts : List Token) :
    readOn depth least left (t :: ts) = readOn depth least (.unary .factorial left) ts := by
  have hop : t.kind.suffix? = some .factorial := by rw [ht]; rfl
  simp only [readOn, readSuffixes, hop, if_pos hle]

lemma readOn_binary {op : BinaryOp} (ht : t.kind = op.kind) (hle : least ≤ op.binding.left)
    (hright : Expr.read depth op.binding.right ts = .ok (right, ts')) (left : Expr) :
    readOn depth least left (t :: ts) = readOn depth least (.binary op left right) ts' := by
  have hreads := read_sound depth hright
  have hlength := hreads.spelled.length_eq
  have hs : NoSuffix least (t :: ts) := by
    rw [noSuffix_cons_iff, ht]
    cases op <;> simp [BinaryOp.kind, Token.Kind.suffix?]
  have hop : t.kind.operator? = some op := Token.Kind.operator?_eq_some_iff.mpr ht
  rw [readOn_of_noSuffix hs, readOn_of_noSuffix (hreads.stops.noSuffix least)]
  simp only [readOperations, hop, if_pos hle, hright, ok_bind]
  exact readOperations_bound (read_sound depth) least (by omega) (Nat.le_refl _) _

/-! ### Reading what spells a tree -/

lemma readOperand_of_sign {op : UnaryOp} (hop : op ≠ .factorial) (ht : t.kind = op.kind)
    (hle : least ≤ op.power) (h : Expr.read depth op.power ts = .ok (e, rest)) :
    readOperand (Expr.read depth) least (t :: ts) = .ok (.unary op e, rest) := by
  have hsign : t.kind.sign? = some op := Token.Kind.sign?_eq_some_iff.mpr ⟨hop, ht⟩
  simp only [readOperand, hsign, if_pos hle, h, ok_bind, pure_eq_ok]

lemma readOperand_eq_readAtom (ht : t.kind.sign? = none) :
    readOperand (Expr.read depth) least (t :: ts) = readAtom (Expr.read depth) (t :: ts) := by
  simp only [readOperand, ht]

lemma readKeyword_of_kind {word : Keyword} (ht : t.kind = .keyword word) (ts : List Token) :
    readKeyword word (t :: ts) = .ok ts := readKeyword_eq_ok_iff.mpr ⟨t, rfl, ht⟩

lemma readClosing_of_kind (ht : t.kind = .closeParen) (ts : List Token) :
    readClosing (t :: ts) = .ok ts := readClosing_eq_ok_iff.mpr ⟨t, rfl, ht⟩

/-- If `e` stands at the front of `ts`, reading goes on behind it. -/
def ReadThrough (e : Expr) : Prop :=
  ∀ ⦃depth least ts rest⦄, Partial least ts e rest → e.need ≤ depth + 1 →
    Expr.read (depth + 1) least ts = readOn depth least e rest

/-- A tree behind which reading stops is the result. -/
lemma ReadThrough.read_eq (h : e.ReadThrough) (hreads : Reads least ts e rest)
    (hneed : e.need ≤ depth) : Expr.read depth least ts = .ok (e, rest) := by
  obtain ⟨depth, rfl⟩ : ∃ d, depth = d + 1 := ⟨depth - 1, by have := one_le_need e; omega⟩
  have hpartial : Partial least ts e rest :=
    ⟨hreads.wellLevelled, hreads.fits, closedBefore_of_stops hreads.fits hreads.stops,
      hreads.spelled⟩
  rw [h hpartial hneed, readOn_of_stops hreads.stops]

variable {c y n : Expr}

lemma readThrough_number (v : Int) : (number v).ReadThrough := by
  intro depth least ts rest h _
  obtain ⟨t, ts', rfl, ht, hnil⟩ := h.spelled.exists_of_cons
  obtain rfl := hnil.eq_of_nil
  obtain ⟨hk, hv⟩ := Token.lexeme_eq_number_iff.mp ht
  apply read_of_readOperand
  rw [readOperand_eq_readAtom (by rw [hk]; rfl)]
  simp only [readAtom, hk, Text.Decimal.valueInGroups_eq_value, hv]

lemma readThrough_ident (x : String) : (ident x).ReadThrough := by
  intro depth least ts rest h _
  obtain ⟨t, ts', rfl, ht, hnil⟩ := h.spelled.exists_of_cons
  obtain rfl := hnil.eq_of_nil
  obtain ⟨hk, hx⟩ := Token.lexeme_eq_ident_iff.mp ht
  apply read_of_readOperand
  rw [readOperand_eq_readAtom (by rw [hk]; rfl)]
  simp only [readAtom, hk, hx]

lemma readThrough_sign {op : UnaryOp} (hop : op ≠ .factorial) (ih : e.ReadThrough) :
    (unary op e).ReadThrough := by
  intro depth least ts rest h hneed
  have hspelled : Consumes (.mark op.kind :: e.lexemes) ts rest := by
    have hs := h.spelled
    cases op with
    | factorial => exact absurd rfl hop
    | negate | identity => exact hs
  have hstops : Stops op.power rest := by
    have hc := h.closed
    cases op with
    | factorial => exact absurd rfl hop
    | negate | identity => exact hc _ rfl
  have hdepth : e.need ≤ depth := by
    cases op with
    | factorial => exact absurd rfl hop
    | negate | identity => simp only [need] at hneed; omega
  obtain ⟨t, ts', rfl, ht, hspelled⟩ := hspelled.exists_of_mark
  have hreads : Reads op.power ts' e rest :=
    ⟨h.wellLevelled.2, (operandLevel_sign_iff hop e).mp h.wellLevelled.1, hstops, hspelled⟩
  apply read_of_readOperand
  exact readOperand_of_sign hop ht h.fits (ih.read_eq hreads hdepth)

lemma readThrough_factorial (ih : e.ReadThrough) : (unary .factorial e).ReadThrough := by
  intro depth least ts rest h hneed
  obtain ⟨mid, hspelled, hmark⟩ := h.spelled.exists_of_append
  obtain ⟨t, ts', rfl, ht, hnil⟩ := hmark.exists_of_mark
  obtain rfl := hnil.eq_of_nil
  have hedge : e.edge? = none := (operandLevel_factorial_iff e).mp h.wellLevelled.1
  have hfits : e.Fits least := by
    cases e with
    | unary op _ => cases op <;> first | exact h.fits | cases hedge
    | binary _ _ _ => cases hedge
    | _ => trivial
  have hpartial : Partial least ts e (t :: ts') :=
    ⟨h.wellLevelled.2, hfits, .of_edge?_eq_none hedge _, hspelled⟩
  rw [ih hpartial hneed, readOn_factorial ht h.fits]

lemma readThrough_binary {op : BinaryOp} (ihl : left.ReadThrough) (ihr : right.ReadThrough) :
    (binary op left right).ReadThrough := by
  intro depth least ts rest h hneed
  obtain ⟨⟨hleft, hright⟩, hwl, hwr⟩ := h.wellLevelled
  obtain ⟨mid, hl, hspelled⟩ := h.spelled.exists_of_append
  obtain ⟨t, ts', rfl, ht, hr⟩ := hspelled.exists_of_mark
  have hstops : Stops op.binding.right rest := h.closed _ rfl
  have hreads : Reads op.binding.right ts' right rest :=
    ⟨hwr, (rightLevel_le_iff op right).mp hright, hstops, hr⟩
  -- the left operand is complete before the operator, which no suffix is
  have hclosed : left.ClosedBefore (t :: ts') := by
    intro q hq
    have hlt := (leftLevel_le_iff op left).mp hleft q hq
    have hop : t.kind.operator? = some op := Token.Kind.operator?_eq_some_iff.mpr ht
    have hs : t.kind.suffix? = none := by rw [ht]; cases op <;> rfl
    exact ⟨noSuffix_cons_iff.mpr (by simp [hs]), noOperator_cons_iff.mpr (by simpa [hop] using hlt)⟩
  have hpartial : Partial least ts left (t :: ts') :=
    ⟨hwl, (fits_of_leftLevel_le hleft).mono h.fits, hclosed, hl⟩
  simp only [need] at hneed
  rw [ihl hpartial (by omega), readOn_binary ht h.fits (ihr.read_eq hreads (by omega))]

lemma readThrough_group (ih : e.ReadThrough) : (group e).ReadThrough := by
  intro depth least ts rest h hneed
  obtain ⟨t, ts', rfl, ht, hspelled⟩ := h.spelled.exists_of_mark
  obtain ⟨mid, he, hmark⟩ := hspelled.exists_of_append
  obtain ⟨u, ts'', rfl, hu, hnil⟩ := hmark.exists_of_mark
  obtain rfl := hnil.eq_of_nil
  have hstops : Stops 0 (u :: ts'') := .of_kind (by rw [hu]; rfl) (by rw [hu]; rfl) 0 ts''
  simp only [need] at hneed
  have he := ih.read_eq ⟨h.wellLevelled, fits_zero e, hstops, he⟩ (by omega : e.need ≤ depth)
  apply read_of_readOperand
  rw [readOperand_eq_readAtom (by rw [ht]; rfl)]
  simp only [readAtom, ht, readGroup, he, ok_bind, readClosing_of_kind hu, pure_eq_ok]

lemma readThrough_conditional (ihc : c.ReadThrough) (ihy : y.ReadThrough)
    (ihn : n.ReadThrough) : (conditional c y n).ReadThrough := by
  intro depth least ts rest h hneed
  obtain ⟨hwc, hwy, hwn⟩ := h.wellLevelled
  obtain ⟨t, ts', rfl, ht, hspelled⟩ := h.spelled.exists_of_mark
  obtain ⟨ts₁, hc, hspelled⟩ := hspelled.exists_of_append
  obtain ⟨u, ts₂, rfl, hu, hspelled⟩ := hspelled.exists_of_mark
  obtain ⟨ts₃, hy, hspelled⟩ := hspelled.exists_of_append
  obtain ⟨v, ts₄, rfl, hv, hspelled⟩ := hspelled.exists_of_mark
  obtain ⟨ts₅, hn, hspelled⟩ := hspelled.exists_of_append
  obtain ⟨w, ts₆, rfl, hw, hnil⟩ := hspelled.exists_of_mark
  obtain rfl := hnil.eq_of_nil
  have stops (word : Keyword) (k : Token) (hk : k.kind = .keyword word) (ts : List Token) :
      Stops 0 (k :: ts) := .of_kind (by rw [hk]; rfl) (by rw [hk]; rfl) 0 ts
  simp only [need] at hneed
  have hc := ihc.read_eq ⟨hwc, fits_zero c, stops _ u hu ts₂, hc⟩ (by omega : c.need ≤ depth)
  have hy := ihy.read_eq ⟨hwy, fits_zero y, stops _ v hv ts₄, hy⟩ (by omega : y.need ≤ depth)
  have hn := ihn.read_eq ⟨hwn, fits_zero n, stops _ w hw ts₆, hn⟩ (by omega : n.need ≤ depth)
  apply read_of_readOperand
  rw [readOperand_eq_readAtom (by rw [ht]; rfl)]
  simp only [readAtom, ht, readConditional, hc, hy, hn, ok_bind, readKeyword_of_kind hu,
    readKeyword_of_kind hv, readKeyword_of_kind hw, pure_eq_ok]

theorem readThrough (e : Expr) : e.ReadThrough := by
  induction e with
  | number v => exact readThrough_number v
  | ident x => exact readThrough_ident x
  | unary op e ih =>
    cases op with
    | factorial => exact readThrough_factorial ih
    | negate | identity => exact readThrough_sign (by decide) ih
  | binary op l r ihl ihr => exact readThrough_binary ihl ihr
  | group e ih => exact readThrough_group ih
  | conditional c y n ihc ihy ihn => exact readThrough_conditional ihc ihy ihn

/-- A tree of the grammar is read if it may be nested deeply enough. -/
theorem read_complete (h : Reads least ts e rest) (hneed : e.need ≤ depth) :
    Expr.read depth least ts = .ok (e, rest) :=
  (readThrough e).read_eq h hneed

/-! ### The grammar and the parser -/

/-- For every least power, reading without a limit returns exactly what the grammar allows. -/
theorem readWithin_unlimited_eq_ok_iff :
    readWithin .unlimited least ts = .ok (e, rest) ↔ Reads least ts e rest := by
  constructor
  · intro h
    exact read_sound _ h
  · intro h
    have hlength := h.spelled.length_eq
    have hneed := need_le_length_lexemes e
    exact read_complete h (by simp only [Allowance.count]; omega)

/-- The tokens of a well-levelled tree are read as that tree. -/
lemma Reads.of_lexemes (hw : e.WellLevelled) (h : ts.map Token.lexeme = e.lexemes) :
    Reads 0 ts e [] :=
  ⟨hw, fits_zero e, .nil 0, ts, (List.append_nil ts).symm, h⟩

lemma ofTokens_unlimited_eq_ok_iff :
    ofTokens .unlimited ts = .ok e ↔ readWithin .unlimited 0 ts = .ok (e, []) := by
  unfold ofTokens
  split
  · next h => simp [h]
  · next h => simp [h]
  · next h => simp [h]

/-- The tree that the tokens spell is returned under every limit that allows the calls it needs. -/
theorem ofTokens_of_need_le {count : Nat} (hw : e.WellLevelled)
    (hlexemes : ts.map Token.lexeme = e.lexemes) (hneed : e.need ≤ count) :
    ofTokens (.levels count) ts = .ok e := by
  have hread : readWithin (.levels count) 0 ts = .ok (e, []) :=
    read_complete (.of_lexemes hw hlexemes) hneed
  rw [ofTokens, hread]

/-- Unless it gives up on the nesting, the parser returns the one well-levelled tree that the tokens
spell, and a tree only then. -/
theorem ofTokens_eq_ok_iff (allowance : Allowance) (ts : List Token) (e : Expr)
    (h : ∀ rest, ofTokens allowance ts ≠ .error ⟨.tooDeep, rest⟩) :
    ofTokens allowance ts = .ok e ↔ e.WellLevelled ∧ e.lexemes = ts.map Token.lexeme := by
  rw [ofTokens_eq_unlimited h, ofTokens_unlimited_eq_ok_iff, readWithin_unlimited_eq_ok_iff]
  constructor
  · intro hreads
    obtain ⟨used, hused, hlexemes⟩ := hreads.spelled
    rw [hused, List.append_nil]
    exact ⟨hreads.wellLevelled, hlexemes.symm⟩
  · rintro ⟨hw, hlexemes⟩
    exact ⟨hw, fits_zero e, .nil 0, ts, by simp, hlexemes.symm⟩

/-- The line `-x^2!`, where the sign binds less tightly than the power. -/
theorem ofTokens_negative_power :
    let ts : List Token := [⟨.minus, 0, 1, "-"⟩, ⟨.identifier, 1, 2, "x"⟩, ⟨.caret, 2, 3, "^"⟩,
      ⟨.number, 3, 4, "2"⟩, ⟨.bang, 4, 5, "!"⟩]
    (∀ rest, ofTokens .standard ts ≠ .error ⟨.tooDeep, rest⟩) ∧
      ofTokens .standard ts =
        .ok (unary .negate (binary .exponent (ident "x") (unary .factorial (number 2)))) := by
  intro ts
  have h : ∀ rest, ofTokens .standard ts ≠ .error ⟨.tooDeep, rest⟩ := by
    have heq : ∃ e, ofTokens .standard ts = .ok e := ⟨_, rfl⟩
    obtain ⟨e, he⟩ := heq
    intro rest
    rw [he]
    exact nofun
  exact ⟨h, (ofTokens_eq_ok_iff .standard ts _ h).mpr ⟨by decide, by decide⟩⟩

end Expr

end Calculator
