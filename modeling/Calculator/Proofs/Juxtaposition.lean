import Calculator.Proofs.Cutting.Joining
import Calculator.Proofs.Grammar.Completeness
import Calculator.Proofs.Pushdown.ViablePrefix

/-!
# Two expressions one behind the other

The tokens of two expressions in a row are no expression, unless the second one begins with a sign.
Then the sign is taken for an operator between the two, and every other token keeps the part that
it has in its own expression.

The pass with a stack shows this. Where the first expression ends nothing is open, whatever powers
its last operands were read for, so what follows is either refused at once or a sign, behind which
the pass is where it would be had the sign been the first token.
-/

namespace Calculator

/-! ### The parts that tokens have -/

/-- The part of a token in an expression. -/
inductive Role where
  | leaf
  | unary (op : UnaryOp)
  | binary (op : BinaryOp)
  | delimiter
  deriving DecidableEq

/-- The parts of the tokens of a tree, from left to right. -/
def Expr.roles : Expr → List Role
  | .number _ | .ident _ => [.leaf]
  | .unary .factorial e => e.roles ++ [.unary .factorial]
  | .unary op e => .unary op :: e.roles
  | .binary op l r => l.roles ++ .binary op :: r.roles
  | .group e => .delimiter :: (e.roles ++ [.delimiter])
  | .conditional c y n =>
    .delimiter :: (c.roles ++ .delimiter ::
      (y.roles ++ .delimiter :: (n.roles ++ [.delimiter])))

namespace Token.Kind

/-- The part of a token, which stands behind a complete operand or does not. -/
def role (behind : Bool) (k : Kind) : Role :=
  match k with
  | .number | .identifier => .leaf
  | .bang => .unary .factorial
  | k =>
    if behind then (k.operator?.map Role.binary).getD .delimiter
    else (k.sign?.map Role.unary).getD .delimiter

/-- A token of the kind ends an operand. -/
def endsOperand : Kind → Bool
  | .number | .identifier | .bang | .closeParen | .keyword .endWord => true
  | _ => false

end Token.Kind

lemma BinaryOp.role_kind (op : BinaryOp) : op.kind.role true = .binary op := by
  cases op <;> rfl

lemma BinaryOp.endsOperand_kind (op : BinaryOp) : op.kind.endsOperand = false := by
  cases op <;> rfl

/-- The parts of tokens of which the first one stands behind a complete operand or does not. -/
def rolesFrom (behind : Bool) : List Token → List Role
  | [] => []
  | t :: ts => t.kind.role behind :: rolesFrom t.kind.endsOperand ts

section Roles

variable {e : Expr} {k : Token.Kind} {ls : List Lexeme} {ts rest : List Token}

lemma Consumes.rolesFrom_mark (h : Consumes (.mark k :: ls) ts rest) (behind : Bool) :
    ∃ ts', rolesFrom behind ts = k.role behind :: rolesFrom k.endsOperand ts' ∧
      Consumes ls ts' rest := by
  obtain ⟨t, ts', rfl, rfl, hls⟩ := h.exists_of_mark
  exact ⟨ts', rfl, hls⟩

lemma Consumes.rolesFrom_delimiter (h : Consumes (.mark k :: (e.lexemes ++ ls)) ts rest)
    (behind : Bool) (hrole : k.role behind = .delimiter ∧ k.endsOperand = false)
    (he : ∀ {ts rest}, Consumes e.lexemes ts rest →
      rolesFrom false ts = e.roles ++ rolesFrom true rest) :
    ∃ mid, rolesFrom behind ts = .delimiter :: (e.roles ++ rolesFrom true mid) ∧
      Consumes ls mid rest := by
  obtain ⟨ts', hmark, h⟩ := h.rolesFrom_mark behind
  obtain ⟨mid, hspelled, h⟩ := h.exists_of_append
  rw [hrole.1, hrole.2, he hspelled] at hmark
  exact ⟨mid, hmark, h⟩

/-- The tokens of a tree have their parts in it, and behind them an operand is complete. -/
lemma Expr.rolesFrom_eq (h : Consumes e.lexemes ts rest) :
    rolesFrom false ts = e.roles ++ rolesFrom true rest := by
  induction e generalizing ts rest with
  | number n =>
    obtain ⟨t, ts', rfl, ht, h⟩ := h.exists_of_cons
    obtain rfl := h.eq_of_nil
    rw [rolesFrom, (Token.lexeme_eq_number_iff.mp ht).1]
    rfl
  | ident x =>
    obtain ⟨t, ts', rfl, ht, h⟩ := h.exists_of_cons
    obtain rfl := h.eq_of_nil
    rw [rolesFrom, (Token.lexeme_eq_ident_iff.mp ht).1]
    rfl
  | unary op e ih =>
    cases op with
    | factorial =>
      obtain ⟨mid, he, h⟩ := h.exists_of_append
      obtain ⟨ts', hbang, h⟩ := h.rolesFrom_mark true
      obtain rfl := h.eq_of_nil
      rw [ih he, hbang, roles, List.append_assoc]
      rfl
    | negate | identity =>
      obtain ⟨ts', hsign, h⟩ := h.rolesFrom_mark false
      rw [hsign]
      exact congrArg _ (ih h)
  | binary op l r ihl ihr =>
    obtain ⟨mid, hl, h⟩ := h.exists_of_append
    obtain ⟨ts', hop, hr⟩ := h.rolesFrom_mark true
    rw [op.role_kind, op.endsOperand_kind, ihr hr] at hop
    rw [ihl hl, hop, roles, List.append_assoc, List.cons_append]
  | group e ih =>
    obtain ⟨mid, hopen, h⟩ := h.rolesFrom_delimiter false ⟨rfl, rfl⟩ ih
    obtain ⟨ts', hclose, h⟩ := h.rolesFrom_mark true
    obtain rfl := h.eq_of_nil
    rw [hopen, hclose, roles, List.cons_append, List.append_assoc]
    rfl
  | conditional c y n ihc ihy ihn =>
    obtain ⟨mid₁, hif, h⟩ := h.rolesFrom_delimiter false ⟨rfl, rfl⟩ ihc
    obtain ⟨mid₂, hthen, h⟩ := h.rolesFrom_delimiter true ⟨rfl, rfl⟩ ihy
    obtain ⟨mid₃, helse, h⟩ := h.rolesFrom_delimiter true ⟨rfl, rfl⟩ ihn
    obtain ⟨ts', hend, h⟩ := h.rolesFrom_mark true
    obtain rfl := h.eq_of_nil
    rw [hif, hthen, helse, hend, roles]
    simp only [List.cons_append, List.append_assoc, List.nil_append]
    rfl

/-- The parts of tokens that form an expression can be told without it. -/
lemma Expr.roles_eq (h : ts.map Token.lexeme = e.lexemes) : e.roles = rolesFrom false ts := by
  have hspelled : Consumes e.lexemes ts [] := ⟨ts, (List.append_nil ts).symm, h⟩
  rw [rolesFrom_eq hspelled, rolesFrom, List.append_nil]

end Roles

/-! ### The pass over what is appended -/

namespace Scan

variable {s : Scan} {t : Token} {ts ts' : List Token} {stack : List Opened}

lemma exists_step_of_verdict (h : s.verdict (t :: ts) = .ok ()) :
    ∃ s', s.step t = .ok s' ∧ s'.verdict ts = .ok () := by
  cases hstep : s.step t with
  | error cause => rw [verdict, hstep] at h; cases h
  | ok s' => exact ⟨s', rfl, verdict_of_step hstep ▸ h⟩

/-- Behind what it accepts the pass goes on behind an operand, with nothing open. -/
lemma verdict_append (h : s.verdict ts = .ok ()) (ts' : List Token) :
    s.verdict (ts ++ ts') = verdict ⟨.operator, []⟩ ts' := by
  induction ts generalizing s with
  | nil =>
    obtain ⟨expected, stack⟩ := s
    cases expected with
    | operand signed => cases h
    | operator =>
      cases stack with
      | nil => rfl
      | cons opened stack => cases opened <;> cases h
  | cons t ts ih =>
    obtain ⟨s', hstep, hrest⟩ := exists_step_of_verdict h
    rw [List.cons_append, verdict_of_step hstep]
    exact ih hrest

/-- Behind an operand the pass takes a sign as in front of one. -/
lemma step_sign_behind {op : UnaryOp} (hop : t.kind.sign? = some op) :
    step ⟨.operator, stack⟩ t = step ⟨.operand true, stack⟩ t := by
  obtain ⟨hne, hk⟩ := Token.Kind.sign?_eq_some_iff.mp hop
  cases op with
  | factorial => exact absurd rfl hne
  | negate | identity => simp only [step, hk, UnaryOp.kind, if_true]

/-- What begins an operand and is no sign closes nothing. -/
lemma step_behind (h : step ⟨.operand true, stack⟩ t = .ok s) (hsign : t.kind.sign? = none) :
    step ⟨.operator, []⟩ t = .error (.expectedEnd t) := by
  cases hk : t.kind with
  | plus | minus => rw [hk] at hsign; cases hsign
  | number | identifier | openParen => simp only [step, hk, close]
  | keyword word =>
    cases word with
    | ifWord => simp only [step, hk, close]
    | _ => simp only [step, hk] at h; cases h
  | _ => simp only [step, hk] at h; cases h

end Scan

/-! ### The parser -/

namespace Token

lemma lexeme_shift (offset : Nat) (t : Token) : (t.shift offset).lexeme = t.lexeme := rfl

/-- A sign is a unary operator in front of an operand and a binary one behind it. -/
lemma Kind.role_sign {k : Kind} {sign : UnaryOp} (h : k.sign? = some sign) :
    k.role false = .unary sign ∧ ∃ op, k.operator? = some op ∧ k.role true = .binary op := by
  obtain ⟨hne, rfl⟩ := Kind.sign?_eq_some_iff.mp h
  cases sign with
  | factorial => exact absurd rfl hne
  | negate => exact ⟨rfl, .subtract, rfl, rfl⟩
  | identity => exact ⟨rfl, .add, rfl, rfl⟩

end Token

namespace Expr

/-- The parser answers `x`, unless a limit makes it give up on the nesting. -/
def Answers (ts : List Token) (x : Except Stop Expr) : Prop :=
  ofTokens .unlimited ts = x ∧ ∀ allowance, UpToNesting (ofTokens allowance ts) x

/-- What the parser answers on the tokens `ts` of `e` and behind them the tokens `ts'` of `e'`. If
the first one of `ts'` is no sign, it is where the end was expected. If it is one, it becomes the
binary operator that it stands for as well, and no other token changes its part. -/
def Juxtaposed (ts ts' : List Token) (e e' : Expr) : Prop :=
  ∃ t rest, ts' = t :: rest ∧
    match t.kind.sign? with
    | none => Answers (ts ++ ts') (.error ⟨.expectedEnd t, ts'⟩)
    | some sign => ∃ joined op roles, Answers (ts ++ ts') (.ok joined) ∧
        t.kind.operator? = some op ∧ e'.roles = .unary sign :: roles ∧
        joined.roles = e.roles ++ .binary op :: roles

section Parser

variable {ts ts' : List Token} {e e' : Expr} {x : Except Stop Expr}

lemma Answers.of_unlimited (h : ofTokens .unlimited ts = x) : Answers ts x :=
  ⟨h, fun allowance => h ▸ ofTokens_upToNesting allowance ts⟩

/-- The pass accepts the tokens of a well-levelled tree. -/
lemma verdict_start_of_lexemes (hw : e.WellLevelled) (h : ts.map Token.lexeme = e.lexemes) :
    Scan.start.verdict ts = .ok () := by
  have hread : readWithin .unlimited 0 ts = .ok (e, []) :=
    readWithin_unlimited_eq_ok_iff.mpr (.of_lexemes hw h)
  exact verdict_start_of_eq_ok (ofTokens_unlimited_eq_ok_iff.mpr hread)

lemma juxtaposed_of_lexemes (hw : e.WellLevelled) (h : ts.map Token.lexeme = e.lexemes)
    (hw' : e'.WellLevelled) (h' : ts'.map Token.lexeme = e'.lexemes) : Juxtaposed ts ts' e e' := by
  have hverdict := Scan.verdict_append (verdict_start_of_lexemes hw h) ts'
  have hverdict' := verdict_start_of_lexemes hw' h'
  cases ts' with
  | nil => cases hverdict'
  | cons t rest =>
    refine ⟨t, rest, rfl, ?_⟩
    cases hsign : t.kind.sign? with
    | none =>
      obtain ⟨s, hstep, -⟩ := Scan.exists_step_of_verdict hverdict'
      rw [Scan.verdict, Scan.step_behind hstep hsign] at hverdict
      exact .of_unlimited (eq_error_of_verdict_start hverdict)
    | some sign =>
      -- behind the sign the pass is where it is in the second list alone, which it accepts
      have hstep : Scan.step ⟨.operator, []⟩ t = Scan.start.step t := Scan.step_sign_behind hsign
      obtain ⟨hfront, op, hop, hbehind⟩ := Token.Kind.role_sign hsign
      rw [Scan.verdict, hstep, ← Scan.verdict, hverdict'] at hverdict
      obtain ⟨joined, hjoined⟩ := exists_eq_ok_of_verdict_start hverdict
      refine ⟨joined, op, rolesFrom t.kind.endsOperand rest, .of_unlimited hjoined, hop, ?_, ?_⟩
      · rw [roles_eq h', rolesFrom, hfront]
      · have hspelled : Consumes e.lexemes (ts ++ t :: rest) (t :: rest) := ⟨ts, rfl, h⟩
        rw [roles_eq (spelled_of_ofTokens hjoined).2, rolesFrom_eq hspelled, rolesFrom, hbehind]

end Parser

/-- Two expressions in a row are no expression, unless the second one begins with a sign, which
then is an operator between them. The same holds for texts with space between them, where the
tokens of the second one have moved. -/
theorem ofTokens_juxtaposed {allowance allowance' : Allowance} {ts ts' : List Token} {e e' : Expr}
    (h : ofTokens allowance ts = .ok e) (h' : ofTokens allowance' ts' = .ok e') :
    Juxtaposed ts ts' e e' ∧
      ∀ text text' gap : String, Token.ofText text = .ok ts → Token.ofText text' = .ok ts' →
        gap ≠ "" → (∀ c ∈ gap.toList, Token.isSpace c = true) →
        ∃ moved, moved = ts'.map (Token.shift (text.length + gap.length)) ∧
          Token.ofText (text ++ gap ++ text') = .ok (ts ++ moved) ∧ Juxtaposed ts moved e e' := by
  obtain ⟨hw, hlexemes⟩ := spelled_of_ofTokens h
  obtain ⟨hw', hlexemes'⟩ := spelled_of_ofTokens h'
  refine ⟨juxtaposed_of_lexemes hw hlexemes hw' hlexemes', ?_⟩
  intro text text' gap htext htext' hne hgap
  refine ⟨_, rfl, Token.ofText_append_space htext htext' hne hgap, ?_⟩
  refine juxtaposed_of_lexemes hw hlexemes hw' ?_
  rw [List.map_map, ← hlexemes']
  exact List.map_congr_left fun t _ => Token.lexeme_shift _ t

/-- The lines `x := 2 ^ 3` and `- 4 * y !`, of which the second one continues the first one. -/
theorem ofTokens_juxtaposed_lines :
    let ts : List Token := [⟨.identifier, 0, 1, "x"⟩, ⟨.becomes, 2, 4, ":="⟩,
      ⟨.number, 5, 6, "2"⟩, ⟨.caret, 7, 8, "^"⟩, ⟨.number, 9, 10, "3"⟩]
    let ts' : List Token := [⟨.minus, 0, 1, "-"⟩, ⟨.number, 2, 3, "4"⟩, ⟨.asterisk, 4, 5, "*"⟩,
      ⟨.identifier, 6, 7, "y"⟩, ⟨.bang, 8, 9, "!"⟩]
    let e := binary .assign (ident "x") (binary .exponent (number 2) (number 3))
    let e' := binary .multiply (unary .negate (number 4)) (unary .factorial (ident "y"))
    (ofTokens .standard ts = .ok e ∧ ofTokens .standard ts' = .ok e') ∧
      Juxtaposed ts ts' e e' ∧
      ∃ moved, Token.ofText ("x := 2 ^ 3" ++ "\n" ++ "- 4 * y !") = .ok (ts ++ moved) ∧
        moved.head? = some ⟨.minus, 11, 12, "-"⟩ ∧ Juxtaposed ts moved e e' := by
  intro ts ts' e e'
  have h : ofTokens .standard ts = .ok e := rfl
  have h' : ofTokens .standard ts' = .ok e' := rfl
  have htext : Token.ofText "x := 2 ^ 3" = .ok ts := by decide +kernel
  have htext' : Token.ofText "- 4 * y !" = .ok ts' := by decide +kernel
  obtain ⟨hjoined, hlines⟩ := ofTokens_juxtaposed h h'
  obtain ⟨moved, rfl, hmoved, hjoined'⟩ :=
    hlines _ _ "\n" htext htext' (by decide) (by simp [Token.isSpace])
  exact ⟨⟨h, h'⟩, hjoined, _, hmoved, by decide +kernel, hjoined'⟩

end Expr

end Calculator
