import Calculator.Expr.Parsing
import Mathlib.Tactic.Common

/-!
# The grammar of expressions

How a tree is spelled in tokens, and which trees the precedence levels allow. Every operator accepts
operands from a level on; inside parentheses and conditionals any tree may stand, and they are of
the highest level themselves.

The levels are then compared with the powers that reading compares: what a level allows on the left
of an operator is what is complete before it, and what it allows on the right is what binds at least
as tightly as the operator does on that side.
-/

namespace Calculator

open Text

/-! ### Spelling -/

/-- What a token says: the value of a number, the name of a variable, or else only its kind. -/
inductive Lexeme where
  | number (value : Int)
  | ident (name : String)
  | mark (kind : Token.Kind)
  deriving DecidableEq

def Token.lexeme (t : Token) : Lexeme :=
  match t.kind with
  | .number => .number (Decimal.value t.content.toList)
  | .identifier => .ident t.content
  | kind => .mark kind

/-- The kind of the token that an operator is written as. -/
def UnaryOp.kind : UnaryOp → Token.Kind
  | .negate => .minus
  | .identity => .plus
  | .factorial => .bang

/-- The kind of the token that an operator is written as. -/
def BinaryOp.kind : BinaryOp → Token.Kind
  | .add => .plus
  | .subtract => .minus
  | .multiply => .asterisk
  | .divide => .slash
  | .exponent => .caret
  | .assign => .becomes

/-- What a tree looks like on a line, from left to right. -/
def Expr.lexemes : Expr → List Lexeme
  | .number n => [.number n]
  | .ident x => [.ident x]
  | .unary .factorial e => e.lexemes ++ [.mark UnaryOp.factorial.kind]
  | .unary op e => .mark op.kind :: e.lexemes
  | .binary op l r => l.lexemes ++ .mark op.kind :: r.lexemes
  | .group e => .mark .openParen :: (e.lexemes ++ [.mark .closeParen])
  | .conditional c y n =>
    .mark (.keyword .ifWord) :: (c.lexemes ++ .mark (.keyword .thenWord) ::
      (y.lexemes ++ .mark (.keyword .elseWord) :: (n.lexemes ++ [.mark (.keyword .endWord)])))

/-! ### Levels -/

/-- How tightly the outermost operator of a tree binds; what has none binds tightest. -/
def Expr.level : Expr → Nat
  | .binary .assign _ _ => 0
  | .binary .add _ _ | .binary .subtract _ _ => 1
  | .binary .multiply _ _ | .binary .divide _ _ => 2
  | .unary .negate _ | .unary .identity _ => 3
  | .binary .exponent _ _ => 4
  | .unary .factorial _ => 5
  | .number _ | .ident _ | .group _ | .conditional _ _ _ => 6

/-- The least level of the operand of a unary operator. -/
def UnaryOp.operandLevel : UnaryOp → Nat
  | .negate | .identity => 3
  | .factorial => 5

/-- The least level of the left operand of a binary operator. -/
def BinaryOp.leftLevel : BinaryOp → Nat
  | .assign | .add | .subtract => 1
  | .multiply | .divide => 2
  | .exponent => 5

/-- The least level of the right operand of a binary operator. -/
def BinaryOp.rightLevel : BinaryOp → Nat
  | .assign => 0
  | .add | .subtract => 2
  | .multiply | .divide => 3
  | .exponent => 4

namespace Expr

/-- Every operand of the tree is of a level that its operator accepts. -/
def WellLevelled : Expr → Prop
  | .number _ | .ident _ => True
  | .unary op e => op.operandLevel ≤ e.level ∧ e.WellLevelled
  | .binary op l r =>
    (op.leftLevel ≤ l.level ∧ op.rightLevel ≤ r.level) ∧ l.WellLevelled ∧ r.WellLevelled
  | .group e => e.WellLevelled
  | .conditional c y n => c.WellLevelled ∧ y.WellLevelled ∧ n.WellLevelled

instance decidableWellLevelled : DecidablePred WellLevelled
  | .number _ | .ident _ => inferInstanceAs (Decidable True)
  | .unary op e =>
    have := decidableWellLevelled e
    inferInstanceAs (Decidable (op.operandLevel ≤ e.level ∧ e.WellLevelled))
  | .binary op l r =>
    have := decidableWellLevelled l
    have := decidableWellLevelled r
    inferInstanceAs (Decidable ((op.leftLevel ≤ l.level ∧ op.rightLevel ≤ r.level) ∧
      l.WellLevelled ∧ r.WellLevelled))
  | .group e => decidableWellLevelled e
  | .conditional c y n =>
    have := decidableWellLevelled c
    have := decidableWellLevelled y
    have := decidableWellLevelled n
    inferInstanceAs (Decidable (c.WellLevelled ∧ y.WellLevelled ∧ n.WellLevelled))

/-- The number of calls that must be active at a time to read a tree: inside brackets and
conditionals, behind signs and behind operators reading calls itself. -/
def need : Expr → Nat
  | .number _ | .ident _ => 1
  | .unary .factorial e => e.need
  | .unary _ e | .group e => 1 + e.need
  | .binary _ l r => max l.need (1 + r.need)
  | .conditional c y n => 1 + max c.need (max y.need n.need)

lemma one_le_need (e : Expr) : 1 ≤ e.need := by
  induction e with
  | number _ | ident _ => exact Nat.le_refl 1
  | unary op e ih => cases op <;> simp only [need] <;> omega
  | binary op l r ihl _ => simp only [need]; omega
  | group e _ => simp only [need]; omega
  | conditional c y n _ _ _ => simp only [need]; omega

lemma need_le_length_lexemes (e : Expr) : e.need ≤ e.lexemes.length := by
  induction e with
  | number _ | ident _ => exact Nat.le_refl 1
  | unary op e ih =>
    cases op <;> simp only [need, lexemes, List.length_append, List.length_cons] <;> omega
  | binary op l r ihl ihr =>
    simp only [need, lexemes, List.length_append, List.length_cons]
    omega
  | group e ih =>
    simp only [need, lexemes, List.length_append, List.length_cons]
    omega
  | conditional c y n ihc ihy ihn =>
    simp only [need, lexemes, List.length_append, List.length_cons]
    omega

end Expr

/-! ### Kinds of tokens -/

namespace Token

lemma lexeme_of_kind {t : Token} {k : Kind} (h : t.kind = k) (hn : k ≠ .number)
    (hi : k ≠ .identifier) : t.lexeme = .mark k := by
  subst h
  unfold lexeme
  split
  · next h => exact absurd h hn
  · next h => exact absurd h hi
  · rfl

lemma kind_of_lexeme_eq_mark {t : Token} {k : Kind} (h : t.lexeme = .mark k) : t.kind = k := by
  unfold lexeme at h
  split at h
  · cases h
  · cases h
  · cases h; rfl

lemma lexeme_eq_number_iff {t : Token} {n : Int} :
    t.lexeme = .number n ↔ t.kind = .number ∧ Decimal.value t.content.toList = n := by
  unfold lexeme
  split
  · next h => simp [h]
  · next h => simp [h]
  · next h _ => simpa using fun hk => (h hk).elim

lemma lexeme_eq_ident_iff {t : Token} {x : String} :
    t.lexeme = .ident x ↔ t.kind = .identifier ∧ t.content = x := by
  unfold lexeme
  split
  · next h => simp [h]
  · next h => simp [h]
  · next _ h => simpa using fun hk => (h hk).elim

namespace Kind

lemma sign?_eq_some_iff {k : Kind} {op : UnaryOp} :
    k.sign? = some op ↔ op ≠ .factorial ∧ k = op.kind := by
  cases k <;> cases op <;> simp [sign?, UnaryOp.kind]

lemma suffix?_eq_some_iff {k : Kind} {op : UnaryOp} :
    k.suffix? = some op ↔ op = .factorial ∧ k = .bang := by
  cases k <;> cases op <;> simp [suffix?]

lemma operator?_eq_some_iff {k : Kind} {op : BinaryOp} :
    k.operator? = some op ↔ k = op.kind := by
  cases k <;> cases op <;> simp [operator?, BinaryOp.kind]

end Kind

end Token

/-! ### Levels and powers -/

@[simp] lemma UnaryOp.power_negate : UnaryOp.negate.power = 8 := rfl

@[simp] lemma UnaryOp.power_identity : UnaryOp.identity.power = 8 := rfl

@[simp] lemma UnaryOp.power_factorial : UnaryOp.factorial.power = 12 := rfl

@[simp] lemma BinaryOp.binding_assign : BinaryOp.assign.binding = ⟨2, 1⟩ := rfl

@[simp] lemma BinaryOp.binding_add : BinaryOp.add.binding = ⟨3, 4⟩ := rfl

@[simp] lemma BinaryOp.binding_subtract : BinaryOp.subtract.binding = ⟨3, 4⟩ := rfl

@[simp] lemma BinaryOp.binding_multiply : BinaryOp.multiply.binding = ⟨5, 6⟩ := rfl

@[simp] lemma BinaryOp.binding_divide : BinaryOp.divide.binding = ⟨5, 6⟩ := rfl

@[simp] lemma BinaryOp.binding_exponent : BinaryOp.exponent.binding = ⟨10, 9⟩ := rfl

/-- No suffix at the front of `ts` takes what is read for `least` as its operand. -/
def NoSuffix (least : Power) (ts : List Token) : Prop :=
  ∀ t ∈ ts.head?, ∀ op ∈ t.kind.suffix?, op.power < least

/-- No operator at the front of `ts` takes what is read for `least` as its left operand. -/
def NoOperator (least : Power) (ts : List Token) : Prop :=
  ∀ t ∈ ts.head?, ∀ op ∈ t.kind.operator?, op.binding.left < least

/-- Reading for `least` ends in front of `ts`. -/
structure Stops (least : Power) (ts : List Token) : Prop where
  suffix : NoSuffix least ts
  operator : NoOperator least ts

section Stops

variable {least least' : Power} {t : Token} {ts : List Token}

lemma noSuffix_nil (least : Power) : NoSuffix least [] := by simp [NoSuffix]

lemma noSuffix_cons_iff :
    NoSuffix least (t :: ts) ↔ ∀ op ∈ t.kind.suffix?, op.power < least := by
  simp [NoSuffix]

lemma noOperator_nil (least : Power) : NoOperator least [] := by simp [NoOperator]

lemma noOperator_cons_iff :
    NoOperator least (t :: ts) ↔ ∀ op ∈ t.kind.operator?, op.binding.left < least := by
  simp [NoOperator]

lemma Stops.nil (least : Power) : Stops least [] := ⟨noSuffix_nil least, noOperator_nil least⟩

/-- A token that is no operator stops every expression. -/
lemma Stops.of_kind (hs : t.kind.suffix? = none) (ho : t.kind.operator? = none) (least : Power)
    (ts : List Token) : Stops least (t :: ts) :=
  ⟨noSuffix_cons_iff.mpr (by simp [hs]), noOperator_cons_iff.mpr (by simp [ho])⟩

lemma Stops.mono (h : Stops least ts) (hle : least ≤ least') : Stops least' ts where
  suffix t ht op hop := Int.lt_of_lt_of_le (h.suffix t ht op hop) hle
  operator t ht op hop := Int.lt_of_lt_of_le (h.operator t ht op hop) hle

/-- A suffix behind a binary operation is taken by its right operand. -/
lemma Stops.noSuffix {op : BinaryOp} (h : Stops op.binding.right ts) (least : Power) :
    NoSuffix least ts := by
  intro t ht op' hop'
  have hlt := h.suffix t ht op' hop'
  obtain ⟨rfl, -⟩ := Token.Kind.suffix?_eq_some_iff.mp hop'
  have hle : op.binding.right ≤ UnaryOp.factorial.power := by cases op <;> decide
  exact absurd hlt (Int.not_lt.mpr hle)

/-- What stops at the left power of an operator stops at its right power. -/
lemma Stops.right_of_left {op : BinaryOp} (h : Stops op.binding.left ts) :
    Stops op.binding.right ts where
  suffix t ht op' hop' := by
    have hlt := h.suffix t ht op' hop'
    obtain ⟨rfl, -⟩ := Token.Kind.suffix?_eq_some_iff.mp hop'
    revert hlt
    cases op <;> decide
  operator t ht op' hop' := by
    have hlt := h.operator t ht op' hop'
    revert hlt
    cases op <;> cases op' <;> decide

end Stops

namespace Expr

/-- The outermost operator binds its first operand with at least the power `least`. -/
def Fits (least : Power) : Expr → Prop
  | .unary op _ => least ≤ op.power
  | .binary op _ _ => least ≤ op.binding.left
  | _ => True

/-- The power for which the last operand was read, if the tree ends with an operand. -/
def edge? : Expr → Option Power
  | .unary .factorial _ => none
  | .unary op _ => some op.power
  | .binary op _ _ => some op.binding.right
  | _ => none

/-- The tokens `ts` behind the tree do not belong to its last operand. -/
def ClosedBefore (e : Expr) (ts : List Token) : Prop := ∀ least ∈ e.edge?, Stops least ts

lemma operandLevel_sign_iff {op : UnaryOp} (hop : op ≠ .factorial) (e : Expr) :
    op.operandLevel ≤ e.level ↔ e.Fits op.power := by
  cases op with
  | factorial => exact absurd rfl hop
  | negate | identity =>
    cases e with
    | unary op' _ => cases op' <;> simp [level, Fits, UnaryOp.operandLevel]
    | binary op' _ _ => cases op' <;> simp [level, Fits, UnaryOp.operandLevel]
    | _ => simp [level, Fits, UnaryOp.operandLevel]

/-- What a factorial accepts as its operand does not end with an operand of its own. -/
lemma operandLevel_factorial_iff (e : Expr) :
    UnaryOp.factorial.operandLevel ≤ e.level ↔ e.edge? = none := by
  cases e with
  | unary op' _ => cases op' <;> simp [level, edge?, UnaryOp.operandLevel]
  | binary op' _ _ => cases op' <;> simp [level, edge?, UnaryOp.operandLevel]
  | _ => simp [level, edge?, UnaryOp.operandLevel]

/-- An operator accepts a tree on its left if the tree has ended before the operator. -/
lemma leftLevel_le_iff (op : BinaryOp) (l : Expr) :
    op.leftLevel ≤ l.level ↔ ∀ least ∈ l.edge?, op.binding.left < least := by
  cases l with
  | unary op' _ => cases op' <;> cases op <;> simp [level, edge?, BinaryOp.leftLevel]
  | binary op' _ _ => cases op' <;> cases op <;> simp [level, edge?, BinaryOp.leftLevel]
  | _ => cases op <;> simp [level, edge?, BinaryOp.leftLevel]

/-- An operator accepts a tree on its right if the tree binds at least as tightly as it does. -/
lemma rightLevel_le_iff (op : BinaryOp) (r : Expr) :
    op.rightLevel ≤ r.level ↔ r.Fits op.binding.right := by
  cases r with
  | unary op' _ => cases op' <;> cases op <;> simp [level, Fits, BinaryOp.rightLevel]
  | binary op' _ _ => cases op' <;> cases op <;> simp [level, Fits, BinaryOp.rightLevel]
  | _ => cases op <;> simp [level, Fits, BinaryOp.rightLevel]

lemma Fits.mono {e : Expr} {least least' : Power} (h : e.Fits least') (hle : least ≤ least') :
    e.Fits least := by
  cases e with
  | unary _ _ | binary _ _ _ => exact Int.le_trans hle h
  | _ => trivial

lemma fits_zero (e : Expr) : e.Fits 0 := by
  cases e with
  | unary op _ => cases op <;> simp [Fits]
  | binary op _ _ => cases op <;> simp [Fits]
  | _ => trivial

/-- The left operand of an operator binds at least as tightly as the operator. -/
lemma fits_of_leftLevel_le {op : BinaryOp} {l : Expr} (h : op.leftLevel ≤ l.level) :
    l.Fits op.binding.left := by
  revert h
  cases l with
  | unary op' _ => cases op' <;> cases op <;> simp [level, Fits, BinaryOp.leftLevel]
  | binary op' _ _ => cases op' <;> cases op <;> simp [level, Fits, BinaryOp.leftLevel]
  | _ => simp [Fits]

lemma ClosedBefore.of_edge?_eq_none {e : Expr} (h : e.edge? = none) (ts : List Token) :
    e.ClosedBefore ts := by
  intro q hq
  rw [h] at hq
  cases hq

/-- What stops a tree stops its last operand. -/
lemma closedBefore_of_stops {e : Expr} {least : Power} {ts : List Token} (hfits : e.Fits least)
    (hstops : Stops least ts) : e.ClosedBefore ts := by
  intro q hq
  cases e with
  | unary op e =>
    cases op with
    | factorial => cases hq
    | negate | identity => cases hq; exact hstops.mono hfits
  | binary op l r => cases hq; exact (hstops.mono hfits).right_of_left
  | _ => cases hq

/-- A suffix behind a tree is taken by its last operand, if it has one. -/
lemma ClosedBefore.edge?_eq_none {e : Expr} {t : Token} {ts : List Token}
    (h : e.ClosedBefore (t :: ts)) (ht : t.kind.suffix? = some .factorial) : e.edge? = none := by
  cases hq : e.edge? with
  | none => rfl
  | some q =>
    have hlt : UnaryOp.factorial.power < q := (h q hq).suffix t rfl .factorial ht
    have hle : q ≤ UnaryOp.factorial.power := by
      cases e with
      | unary op _ => cases op <;> cases hq <;> decide
      | binary op _ _ => cases op <;> cases hq <;> decide
      | _ => cases hq
    exact absurd hlt (Int.not_lt.mpr hle)

end Expr

end Calculator
