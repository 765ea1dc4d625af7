import Calculator.Proofs.Grammar.Soundness
import Calculator.Proofs.Remainder
import Mathlib.Data.List.Forall2

/-!
# Only the kinds of tokens count

Reading decides by the kinds of tokens alone. On tokens of the same kinds it takes the same way,
whatever they contain and wherever they stand: it ends at the same place, with trees that differ
only in the numbers and names at their leaves, or with errors that differ only in the token that
they show.
-/

namespace Calculator

/-- Tokens of the same kinds; what they contain and where they stand may differ. -/
def SameKinds (ts ts' : List Token) : Prop :=
  List.Forall₂ (fun t t' => t.kind = t'.kind) ts ts'

instance (ts ts' : List Token) : Decidable (SameKinds ts ts') :=
  inferInstanceAs (Decidable (List.Forall₂ _ ts ts'))

/-- The causes are the same but for the token that was found, which is `found` for the first one
and `found'` for the second one. -/
inductive ParseError.SameBut (found found' : Option Token) : ParseError → ParseError → Prop where
  | operand : SameBut found found' (.expectedOperand found) (.expectedOperand found')
  | keyword (word : Keyword) :
      SameBut found found' (.expectedKeyword word found) (.expectedKeyword word found')
  | closing : SameBut found found' (.expectedClosing found) (.expectedClosing found')
  | tooDeep : SameBut found found' .tooDeep .tooDeep

namespace Expr

/-- A tree with its leaves left blank. -/
def shape : Expr → Expr
  | .number _ => .number 0
  | .ident _ => .ident ""
  | .unary op e => .unary op e.shape
  | .binary op l r => .binary op l.shape r.shape
  | .group e => .group e.shape
  | .conditional c y n => .conditional c.shape y.shape n.shape

/-! ### Answers that are alike -/

section Alike

variable {α β : Type} {R : α → α → Prop} {S : β → β → Prop}

/-- Both answers are results that `R` relates, or both are errors that name the first token that is
left and agree in everything else. -/
inductive Alike (R : α → α → Prop) : Except Stop α → Except Stop α → Prop where
  | ok {a a' : α} (h : R a a') : Alike R (.ok a) (.ok a')
  | error {cause cause' : ParseError} {rest rest' : List Token}
      (hcause : cause.SameBut rest.head? rest'.head? cause') (hrest : SameKinds rest rest') :
      Alike R (.error ⟨cause, rest⟩) (.error ⟨cause', rest'⟩)

lemma Alike.bind {x x' : Except Stop α} {f f' : α → Except Stop β} (hx : Alike R x x')
    (hf : ∀ a a', R a a' → Alike S (f a) (f' a')) : Alike S (x >>= f) (x' >>= f') := by
  cases hx with
  | ok h => exact hf _ _ h
  | error hcause hrest => exact .error hcause hrest

end Alike

/-- Trees of the same shape, with tokens of the same kinds behind them. -/
def SameResult (r r' : Expr × List Token) : Prop :=
  r.1.shape = r'.1.shape ∧ SameKinds r.2 r'.2

/-! ### Stages of reading -/

variable {ts ts' : List Token}

lemma readKeyword_alike (word : Keyword) (h : SameKinds ts ts') :
    Alike SameKinds (readKeyword word ts) (readKeyword word ts') := by
  cases h with
  | nil => exact .error (.keyword word) .nil
  | @cons t t' ts ts' hk hts =>
    simp only [readKeyword, ← hk]
    split
    · exact .ok hts
    · exact .error (.keyword word) (.cons hk hts)

lemma readClosing_alike (h : SameKinds ts ts') :
    Alike SameKinds (readClosing ts) (readClosing ts') := by
  cases h with
  | nil => exact .error .closing .nil
  | @cons t t' ts ts' hk hts =>
    simp only [readClosing, ← hk]
    split
    · exact .ok hts
    · exact .error .closing (.cons hk hts)

lemma readSuffixes_sameResult (least : Power) {left left' : Expr}
    (hleft : left.shape = left'.shape) (h : SameKinds ts ts') :
    SameResult (readSuffixes least left ts) (readSuffixes least left' ts') := by
  induction h generalizing left left' with
  | nil => exact ⟨hleft, .nil⟩
  | @cons t t' ts ts' hk hts ih =>
    simp only [readSuffixes, ← hk]
    split
    · split
      · exact ih (by rw [shape, shape, hleft])
      · exact ⟨hleft, .cons hk hts⟩
    · exact ⟨hleft, .cons hk hts⟩

section Reader

variable {read : Reader}
  (hread : ∀ least ⦃ts ts'⦄, SameKinds ts ts' → Alike SameResult (read least ts) (read least ts'))

include hread

lemma readGroup_alike (h : SameKinds ts ts') :
    Alike SameResult (readGroup read ts) (readGroup read ts') := by
  refine (hread 0 h).bind fun inner inner' hinner => ?_
  refine (readClosing_alike hinner.2).bind fun ts ts' hts => ?_
  exact .ok ⟨congrArg Expr.group hinner.1, hts⟩

lemma readConditional_alike (h : SameKinds ts ts') :
    Alike SameResult (readConditional read ts) (readConditional read ts') := by
  refine (hread 0 h).bind fun c c' hc => (readKeyword_alike .thenWord hc.2).bind ?_
  refine fun ts₁ ts₁' h₁ => (hread 0 h₁).bind fun y y' hy => ?_
  refine (readKeyword_alike .elseWord hy.2).bind fun ts₂ ts₂' h₂ => ?_
  refine (hread 0 h₂).bind fun n n' hn => (readKeyword_alike .endWord hn.2).bind ?_
  refine fun ts₃ ts₃' h₃ => .ok ⟨?_, h₃⟩
  exact congrArg₂ (· ·) (congrArg₂ Expr.conditional hc.1 hy.1) hn.1

lemma readAtom_alike (h : SameKinds ts ts') :
    Alike SameResult (readAtom read ts) (readAtom read ts') := by
  cases h with
  | nil => exact .error .operand .nil
  | @cons t t' ts ts' hk hts =>
    simp only [readAtom, ← hk]
    split
    · exact .ok ⟨rfl, hts⟩
    · exact .ok ⟨rfl, hts⟩
    · exact readGroup_alike hread hts
    · exact readConditional_alike hread hts
    · exact .error .operand (.cons hk hts)

lemma readOperand_alike (least : Power) (h : SameKinds ts ts') :
    Alike SameResult (readOperand read least ts) (readOperand read least ts') := by
  cases h with
  | nil => exact readAtom_alike hread .nil
  | @cons t t' ts ts' hk hts =>
    have hatom := readAtom_alike hread (.cons hk hts)
    simp only [readOperand, ← hk]
    split
    · next op _ =>
      split
      · refine (hread op.power hts).bind fun e e' he => ?_
        exact .ok ⟨congrArg (Expr.unary op) he.1, he.2⟩
      · exact hatom
    · exact hatom

lemma readOperations_alike (least : Power) {bound bound' : List Token} {left left' : Expr}
    (hbound : SameKinds bound bound') (hleft : left.shape = left'.shape) (h : SameKinds ts ts') :
    Alike SameResult (readOperations read least bound left ts)
      (readOperations read least bound' left' ts') := by
  -- the bounds are lists of tokens as well, and they end together
  induction hbound generalizing left left' ts ts' with
  | nil => cases h <;> exact .ok ⟨hleft, by first | exact .nil | exact .cons ‹_› ‹_›⟩
  | @cons b b' bound bound' _ _ ih =>
    cases h with
    | nil => exact .ok ⟨hleft, .nil⟩
    | @cons t t' ts ts' hk hts =>
      simp only [readOperations, ← hk]
      split
      · next op _ =>
        split
        · refine (hread op.binding.right hts).bind fun right right' hright => ?_
          exact ih (congrArg₂ (Expr.binary op) hleft hright.1) hright.2
        · exact .ok ⟨hleft, .cons hk hts⟩
      · exact .ok ⟨hleft, .cons hk hts⟩

end Reader

/-- Reading takes the same way through tokens of the same kinds. -/
theorem read_alike (depth : Nat) (least : Power) (h : SameKinds ts ts') :
    Alike SameResult (Expr.read depth least ts) (Expr.read depth least ts') := by
  -- a call that is one too many fails before it looks at a token
  induction depth generalizing least ts ts' with
  | zero => exact .error .tooDeep h
  | succ depth ih =>
    refine (readOperand_alike (fun least _ _ => ih least) least h).bind ?_
    intro operand operand' hoperand
    obtain ⟨hshape, hrest⟩ := readSuffixes_sameResult least hoperand.1 hoperand.2
    exact readOperations_alike (fun least _ _ => ih least) least hrest hshape hrest

/-! ### Where reading ends -/

/-- What is left of lists of the same kinds has the same kinds itself, so as many tokens are gone
from the one as from the other. -/
lemma exists_drop_of_sameKinds {rest rest' : List Token} (h : SameKinds ts ts')
    (hrest : SameKinds rest rest') (hsuffix : rest <:+ ts) (hsuffix' : rest' <:+ ts') :
    ∃ k ≤ ts.length, rest = ts.drop k ∧ rest' = ts'.drop k := by
  refine ⟨ts.length - rest.length, Nat.sub_le _ _, List.suffix_iff_eq_drop.mp hsuffix, ?_⟩
  rw [h.length_eq, hrest.length_eq]
  exact List.suffix_iff_eq_drop.mp hsuffix'

/-- For every least power, reading tokens of the same kinds consumes as many tokens of the one
list as of the other one. It gives trees of the same shape, each with the numbers and names that
its own tokens spell, or it fails for the same cause, of which each error shows its own token. -/
theorem readWithin_of_sameKinds (h : SameKinds ts ts') (allowance : Allowance) (least : Power) :
    ∃ k ≤ ts.length,
      (∃ e e', readWithin allowance least ts = .ok (e, ts.drop k) ∧
        readWithin allowance least ts' = .ok (e', ts'.drop k) ∧ e.shape = e'.shape ∧
        Consumes e.lexemes ts (ts.drop k) ∧ Consumes e'.lexemes ts' (ts'.drop k)) ∨
      ∃ cause cause', readWithin allowance least ts = .error ⟨cause, ts.drop k⟩ ∧
        readWithin allowance least ts' = .error ⟨cause', ts'.drop k⟩ ∧
        cause.SameBut ts[k]? ts'[k]? cause' := by
  have hleaves := readWithin_leaves allowance least ts
  have hleaves' := readWithin_leaves allowance least ts'
  have halike : Alike SameResult (readWithin allowance least ts)
      (readWithin allowance least ts') := by
    rw [readWithin, readWithin, ← h.length_eq]
    exact read_alike _ least h
  generalize hread : readWithin allowance least ts = x at halike hleaves
  generalize hread' : readWithin allowance least ts' = x' at halike hleaves'
  cases halike with
  | @ok r r' hr =>
    obtain ⟨k, hk, hrest, hrest'⟩ := exists_drop_of_sameKinds h hr.2 hleaves hleaves'
    have hspelled : Consumes r.1.lexemes ts r.2 := (read_sound _ hread).spelled
    have hspelled' : Consumes r'.1.lexemes ts' r'.2 := (read_sound _ hread').spelled
    rw [hrest] at hspelled
    rw [hrest'] at hspelled'
    exact ⟨k, hk, .inl ⟨r.1, r'.1, by rw [← hrest], by rw [← hrest'], hr.1, hspelled, hspelled'⟩⟩
  | @error cause cause' rest rest' hcause hrest =>
    obtain ⟨k, hk, rfl, rfl⟩ := exists_drop_of_sameKinds h hrest hleaves hleaves'
    rw [List.head?_drop, List.head?_drop] at hcause
    exact ⟨k, hk, .inr ⟨cause, cause', rfl, rfl, hcause⟩⟩

/-- The line `12 * x`, and tokens of the same kinds that no text has. -/
theorem readWithin_of_sameKinds_product :
    let ts : List Token := [⟨.number, 0, 2, "12"⟩, ⟨.asterisk, 3, 4, "*"⟩,
      ⟨.identifier, 5, 6, "x"⟩]
    let ts' : List Token := [⟨.number, 9, 9, "007"⟩, ⟨.asterisk, 1, 0, "+"⟩,
      ⟨.identifier, 4, 4, "then"⟩]
    let e := binary .multiply (number 12) (ident "x")
    let e' := binary .multiply (number 7) (ident "then")
    SameKinds ts ts' ∧
      readWithin .standard 0 ts = .ok (e, []) ∧ readWithin .standard 0 ts' = .ok (e', []) ∧
        e.shape = e'.shape ∧ Consumes e.lexemes ts [] ∧ Consumes e'.lexemes ts' [] := by
  intro ts ts' e e'
  have hread : readWithin .standard 0 ts = .ok (e, []) := rfl
  have hread' : readWithin .standard 0 ts' = .ok (e', []) := rfl
  have hkinds : SameKinds ts ts' := by decide
  obtain ⟨k, -, hends⟩ := readWithin_of_sameKinds hkinds .standard 0
  rcases hends with ⟨_, _, h, h', hshape, hspelled, hspelled'⟩ | ⟨_, _, h, -⟩
  · obtain ⟨rfl, hrest⟩ := Prod.mk.inj (Except.ok.inj (hread.symm.trans h))
    obtain ⟨rfl, hrest'⟩ := Prod.mk.inj (Except.ok.inj (hread'.symm.trans h'))
    rw [← hrest] at hspelled
    rw [← hrest'] at hspelled'
    exact ⟨hkinds, hread, hread', hshape, hspelled, hspelled'⟩
  · cases hread.symm.trans h

end Expr

end Calculator
