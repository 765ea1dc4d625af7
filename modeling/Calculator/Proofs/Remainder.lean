import Calculator.Expr.Parsing
import Calculator.Proofs.Sequencing

/-!
# What reading leaves

However reading ends, with an expression or with an error, the tokens that it leaves are the last
ones of those that it was given. So they tell how far it has come.
-/

namespace Calculator.Expr

/-! ### Answers -/

section Leaves

variable {α β : Type} {ts ts' : List Token} {rest : α → List Token} {rest' : β → List Token}

/-- The answer leaves the last ones of `ts`; those that are left of a success are `rest` of it. -/
def Leaves (ts : List Token) (rest : α → List Token) : Except Stop α → Prop
  | .ok a => rest a <:+ ts
  | .error stop => stop.rest <:+ ts

namespace Leaves

lemma mono {x : Except Stop α} (h : Leaves ts rest x) (hsuffix : ts <:+ ts') :
    Leaves ts' rest x := by
  cases x with
  | ok a => exact List.IsSuffix.trans h hsuffix
  | error stop => exact List.IsSuffix.trans h hsuffix

lemma cons {x : Except Stop α} (h : Leaves ts rest x) (t : Token) : Leaves (t :: ts) rest x :=
  h.mono (List.suffix_cons t ts)

lemma bind {x : Except Stop α} {f : α → Except Stop β} (hx : Leaves ts rest x)
    (hf : ∀ a, Leaves (rest a) rest' (f a)) : Leaves ts rest' (x >>= f) := by
  cases x with
  | error stop => exact hx
  | ok a => exact (hf a).mono hx

end Leaves

end Leaves

/-! ### Stages of reading -/

lemma readKeyword_leaves (word : Keyword) (ts : List Token) :
    Leaves ts id (readKeyword word ts) := by
  cases ts with
  | nil => exact List.suffix_rfl
  | cons t ts =>
    simp only [readKeyword]
    split
    · exact List.suffix_cons t ts
    · exact List.suffix_rfl

lemma readClosing_leaves (ts : List Token) : Leaves ts id (readClosing ts) := by
  cases ts with
  | nil => exact List.suffix_rfl
  | cons t ts =>
    simp only [readClosing]
    split
    · exact List.suffix_cons t ts
    · exact List.suffix_rfl

lemma readSuffixes_suffix (least : Power) (left : Expr) (ts : List Token) :
    (readSuffixes least left ts).2 <:+ ts := by
  induction ts generalizing left with
  | nil => exact List.suffix_rfl
  | cons t ts ih =>
    simp only [readSuffixes]
    split
    · split
      · exact (ih _).trans (List.suffix_cons t ts)
      · exact List.suffix_rfl
    · exact List.suffix_rfl

section Reader

variable {read : Reader} (hread : ∀ least ts, Leaves ts Prod.snd (read least ts))

include hread

lemma readGroup_leaves (ts : List Token) : Leaves ts Prod.snd (readGroup read ts) := by
  refine (hread 0 ts).bind fun inner => ?_
  exact (readClosing_leaves inner.2).bind fun ts' => List.suffix_rfl

lemma readConditional_leaves (ts : List Token) :
    Leaves ts Prod.snd (readConditional read ts) := by
  refine (hread 0 ts).bind fun c => (readKeyword_leaves .thenWord c.2).bind fun ts₁ => ?_
  refine (hread 0 ts₁).bind fun y => (readKeyword_leaves .elseWord y.2).bind fun ts₂ => ?_
  refine (hread 0 ts₂).bind fun n => (readKeyword_leaves .endWord n.2).bind fun ts₃ => ?_
  exact List.suffix_rfl

lemma readAtom_leaves (ts : List Token) : Leaves ts Prod.snd (readAtom read ts) := by
  cases ts with
  | nil => exact List.suffix_rfl
  | cons t ts =>
    simp only [readAtom]
    split
    · exact List.suffix_cons t ts
    · exact List.suffix_cons t ts
    · exact (readGroup_leaves hread ts).cons t
    · exact (readConditional_leaves hread ts).cons t
    · exact List.suffix_rfl

lemma readOperand_leaves (least : Power) (ts : List Token) :
    Leaves ts Prod.snd (readOperand read least ts) := by
  cases ts with
  | nil => exact readAtom_leaves hread []
  | cons t ts =>
    simp only [readOperand]
    split
    · split
      · next op _ _ =>
        refine Leaves.cons ?_ t
        exact (hread op.power ts).bind fun operand => List.suffix_rfl
      · exact readAtom_leaves hread (t :: ts)
    · exact readAtom_leaves hread (t :: ts)

lemma readOperations_leaves (least : Power) (bound : List Token) (left : Expr)
    (ts : List Token) : Leaves ts Prod.snd (readOperations read least bound left ts) := by
  induction bound generalizing left ts with
  | nil => cases ts <;> exact List.suffix_rfl
  | cons b bound ih =>
    cases ts with
    | nil => exact List.suffix_rfl
    | cons t ts =>
      simp only [readOperations]
      split
      · split
        · next op _ _ =>
          exact ((hread op.binding.right ts).bind fun right => ih _ right.2).cons t
        · exact List.suffix_rfl
      · exact List.suffix_rfl

end Reader

/-- What reading leaves is the end of what it was given. -/
theorem read_leaves (depth : Nat) (least : Power) (ts : List Token) :
    Leaves ts Prod.snd (Expr.read depth least ts) := by
  induction depth generalizing least ts with
  | zero => exact List.suffix_rfl
  | succ depth ih =>
    refine (readOperand_leaves ih least ts).bind fun operand => ?_
    have hsuffix := readSuffixes_suffix least operand.1 operand.2
    exact (readOperations_leaves ih least _ _ _).mono hsuffix

lemma readWithin_leaves (allowance : Allowance) (least : Power) (ts : List Token) :
    Leaves ts Prod.snd (readWithin allowance least ts) := read_leaves _ least ts

end Calculator.Expr
