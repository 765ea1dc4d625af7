import Calculator.Proofs.Evaluation.Order
import Calculator.Proofs.Grammar.Completeness
import Mathlib.Data.List.Chain

/-!
# Calls of the parser that are active at a time

The parser calls itself for the operand of a sign, for right operands, and inside parentheses and
conditionals. A limit on nesting limits how many calls are active at a time: the parser gives up
exactly if there would be more. For tokens that form an expression the tree tells how many there
are. It is the nesting to the right that counts, since what stands on the left of an operator has
been read, by the same call, before the operator is met.
-/

namespace Calculator

/-- A call of the parser: the power that it reads for, and the tokens in front of it. -/
structure Call where
  least : Power
  tokens : List Token

namespace Call

open Calculator.Expr

/-- The call comes to a point where it has read `left` and the next token is no suffix. -/
inductive Passes (c : Call) : (left : Expr) → (rest : List Token) → Prop where
  | first {operand left : Expr} {ts rest : List Token}
      (hoperand : readOperand (readWithin .unlimited) c.least c.tokens = .ok (operand, ts))
      (hsuffixes : readSuffixes c.least operand ts = (left, rest)) : Passes c left rest
  | next {op : BinaryOp} {left right : Expr} {t : Token} {ts rest : List Token}
      (h : Passes c left (t :: ts)) (hop : t.kind.operator? = some op)
      (hle : c.least ≤ op.binding.left)
      (hright : readWithin .unlimited op.binding.right ts = .ok (right, rest)) :
      Passes c (.binary op left right) rest

/-- The first call makes the second one. There is a case for each place where the parser calls
itself. -/
inductive Makes : Call → Call → Prop where
  | sign {least : Power} {op : UnaryOp} {t : Token} {ts : List Token}
      (hop : t.kind.sign? = some op) (hle : least ≤ op.power) :
      Makes ⟨least, t :: ts⟩ ⟨op.power, ts⟩
  | group {least : Power} {t : Token} {ts : List Token} (ht : t.kind = .openParen) :
      Makes ⟨least, t :: ts⟩ ⟨0, ts⟩
  | condition {least : Power} {t : Token} {ts : List Token} (ht : t.kind = .keyword .ifWord) :
      Makes ⟨least, t :: ts⟩ ⟨0, ts⟩
  | yes {least : Power} {e : Expr} {t u : Token} {ts ts₁ : List Token}
      (ht : t.kind = .keyword .ifWord)
      (hcondition : readWithin .unlimited 0 ts = .ok (e, u :: ts₁))
      (hu : u.kind = .keyword .thenWord) : Makes ⟨least, t :: ts⟩ ⟨0, ts₁⟩
  | no {least : Power} {e e' : Expr} {t u v : Token} {ts ts₁ ts₂ : List Token}
      (ht : t.kind = .keyword .ifWord)
      (hcondition : readWithin .unlimited 0 ts = .ok (e, u :: ts₁))
      (hu : u.kind = .keyword .thenWord)
      (hyes : readWithin .unlimited 0 ts₁ = .ok (e', v :: ts₂))
      (hv : v.kind = .keyword .elseWord) : Makes ⟨least, t :: ts⟩ ⟨0, ts₂⟩
  | right {c : Call} {op : BinaryOp} {left : Expr} {t : Token} {ts : List Token}
      (h : c.Passes left (t :: ts)) (hop : t.kind.operator? = some op)
      (hle : c.least ≤ op.binding.left) : Makes c ⟨op.binding.right, ts⟩

/-- The calls may be active at a time while `ts` are read: the first one is that for the whole list,
and each of the others is made by the one before it. -/
structure Active (ts : List Token) (calls : List Call) : Prop where
  head : calls.head? = some ⟨0, ts⟩
  chain : calls.IsChain Makes

end Call

namespace Expr

/-! ### Sequences that do not give up -/

section Completes

variable {α β : Type} {x : Except Stop α} {f : α → Except Stop β}

lemma Completes.of_bind (h : Completes (x >>= f)) : Completes x := by
  rintro rest rfl
  exact h rest rfl

lemma Completes.of_bind_ok {a : α} (h : Completes (x >>= f)) (hx : x = .ok a) :
    Completes (f a) := by
  subst hx
  exact h

end Completes

variable {depth : Nat} {least : Power} {op : BinaryOp} {t : Token} {ts rest bound : List Token}
  {left e : Expr}

/-- A call that does not give up returns what it returns without a limit. -/
lemma read_eq_unlimited (h : Completes (Expr.read depth least ts)) :
    Expr.read depth least ts = readWithin .unlimited least ts :=
  have hwithin : Completes (readWithin (.levels depth) least ts) := h
  readWithin_eq_unlimited hwithin

lemma read_upToNesting_unlimited (depth : Nat) (least : Power) (ts : List Token) :
    UpToNesting (Expr.read depth least ts) (readWithin .unlimited least ts) := by
  by_cases hdeep : ∃ rest, Expr.read depth least ts = .error ⟨.tooDeep, rest⟩
  · exact .inl hdeep
  · exact .inr (read_eq_unlimited fun rest hrest => hdeep ⟨rest, hrest⟩)

lemma readOperand_eq_unlimited (h : Completes (readOperand (Expr.read depth) least ts)) :
    readOperand (Expr.read depth) least ts = readOperand (readWithin .unlimited) least ts :=
  (readOperand_upToNesting (read_upToNesting_unlimited depth) least ts).eq h

/-! ### Calls that do not give up -/

/-- Where a call goes on without giving up, the call for the next right operand does not give up. -/
lemma completes_right (h : Completes (readOn depth least left (t :: ts)))
    (hs : NoSuffix least (t :: ts)) (hop : t.kind.operator? = some op)
    (hle : least ≤ op.binding.left) : Completes (Expr.read depth op.binding.right ts) := by
  rw [readOn_of_noSuffix hs] at h
  simp only [readOperations, hop, if_pos hle] at h
  exact h.of_bind

/-- A call that does not give up goes on without giving up from every point that it passes. -/
lemma completes_readOn_of_passes {c : Call} (hpasses : c.Passes left rest)
    (h : Completes (Expr.read (depth + 1) c.least c.tokens)) :
    NoSuffix c.least rest ∧ Completes (readOn depth c.least left rest) := by
  induction hpasses with
  | @first operand left ts rest hoperand hsuffixes =>
    have hlimited : readOperand (Expr.read depth) c.least c.tokens = .ok (operand, ts) :=
      (readOperand_eq_unlimited h.of_bind).trans hoperand
    have hs : NoSuffix c.least rest := by
      have hs := noSuffix_readSuffixes c.least operand ts
      rwa [hsuffixes] at hs
    refine ⟨hs, ?_⟩
    rw [read_of_readOperand hlimited] at h
    simp only [readOn, hsuffixes] at h
    rwa [readOn_of_noSuffix hs]
  | @next op left right t ts rest _ hop hle hright ih =>
    obtain ⟨hs, hon⟩ := ih
    have hlimited : Expr.read depth op.binding.right ts = .ok (right, rest) :=
      (read_eq_unlimited (completes_right hon hs hop hle)).trans hright
    refine ⟨(read_sound depth hlimited).stops.noSuffix c.least, ?_⟩
    rwa [readOn_binary (Token.Kind.operator?_eq_some_iff.mp hop) hle hlimited] at hon

/-- The calls that a call makes do not give up if it does not give up itself. -/
lemma completes_of_makes {c c' : Call} (hmakes : c.Makes c')
    (h : Completes (Expr.read (depth + 1) c.least c.tokens)) :
    Completes (Expr.read depth c'.least c'.tokens) := by
  cases hmakes with
  | sign hop hle =>
    have hoperand := h.of_bind
    simp only [readOperand, hop, if_pos hle] at hoperand
    exact hoperand.of_bind
  | group ht =>
    have hoperand := h.of_bind
    rw [readOperand_eq_readAtom (by rw [ht]; rfl)] at hoperand
    simp only [readAtom, ht] at hoperand
    exact hoperand.of_bind
  | condition ht =>
    have hoperand := h.of_bind
    rw [readOperand_eq_readAtom (by rw [ht]; rfl)] at hoperand
    simp only [readAtom, ht] at hoperand
    exact hoperand.of_bind
  | yes ht hcondition hu =>
    have hoperand := h.of_bind
    rw [readOperand_eq_readAtom (by rw [ht]; rfl)] at hoperand
    simp only [readAtom, ht] at hoperand
    have hthen := hoperand.of_bind_ok ((read_eq_unlimited hoperand.of_bind).trans hcondition)
    exact (hthen.of_bind_ok (readKeyword_of_kind hu _)).of_bind
  | no ht hcondition hu hyes hv =>
    have hoperand := h.of_bind
    rw [readOperand_eq_readAtom (by rw [ht]; rfl)] at hoperand
    simp only [readAtom, ht] at hoperand
    have hthen := hoperand.of_bind_ok ((read_eq_unlimited hoperand.of_bind).trans hcondition)
    have hbranch := hthen.of_bind_ok (readKeyword_of_kind hu _)
    have helse := hbranch.of_bind_ok ((read_eq_unlimited hbranch.of_bind).trans hyes)
    exact (helse.of_bind_ok (readKeyword_of_kind hv _)).of_bind
  | right hpasses hop hle =>
    obtain ⟨hs, hon⟩ := completes_readOn_of_passes hpasses h
    exact completes_right hon hs hop hle

section Calls

variable {c : Call}
  (hcalls : ∀ c', c.Makes c' → Completes (Expr.read depth c'.least c'.tokens))

include hcalls

lemma completes_readOperand_of_calls :
    Completes (readOperand (Expr.read depth) c.least c.tokens) := by
  obtain ⟨least, ts⟩ := c
  have hatom : Completes (readAtom (Expr.read depth) ts) := by
    cases ts with
    | nil => exact .error (by simp)
    | cons t ts =>
      simp only [readAtom]
      split
      · exact .ok _
      · exact .ok _
      · next ht =>
        refine (hcalls _ (.group ht)).bind fun result _ => ?_
        exact (readClosing_completes result.2).bind fun _ _ => .ok _
      · next ht =>
        have hcondition := hcalls _ (.condition ht)
        refine hcondition.bind ?_
        rintro ⟨e, ts₁⟩ he
        rw [read_eq_unlimited hcondition] at he
        refine (readKeyword_completes _ ts₁).bind fun ts₂ hthen => ?_
        obtain ⟨u, rfl, hu⟩ := readKeyword_eq_ok_iff.mp hthen
        have hyes := hcalls _ (.yes ht he hu)
        refine hyes.bind ?_
        rintro ⟨e', ts₃⟩ he'
        rw [read_eq_unlimited hyes] at he'
        refine (readKeyword_completes _ ts₃).bind fun ts₄ helse => ?_
        obtain ⟨v, rfl, hv⟩ := readKeyword_eq_ok_iff.mp helse
        refine (hcalls _ (.no ht he hu he' hv)).bind fun result _ => ?_
        exact (readKeyword_completes _ result.2).bind fun _ _ => .ok _
      · exact .error (by simp)
  cases ts with
  | nil => exact hatom
  | cons t ts =>
    simp only [readOperand]
    split
    · next op hop =>
      split
      · next hle => exact (hcalls _ (.sign hop hle)).bind fun _ _ => .ok _
      · exact hatom
    · exact hatom

lemma completes_readOperations_of_calls (hpasses : c.Passes left rest) (bound : List Token) :
    Completes (readOperations (Expr.read depth) c.least bound left rest) := by
  induction bound generalizing left rest with
  | nil => cases rest <;> exact .ok _
  | cons b bound ih =>
    cases rest with
    | nil => exact .ok _
    | cons t ts =>
      simp only [readOperations]
      split
      · next op hop =>
        split
        · next hle =>
          have hright := hcalls _ (.right hpasses hop hle)
          refine hright.bind ?_
          rintro ⟨right, rest⟩ hresult
          rw [read_eq_unlimited hright] at hresult
          exact ih (hpasses.next hop hle hresult)
        · exact .ok _
      · exact .ok _

lemma completes_of_calls : Completes (Expr.read (depth + 1) c.least c.tokens) := by
  have hcompletes := completes_readOperand_of_calls hcalls
  refine hcompletes.bind fun (operand, ts) hoperand => ?_
  rw [readOperand_eq_unlimited hcompletes] at hoperand
  exact completes_readOperations_of_calls hcalls (.first hoperand rfl) _

end Calls

/-- A call gives up exactly if more calls would be active than may be. -/
theorem not_completes_iff (depth : Nat) (c : Call) :
    ¬ Completes (Expr.read depth c.least c.tokens) ↔
      ∃ calls, depth ≤ calls.length ∧ (c :: calls).IsChain Call.Makes := by
  induction depth generalizing c with
  | zero =>
    refine iff_of_true (fun h => h c.tokens rfl) ⟨[], Nat.zero_le _, .singleton c⟩
  | succ depth ih =>
    constructor
    · intro h
      obtain ⟨c', hmakes, hc'⟩ :
          ∃ c', c.Makes c' ∧ ¬ Completes (Expr.read depth c'.least c'.tokens) := by
        by_contra hnone
        push Not at hnone
        exact h (completes_of_calls hnone)
      obtain ⟨calls, hlength, hchain⟩ := (ih c').mp hc'
      exact ⟨c' :: calls, Nat.succ_le_succ hlength, List.isChain_cons_cons.mpr ⟨hmakes, hchain⟩⟩
    · rintro ⟨calls, hlength, hchain⟩ h
      obtain ⟨c', calls, rfl⟩ := List.exists_cons_of_length_pos (Nat.zero_lt_of_lt hlength)
      obtain ⟨hmakes, hchain⟩ := List.isChain_cons_cons.mp hchain
      have hcompletes := completes_of_makes hmakes h
      exact (ih c').mpr ⟨calls, Nat.le_of_succ_le_succ hlength, hchain⟩ hcompletes

/-! ### Calls that a tree needs -/

section Need

variable {read : Reader} {count : Nat}
  (hread : ∀ ⦃least ts e rest⦄, read least ts = .ok (e, rest) → e.need ≤ count)

include hread

lemma need_le_of_readAtom (h : readAtom read ts = .ok (e, rest)) : e.need ≤ count + 1 := by
  cases ts with
  | nil => cases h
  | cons t ts =>
    simp only [readAtom] at h
    split at h
    · cases h
      exact Nat.succ_le_succ (Nat.zero_le _)
    · cases h
      exact Nat.succ_le_succ (Nat.zero_le _)
    · simp only [readGroup, bind_eq_ok_iff, Prod.exists, pure_eq_ok, Except.ok.injEq,
        Prod.mk.injEq] at h
      obtain ⟨inner, ts₁, hinner, ts₂, -, rfl, rfl⟩ := h
      have hinner := hread hinner
      simp only [need]
      omega
    · simp only [readConditional, bind_eq_ok_iff, Prod.exists, pure_eq_ok, Except.ok.injEq,
        Prod.mk.injEq] at h
      obtain ⟨c, ts₁, hc, ts₂, -, y, ts₃, hy, ts₄, -, n, ts₅, hn, ts₆, -, rfl, rfl⟩ := h
      have hc := hread hc
      have hy := hread hy
      have hn := hread hn
      simp only [need]
      omega
    · cases h

lemma need_le_of_readOperand (h : readOperand read least ts = .ok (e, rest)) :
    e.need ≤ count + 1 := by
  cases ts with
  | nil => cases h
  | cons t ts =>
    simp only [readOperand] at h
    split at h
    · next op hop =>
      split at h
      · simp only [bind_eq_ok_iff, Prod.exists, pure_eq_ok, Except.ok.injEq, Prod.mk.injEq] at h
        obtain ⟨operand, ts', hoperand, rfl, rfl⟩ := h
        have hoperand := hread hoperand
        obtain ⟨hsign, -⟩ := Token.Kind.sign?_eq_some_iff.mp hop
        cases op with
        | factorial => exact absurd rfl hsign
        | negate | identity => simp only [need]; omega
      · exact need_le_of_readAtom hread h
    · exact need_le_of_readAtom hread h

/-- The loop makes its calls one after the other, so that only the deepest of them counts. -/
lemma need_le_of_readOperations (hleft : left.need ≤ count + 1)
    (h : readOperations read least bound left ts = .ok (e, rest)) : e.need ≤ count + 1 := by
  induction bound generalizing left ts with
  | nil => cases ts <;> cases h <;> exact hleft
  | cons b bound ih =>
    cases ts with
    | nil => cases h; exact hleft
    | cons t ts =>
      simp only [readOperations] at h
      split at h
      · split at h
        · simp only [bind_eq_ok_iff, Prod.exists] at h
          obtain ⟨right, ts', hright, h⟩ := h
          have hright := hread hright
          refine ih ?_ h
          simp only [need]
          omega
        · cases h; exact hleft
      · cases h; exact hleft

end Need

lemma need_readSuffixes (least : Power) (left : Expr) (ts : List Token) :
    (readSuffixes least left ts).1.need = left.need := by
  induction ts generalizing left with
  | nil => rfl
  | cons t ts ih =>
    simp only [readSuffixes]
    split
    · next op hop =>
      obtain ⟨rfl, -⟩ := Token.Kind.suffix?_eq_some_iff.mp hop
      split
      · exact ih _
      · rfl
    · rfl

/-- A tree that is returned does not need more calls than may be active. -/
theorem need_le_of_read (h : Expr.read depth least ts = .ok (e, rest)) : e.need ≤ depth := by
  induction depth generalizing least ts e rest with
  | zero => cases h
  | succ depth ih =>
    simp only [Expr.read, bind_eq_ok_iff, Prod.exists] at h
    obtain ⟨operand, ts', hoperand, h⟩ := h
    have hread ⦃least ts e rest⦄ (h : Expr.read depth least ts = .ok (e, rest)) :
        e.need ≤ depth := ih h
    refine need_le_of_readOperations hread ?_ h
    rw [need_readSuffixes]
    exact need_le_of_readOperand hread hoperand

lemma need_chain_le {first : Expr} {terms : List (BinaryOp × Expr)} {count : Nat}
    (hfirst : first.need ≤ count) (hterms : ∀ term ∈ terms, term.2.need < count) :
    (chain first terms).need ≤ count := by
  induction terms generalizing first with
  | nil => exact hfirst
  | cons term terms ih =>
    obtain ⟨hterm, hterms⟩ := List.forall_mem_cons.mp hterms
    refine ih ?_ hterms
    simp only [need]
    omega

lemma need_iterate_factorial (e : Expr) (n : Nat) :
    ((unary .factorial)^[n] e).need = e.need := by
  induction n generalizing e with
  | zero => rfl
  | succ n ih => rw [Function.iterate_succ_apply, ih, need]

/-! ### Whole lists of tokens -/

lemma ofTokens_eq_tooDeep_iff {allowance : Allowance} :
    (∃ rest, ofTokens allowance ts = .error ⟨.tooDeep, rest⟩) ↔
      ¬ Completes (readWithin allowance 0 ts) := by
  unfold Completes
  push Not
  refine exists_congr fun rest => ?_
  unfold ofTokens
  split
  · next h => simp [h]
  · next h => simp [h]
  · next h => simp [h]

lemma ofTokens_levels_eq_ok_iff {count : Nat} :
    ofTokens (.levels count) ts = .ok e ↔ ofTokens .unlimited ts = .ok e ∧ e.need ≤ count := by
  constructor
  · intro h
    refine ⟨(ofTokens_eq_unlimited (h ▸ .ok e)).symm.trans h, ?_⟩
    unfold ofTokens at h
    split at h
    · cases h
    · next hread => cases h; exact need_le_of_read hread
    · cases h
  · rintro ⟨h, hneed⟩
    have hspelled := spelled_of_ofTokens h
    exact ofTokens_of_need_le hspelled.1 hspelled.2 hneed

/-- How deeply a parser is nested depends on how deeply the tree is nested to the right, and not on
how long the input is. With no more than `count` calls active at a time, exactly the trees are
returned that need no more; any other answer is the error that there would be without a limit, or
that the nesting is too deep, which is answered exactly if more calls would be active. So chains of
operators that associate to the left, and chains of factorials, may be of any length, as long as
their operands are not too deep. -/
theorem ofTokens_levels (count : Nat) (ts : List Token) :
    (∀ e, ofTokens (.levels count) ts = .ok e ↔
      ofTokens .unlimited ts = .ok e ∧ e.need ≤ count) ∧
    (∀ stop, ofTokens (.levels count) ts = .error stop →
      ofTokens .unlimited ts = .error stop ∨ stop.cause = .tooDeep) ∧
    ((∃ rest, ofTokens (.levels count) ts = .error ⟨.tooDeep, rest⟩) ↔
      ∃ calls, Call.Active ts calls ∧ count < calls.length) ∧
    (∀ first terms, ofTokens .unlimited ts = .ok (chain first terms) → first.need ≤ count →
      (∀ term ∈ terms, term.2.need < count) →
        ofTokens (.levels count) ts = .ok (chain first terms)) ∧
    ∀ e n, ofTokens .unlimited ts = .ok ((unary .factorial)^[n] e) → e.need ≤ count →
      ofTokens (.levels count) ts = .ok ((unary .factorial)^[n] e) := by
  refine ⟨fun e => ofTokens_levels_eq_ok_iff, fun stop h => ?_, ?_,
    fun first terms h hfirst hterms => ?_, fun e n h hneed => ?_⟩
  · rcases ofTokens_upToNesting (.levels count) ts with ⟨rest, hdeep⟩ | heq
    · cases hdeep.symm.trans h
      exact .inr rfl
    · exact .inl (heq ▸ h)
  · rw [ofTokens_eq_tooDeep_iff]
    refine (not_completes_iff count ⟨0, ts⟩).trans ⟨?_, ?_⟩
    · rintro ⟨calls, hlength, hchain⟩
      exact ⟨⟨0, ts⟩ :: calls, ⟨rfl, hchain⟩, Nat.lt_succ_of_le hlength⟩
    · rintro ⟨calls, ⟨hhead, hchain⟩, hlength⟩
      obtain ⟨c, calls, rfl⟩ := List.exists_cons_of_length_pos (Nat.zero_lt_of_lt hlength)
      cases hhead
      exact ⟨calls, Nat.le_of_lt_succ hlength, hchain⟩
  · exact ofTokens_levels_eq_ok_iff.mpr ⟨h, need_chain_le hfirst hterms⟩
  · exact ofTokens_levels_eq_ok_iff.mpr ⟨h, (need_iterate_factorial e n).trans_le hneed⟩

end Expr

end Calculator
