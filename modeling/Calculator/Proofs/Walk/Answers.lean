import Calculator.Proofs.Nesting
import Calculator.Proofs.Walk

/-!
# Answers of the parser with its position

Keeping a position and noting down what happens changes no answer. So what the accounts say of the
parser with its position holds of the parser.
-/

namespace Calculator

namespace Walk

/-! ### Answers -/

section Answer

variable {α β γ δ : Type} {ts : List Token} {i : Nat}

/-- The walk from position `i` has the answer `x`. -/
def Answers (ts : List Token) (pair : α → List Token → γ) (walk : Walk α) (i : Nat)
    (x : Except Stop γ) : Prop :=
  (walk i).answer ts pair = x

private lemma drop_of_getElem?_none (h : ts[i]? = none) : ts.drop i = [] :=
  List.drop_eq_nil_of_le (List.getElem?_eq_none_iff.mp h)

private lemma drop_of_getElem?_some {t : Token} (h : ts[i]? = some t) :
    ts.drop i = t :: ts.drop (i + 1) := by
  obtain ⟨hi, rfl⟩ := List.getElem?_eq_some_iff.mp h
  exact List.drop_eq_getElem_cons hi

namespace Answers

variable {walk : Walk α} {next : α → Walk β} {pair : α → List Token → γ}
  {pair' : β → List Token → δ} {x : Except Stop γ} {y : Except Stop δ} {f : γ → Except Stop δ}

lemma bind (h : Answers ts pair walk i x)
    (hnext : ∀ a, Answers ts pair' (next a) (walk i).place (f (pair a (ts.drop (walk i).place)))) :
    Answers ts pair' (walk >>= next) i (x >>= f) := by
  rw [← h, Answers]
  cases houtcome : (walk i).outcome with
  | error e =>
    rw [bind_of_error houtcome]
    simp only [Trip.answer, houtcome, error_bind]
  | ok a =>
    rw [bind_of_ok houtcome]
    simp only [Trip.answer, houtcome, ok_bind, Trip.outcome_after, Trip.place_after]
    exact hnext a

lemma advance {next : Unit → Walk β} {t : Token} (ht : ts[i]? = some t)
    (h : Answers ts pair' (next ()) (i + 1) y) :
    Answers ts pair' (Walk.advance ts >>= next) i y := by
  have hadvance : Walk.advance ts i = ⟨.ok (), i + 1, [.consumed (i + 1)]⟩ :=
    advance_of_getElem? ht
  have houtcome : (Walk.advance ts i).outcome = .ok () := by rw [hadvance]
  rw [Answers, bind_of_ok houtcome, hadvance]
  exact h

lemma current {next : Option Token → Walk β} (h : Answers ts pair' (next ts[i]?) i y) :
    Answers ts pair' (Walk.current ts >>= next) i y := h

lemma called {least : Power} (h : Answers ts pair walk i x) :
    Answers ts pair (Walk.called least walk) i x := h

end Answers

lemma answers_expect {kind : Token.Kind} {error : Option Token → ParseError}
    {read : List Token → Except Stop (List Token)} (hnil : read [] = .error ⟨error none, []⟩)
    (hcons : ∀ t rest, read (t :: rest) =
      if t.kind = kind then .ok rest else .error ⟨error (some t), t :: rest⟩) (i : Nat) :
    Answers ts (fun _ rest => rest) (expect ts kind error) i (read (ts.drop i)) := by
  have hfail (e : ParseError) :
      Answers ts (fun _ rest => rest) (fail e : Walk Unit) i (.error ⟨e, ts.drop i⟩) := rfl
  refine .current ?_
  cases ht : ts[i]? with
  | none =>
    rw [drop_of_getElem?_none ht] at hfail ⊢
    rw [hnil, Option.map_none, if_neg (Option.some_ne_none kind).symm]
    exact hfail (error none)
  | some t =>
    rw [drop_of_getElem?_some ht] at hfail ⊢
    rw [hcons]
    simp only [Option.map_some, Option.some.injEq]
    split
    · rw [Answers, advance_of_getElem? ht]
      rfl
    · exact hfail (error (some t))

variable {call : Power → Walk Expr} {read : Reader}
  (hcall : ∀ least i, Answers ts Prod.mk (call least) i (read least (ts.drop i)))

include hcall

lemma answers_atom (i : Nat) :
    Answers ts Prod.mk (atom ts call) i (Expr.readAtom read (ts.drop i)) := by
  have hfail (e : ParseError) :
      Answers ts Prod.mk (fail e : Walk Expr) i (.error ⟨e, ts.drop i⟩) := rfl
  refine .current ?_
  cases ht : ts[i]? with
  | none =>
    rw [drop_of_getElem?_none ht] at hfail ⊢
    exact hfail (.expectedOperand none)
  | some t =>
    rw [drop_of_getElem?_some ht] at hfail ⊢
    dsimp only [Expr.readAtom]
    cases t.kind with
    | number => exact .advance ht rfl
    | identifier => exact .advance ht rfl
    | openParen =>
      refine .advance ht ((hcall _ _).bind fun inner => ?_)
      exact (answers_expect rfl (fun _ _ => rfl) _).bind fun _ => rfl
    | keyword word =>
      cases word with
      | ifWord =>
        refine .advance ht ((hcall _ _).bind fun condition => ?_)
        refine (answers_expect rfl (fun _ _ => rfl) _).bind fun _ => (hcall _ _).bind fun yes => ?_
        refine (answers_expect rfl (fun _ _ => rfl) _).bind fun _ => (hcall _ _).bind fun no => ?_
        exact (answers_expect rfl (fun _ _ => rfl) _).bind fun _ => rfl
      | _ => exact hfail _
    | _ => exact hfail _

lemma answers_operand (least : Power) (i : Nat) :
    Answers ts Prod.mk (operand ts call least) i (Expr.readOperand read least (ts.drop i)) := by
  have hatom := answers_atom hcall i
  refine .current ?_
  cases ht : ts[i]? with
  | none =>
    rw [drop_of_getElem?_none ht] at hatom ⊢
    exact hatom
  | some t =>
    rw [drop_of_getElem?_some ht] at hatom ⊢
    dsimp only [Option.bind_some, Expr.readOperand]
    cases t.kind.sign? with
    | none => exact hatom
    | some op =>
      dsimp only
      split
      · exact .advance ht ((hcall _ _).bind fun inner => rfl)
      · exact hatom

omit hcall in
lemma answers_suffixes (least : Power) {rounds : Nat} (left : Expr)
    (hrounds : ts.length - i < rounds) :
    Answers ts Prod.mk (suffixes ts least rounds left) i
      (.ok (Expr.readSuffixes least left (ts.drop i))) := by
  induction rounds generalizing left i with
  | zero => exact absurd hrounds (Nat.not_lt_zero _)
  | succ rounds ih =>
    have hdone : Answers ts Prod.mk (pure left) i (.ok (left, ts.drop i)) := rfl
    refine .current ?_
    cases ht : ts[i]? with
    | none =>
      rw [drop_of_getElem?_none ht] at hdone ⊢
      exact hdone
    | some t =>
      have hi : i < ts.length := (List.getElem?_eq_some_iff.mp ht).1
      rw [drop_of_getElem?_some ht] at hdone ⊢
      dsimp only [Option.bind_some, Expr.readSuffixes]
      cases t.kind.suffix? with
      | none => exact hdone
      | some op =>
        dsimp only
        split
        · exact .advance ht (ih _ (by omega))
        · exact hdone

variable (haccount : ∀ least i, Account ts.length 0 (call least) i)

include haccount

lemma answers_operations (least : Power) {rounds : Nat} {bound : List Token} (left : Expr)
    (hrounds : ts.length - i < rounds) (hbound : ts.length - i ≤ bound.length) :
    Answers ts Prod.mk (operations ts call least rounds left) i
      (Expr.readOperations read least bound left (ts.drop i)) := by
  induction rounds generalizing left i bound with
  | zero => exact absurd hrounds (Nat.not_lt_zero _)
  | succ rounds ih =>
    have hdone : Answers ts Prod.mk (pure left) i (.ok (left, ts.drop i)) := rfl
    refine .current ?_
    cases ht : ts[i]? with
    | none =>
      rw [drop_of_getElem?_none ht] at hdone ⊢
      cases bound <;> exact hdone
    | some t =>
      have hi : i < ts.length := (List.getElem?_eq_some_iff.mp ht).1
      rw [drop_of_getElem?_some ht] at hdone ⊢
      cases bound with
      | nil => exact absurd hbound (by simp only [List.length_nil]; omega)
      | cons b bound =>
        rw [List.length_cons] at hbound
        dsimp only [Option.bind_some, Expr.readOperations]
        cases t.kind.operator? with
        | none => exact hdone
        | some op =>
          dsimp only
          split
          · refine .advance ht ((hcall _ _).bind fun right => ?_)
            -- the call behind the operator has not gone back
            have hle := (haccount op.binding.right (i + 1)).le_place
            exact ih _ (by omega) (by omega)
          · exact hdone

end Answer

/-- Keeping a position and noting down what happens changes no answer. -/
theorem answers_expression (ts : List Token) (depth : Nat) (least : Power) (i : Nat) :
    Answers ts Prod.mk (expression ts depth least) i (Expr.read depth least (ts.drop i)) := by
  induction depth generalizing least i with
  | zero => rfl
  | succ depth ih =>
    have hrounds (place : Nat) : ts.length - place < ts.length + 1 := by omega
    have hrest (left : Expr) (place : Nat) :
        Answers ts Prod.mk
          (suffixes ts least (ts.length + 1) left >>=
            operations ts (expression ts depth) least (ts.length + 1)) place
          (Except.ok (Expr.readSuffixes least left (ts.drop place)) >>= fun result =>
            Expr.readOperations (Expr.read depth) least result.2 result.1 result.2) :=
      (answers_suffixes least left (hrounds place)).bind fun left =>
        answers_operations ih (account_expression ts depth) least left (hrounds _)
          (List.length_drop.ge)
    exact Answers.called ((answers_operand ih least i).bind fun left => hrest left _)

/-- From a position within the tokens, the procedure is called at most once more than there are
tokens behind it, whatever they are and however deep it may be nested. It goes forward and never
beyond the last token, every call that returns has consumed a token, and no token is missed where
one is consumed. If one more call may be active than there are tokens, it does not give up, and its
answer is that without a limit. -/
theorem expression_makes_few_calls {ts : List Token} {i : Nat} (hi : i ≤ ts.length)
    (least : Power) (depth : Nat) :
    let trip := expression ts depth least i
    trip.answer ts Prod.mk = Expr.read depth least (ts.drop i) ∧
      trip.calls ≤ ts.length - i + 1 ∧
      ((∀ e, trip.outcome = .ok e → i < trip.place) ∧
        ∀ start stop, .answered start stop ∈ trip.events → start < stop) ∧
      ((i :: (trip.events.map Event.place ++ [trip.place])).Pairwise (· ≤ ·) ∧
        trip.place ≤ ts.length) ∧
      (∀ place, .overrun place ∉ trip.events) ∧
      (ts.length - i + 1 ≤ depth → trip.outcome ≠ .error .tooDeep ∧
        trip.answer ts Prod.mk = Expr.readWithin .unlimited least (ts.drop i)) := by
  intro trip
  have hanswer : trip.answer ts Prod.mk = Expr.read depth least (ts.drop i) :=
    answers_expression ts depth least i
  obtain ⟨hordered, hwithin, hregular, hpaid⟩ := account_expression ts depth least i
  have hplace : trip.place ≤ ts.length := hwithin hi
  have hdebt : trip.debt ≤ 1 := trip.debt_le_one
  have hcalls : trip.calls + 0 + i ≤ trip.place + trip.debt := hpaid
  have hfirst : 0 < trip.calls := by
    cases depth <;> exact calls_called _ _ _ ▸ Nat.succ_pos _
  have hmoved (e : Expr) (he : trip.outcome = .ok e) : i < trip.place := by
    have hnone : trip.debt = 0 := by rw [Trip.debt, he]
    omega
  refine ⟨hanswer, by omega, ⟨hmoved, fun _ _ hmem => hregular _ hmem⟩, ⟨hordered, hplace⟩,
    fun _ hmem => hregular _ hmem, fun hdepth => ?_⟩
  have hcompletes : Expr.Completes (Expr.read depth least (ts.drop i)) :=
    Expr.read_completes depth (by rw [List.length_drop]; omega)
  refine ⟨fun hdeep => hcompletes (ts.drop trip.place) ?_, ?_⟩
  · rw [← hanswer, Trip.answer, hdeep]
  · have hlevels : Expr.Completes (Expr.readWithin (.levels depth) least (ts.drop i)) := hcompletes
    rw [hanswer]
    exact Expr.readWithin_eq_unlimited hlevels

/-- A call for each of the three tokens behind the first, and one where they end. One level less is
not enough. -/
theorem expression_makes_few_calls_unclosed :
    let ts : List Token := [⟨.number, 0, 1, "2"⟩, ⟨.minus, 1, 2, "-"⟩, ⟨.openParen, 2, 3, "("⟩,
      ⟨.minus, 3, 4, "-"⟩]
    let trip := expression ts 4 0 1
    1 ≤ ts.length ∧ ts.length - 1 + 1 ≤ 4 ∧
      trip.calls = 4 ∧ trip.calls ≤ ts.length - 1 + 1 ∧
      (∀ place, .overrun place ∉ trip.events) ∧
      trip.outcome = .error (.expectedOperand none) ∧ trip.outcome ≠ .error .tooDeep ∧
      (expression ts 3 0 1).outcome = .error .tooDeep := by
  intro ts trip
  have hi : 1 ≤ ts.length := by decide
  have hdepth : ts.length - 1 + 1 ≤ 4 := by decide
  obtain ⟨-, hcalls, -, -, hoverrun, hcompletes⟩ := expression_makes_few_calls hi 0 4
  exact ⟨hi, hdepth, by decide, hcalls, hoverrun, by decide, (hcompletes hdepth).1, by decide⟩

end Walk

end Calculator
