import Calculator.Expr.Parsing
import Mathlib.Data.List.Chain

/-!
# Positions and calls of the parser

The parser goes through its tokens with a position, and it keeps no account of what it does. Here it
is written with its position, and what happens on the way is noted down.

Every call of the procedure that returns owns a token: one that it consumes itself, and not within a
call that it makes. A call that fails may lack its token, but then all calls that are still active
fail with it. So there are no more calls than tokens, and one.
-/

namespace Calculator

open Text

/-- What happens while tokens are read: a call of the procedure for a least power, the return of a
call that started at a position, a token that is consumed, and the attempt to consume one behind the
last; each at the position that is reached with it. -/
inductive Event where
  | call (least : Power) (place : Nat)
  | answered (start place : Nat)
  | consumed (place : Nat)
  | overrun (place : Nat)
  deriving DecidableEq

namespace Event

/-- The position that is reached with an event. -/
def place : Event → Nat
  | .call _ place | .answered _ place | .consumed place | .overrun place => place

/-- Whether an event is a call. -/
def isCall : Event → Bool
  | .call _ _ => true
  | _ => false

/-- No token is missed, and a call that returns has consumed one. -/
def IsRegular : Event → Prop
  | .call _ _ | .consumed _ => True
  | .answered start place => start < place
  | .overrun _ => False

end Event

/-- How reading ends: with a result or an error, at a position, and after the events on the way. -/
structure Trip (α : Type) where
  outcome : Except ParseError α
  place : Nat
  events : List Event

namespace Trip

variable {α β : Type}

/-- The number of calls on the way. -/
def calls (trip : Trip α) : Nat := trip.events.countP Event.isCall

/-- The number of tokens that the calls on the way may lack: that of the call which fails. -/
def debt (trip : Trip α) : Nat :=
  match trip.outcome with
  | .ok _ => 0
  | .error _ => 1

lemma debt_le_one (trip : Trip α) : trip.debt ≤ 1 := by
  unfold debt
  split <;> omega

/-- The trip behind the events `before`. -/
def after (before : List Event) (trip : Trip α) : Trip α :=
  { trip with events := before ++ trip.events }

/-- The return of a call that started at a position, unless it failed. -/
def answered? (start : Nat) (trip : Trip α) : Option Event :=
  match trip.outcome with
  | .ok _ => some (.answered start trip.place)
  | .error _ => none

/-- The answer, in which the tokens from the position on are left; `pair` puts them together with a
result. -/
def answer (ts : List Token) (pair : α → List Token → β) (trip : Trip α) : Except Stop β :=
  match trip.outcome with
  | .ok a => .ok (pair a (ts.drop trip.place))
  | .error e => .error ⟨e, ts.drop trip.place⟩

@[simp] lemma outcome_after (before : List Event) (trip : Trip α) :
    (trip.after before).outcome = trip.outcome := rfl

@[simp] lemma place_after (before : List Event) (trip : Trip α) :
    (trip.after before).place = trip.place := rfl

@[simp] lemma debt_after (before : List Event) (trip : Trip α) :
    (trip.after before).debt = trip.debt := rfl

@[simp] lemma calls_after (before : List Event) (trip : Trip α) :
    (trip.after before).calls = before.countP Event.isCall + trip.calls := List.countP_append

lemma answered?_eq_some {start : Nat} {trip : Trip α} {e : Event}
    (h : trip.answered? start = some e) : trip.debt = 0 ∧ e = .answered start trip.place := by
  unfold answered? at h
  unfold debt
  split at h
  · exact ⟨rfl, (Option.some.inj h).symm⟩
  · cases h

end Trip

/-! ### The parser with its position -/

/-- A procedure that starts at a position. -/
def Walk (α : Type) : Type := Nat → Trip α

instance : Monad Walk where
  pure a place := ⟨.ok a, place, []⟩
  bind walk next place :=
    match (walk place).outcome with
    | .error e => ⟨.error e, (walk place).place, (walk place).events⟩
    | .ok a => (next a (walk place).place).after (walk place).events

namespace Walk

/-- Fails without moving. -/
def fail {α : Type} (e : ParseError) : Walk α := fun place => ⟨.error e, place, []⟩

/-- Notes down that `body` is called for a least power, and that it returns if it does. -/
def called {α : Type} (least : Power) (body : Walk α) : Walk α := fun place =>
  let trip := body place
  { trip with events := .call least place :: (trip.events ++ (trip.answered? place).toList) }

section Tokens

variable (ts : List Token)

/-- The token at the position, if there is one. -/
def current : Walk (Option Token) := fun place => ⟨.ok ts[place]?, place, []⟩

/-- Consumes the token at the position. -/
def advance : Walk Unit := fun place =>
  match ts[place]? with
  | some _ => ⟨.ok (), place + 1, [.consumed (place + 1)]⟩
  | none => ⟨.error (.expectedOperand none), place, [.overrun place]⟩

/-- Consumes a token of a kind. -/
def expect (kind : Token.Kind) (error : Option Token → ParseError) : Walk Unit := do
  let found ← current ts
  if found.map Token.kind = some kind then advance ts else fail (error found)

/-- Consumes a keyword. -/
def keyword (word : Keyword) : Walk Unit := expect ts (.keyword word) (.expectedKeyword word)

/-- Consumes a closing parenthesis. -/
def closing : Walk Unit := expect ts .closeParen .expectedClosing

variable (call : Power → Walk Expr)

/-- Reads an operand that starts with no sign. -/
def atom : Walk Expr := do
  match ← current ts with
  | none => fail (.expectedOperand none)
  | some t =>
    match t.kind with
    | .number =>
      advance ts
      return .number (Decimal.valueInGroups t.content.toList)
    | .identifier =>
      advance ts
      return .ident t.content
    | .openParen =>
      advance ts
      let inner ← call 0
      closing ts
      return .group inner
    | .keyword .ifWord =>
      advance ts
      let condition ← call 0
      keyword ts .thenWord
      let yes ← call 0
      keyword ts .elseWord
      let no ← call 0
      keyword ts .endWord
      return .conditional condition yes no
    | _ => fail (.expectedOperand (some t))

/-- Reads a sign with its operand, if the sign binds tightly enough, or an operand without one. -/
def operand (least : Power) : Walk Expr := do
  match (← current ts).bind fun t => t.kind.sign? with
  | some op =>
    if least ≤ op.power then
      advance ts
      let inner ← call op.power
      return .unary op inner
    else atom ts call
  | none => atom ts call

/-- Takes the operators behind `left` that bind tightly enough and have no other operand, and gives
up if this takes too many rounds. -/
def suffixes (least : Power) : (rounds : Nat) → (left : Expr) → Walk Expr
  | 0, _ => fail .tooDeep
  | rounds + 1, left => do
    match (← current ts).bind fun t => t.kind.suffix? with
    | some op =>
      if least ≤ op.power then
        advance ts
        suffixes least rounds (.unary op left)
      else return left
    | none => return left

/-- Takes the operators behind `left` that bind tightly enough, with their right operands, and gives
up if this takes too many rounds. -/
def operations (least : Power) : (rounds : Nat) → (left : Expr) → Walk Expr
  | 0, _ => fail .tooDeep
  | rounds + 1, left => do
    match (← current ts).bind fun t => t.kind.operator? with
    | some op =>
      if least ≤ op.binding.left then
        advance ts
        let right ← call op.binding.right
        operations least rounds (.binary op left right)
      else return left
    | none => return left

/-- Reads an expression for a least power, with at most `depth` calls active at a time. The last
round of a loop finds nothing to take, so that there may be one more of them than tokens. -/
def expression : (depth : Nat) → Power → Walk Expr
  | 0, least => called least (fail .tooDeep)
  | depth + 1, least => called least do
    let left ← operand ts (expression depth) least
    let left ← suffixes ts least (ts.length + 1) left
    operations ts (expression depth) least (ts.length + 1) left

end Tokens

/-! ### Sequences -/

section Sequence

variable {α β : Type} {ts : List Token} {walk : Walk α} {next : α → Walk β} {i : Nat}

lemma bind_of_error {e : ParseError} (h : (walk i).outcome = .error e) :
    (walk >>= next) i = ⟨.error e, (walk i).place, (walk i).events⟩ := by
  change (match (walk i).outcome with | .error _ => _ | .ok _ => _) = _
  rw [h]

lemma bind_of_ok {a : α} (h : (walk i).outcome = .ok a) :
    (walk >>= next) i = (next a (walk i).place).after (walk i).events := by
  change (match (walk i).outcome with | .error _ => _ | .ok _ => _) = _
  rw [h]

lemma advance_of_getElem? {t : Token} (h : ts[i]? = some t) :
    advance ts i = ⟨.ok (), i + 1, [.consumed (i + 1)]⟩ := by
  rw [advance, h]

lemma calls_called (least : Power) (walk : Walk α) (i : Nat) :
    (called least walk i).calls = (walk i).calls + 1 := by
  have hanswered : ((walk i).answered? i).toList.countP Event.isCall = 0 := by
    rw [List.countP_eq_zero]
    intro e he
    obtain ⟨-, rfl⟩ := Trip.answered?_eq_some (Option.mem_toList.mp he)
    exact Bool.false_ne_true
  rw [called, Trip.calls, List.countP_cons_of_pos rfl, List.countP_append, hanswered, Nat.add_zero,
    Trip.calls]

end Sequence

/-! ### Accounts -/

section Account

variable {α β : Type}

/-- The account of a walk through `count` tokens from position `start`: it goes forward token by
token, and it consumes at least `owned` tokens more than it makes calls, or one less than that if it
fails. -/
structure Account (count owned : Nat) (walk : Walk α) (start : Nat) : Prop where
  ordered : (start :: ((walk start).events.map Event.place ++ [(walk start).place])).Pairwise
    (· ≤ ·)
  within : start ≤ count → (walk start).place ≤ count
  regular : ∀ e ∈ (walk start).events, e.IsRegular
  paid : (walk start).calls + owned + start ≤ (walk start).place + (walk start).debt

variable {ts : List Token} {walk : Walk α} {next : α → Walk β} {count owned i : Nat}

namespace Account

lemma le_place (h : Account count owned walk i) : i ≤ (walk i).place :=
  List.rel_of_pairwise_cons h.ordered (by simp)

lemma free (h : Account count owned walk i) : Account count 0 walk i where
  ordered := h.ordered
  within := h.within
  regular := h.regular
  paid := by have := h.paid; omega

lemma done (count i : Nat) (a : α) : Account count 0 (pure a) i where
  ordered := by simp [pure]
  within := id
  regular := by simp [pure]
  paid := by simp [pure, Trip.calls]

lemma fail (count i : Nat) (e : ParseError) : Account count 1 (Walk.fail e : Walk α) i where
  ordered := by simp [Walk.fail]
  within := id
  regular := by simp [Walk.fail]
  paid := by simp [Walk.fail, Trip.calls, Trip.debt, Nat.add_comm]

lemma current {next : Option Token → Walk β} (h : Account count owned (next ts[i]?) i) :
    Account count owned (Walk.current ts >>= next) i :=
  ⟨h.ordered, h.within, h.regular, h.paid⟩

lemma advance {t : Token} (h : ts[i]? = some t) : Account ts.length 1 (Walk.advance ts) i := by
  have hi : i < ts.length := (List.getElem?_eq_some_iff.mp h).1
  constructor <;> rw [advance_of_getElem? h]
  · simp [Event.place]
  · exact fun _ => hi
  · simp [Event.IsRegular]
  · simp [Trip.calls, Event.isCall, Nat.add_comm]

private lemma pairwise_le_append {start middle stop : Nat} {xs ys : List Nat}
    (hxs : (start :: (xs ++ [middle])).Pairwise (· ≤ ·))
    (hys : (middle :: (ys ++ [stop])).Pairwise (· ≤ ·)) :
    (start :: (xs ++ ys ++ [stop])).Pairwise (· ≤ ·) := by
  have hchain : (start :: xs ++ [middle] ++ (ys ++ [stop])).IsChain (· ≤ ·) :=
    List.IsChain.append_overlap hxs.isChain hys.isChain (by simp)
  refine (List.isChain_iff_pairwise.mp hchain).sublist ?_
  simp only [List.append_assoc, List.cons_append]
  exact ((List.sublist_cons_self middle _).append_left xs).cons_cons start

/-- The second walk takes nothing of what the first one owns. -/
lemma bind (h : Account count owned walk i)
    (hnext : ∀ a, Account count 0 (next a) (walk i).place) :
    Account count owned (walk >>= next) i := by
  obtain ⟨hordered, hwithin, hregular, hpaid⟩ := h
  cases houtcome : (walk i).outcome with
  | error e =>
    constructor <;> rw [bind_of_error houtcome]
    · exact hordered
    · exact hwithin
    · exact hregular
    · rwa [Trip.debt, houtcome] at hpaid
  | ok a =>
    have hdebt : (walk i).debt = 0 := by rw [Trip.debt, houtcome]
    obtain ⟨hordered', hwithin', hregular', hpaid'⟩ := hnext a
    constructor <;> rw [bind_of_ok houtcome]
    · rw [Trip.after, List.map_append]
      exact pairwise_le_append hordered hordered'
    · exact fun hi => hwithin' (hwithin hi)
    · exact List.forall_mem_append.mpr ⟨hregular, hregular'⟩
    · rw [Trip.calls_after, Trip.place_after, Trip.debt_after]
      simp only [Trip.calls] at hpaid hpaid' ⊢
      omega

/-- A call owns a token that its body consumes. -/
lemma called {least : Power} (h : Account count 1 walk i) :
    Account count 0 (Walk.called least walk) i where
  ordered := by
    have hnote (place : Nat) : (place :: ([place] ++ [place])).Pairwise (· ≤ ·) := by simp
    have hanswered : ((walk i).place :: (((walk i).answered? i).toList.map Event.place ++
        [(walk i).place])).Pairwise (· ≤ ·) := by
      unfold Trip.answered?
      split <;> simp [Event.place]
    rw [Walk.called, List.map_cons, List.map_append]
    exact pairwise_le_append (hnote i) (pairwise_le_append h.ordered hanswered)
  within := h.within
  regular := by
    refine List.forall_mem_cons.mpr ⟨trivial, List.forall_mem_append.mpr ⟨h.regular, ?_⟩⟩
    intro e he
    obtain ⟨hdebt, rfl⟩ := Trip.answered?_eq_some (Option.mem_toList.mp he)
    have hpaid := h.paid
    change i < (walk i).place
    omega
  paid := by
    have hpaid := h.paid
    have hcalls := calls_called least walk i
    have hdebt : (Walk.called least walk i).debt = (walk i).debt := rfl
    have hplace : (Walk.called least walk i).place = (walk i).place := rfl
    omega

end Account

/-! ### Accounts of the stages -/

lemma account_expect (kind : Token.Kind) (error : Option Token → ParseError) (i : Nat) :
    Account ts.length 0 (expect ts kind error) i := by
  refine .current ?_
  split
  · next hfound =>
    obtain ⟨t, ht, -⟩ := Option.map_eq_some_iff.mp hfound
    exact (Account.advance ht).free
  · exact (Account.fail _ _ _).free

section Reader

variable {call : Power → Walk Expr} (hcall : ∀ least i, Account ts.length 0 (call least) i)

include hcall

lemma account_atom (i : Nat) : Account ts.length 1 (atom ts call) i := by
  refine .current ?_
  cases ht : ts[i]? with
  | none => exact .fail _ _ _
  | some t =>
    dsimp only
    split
    · exact (Account.advance ht).bind fun _ => .done _ _ _
    · exact (Account.advance ht).bind fun _ => .done _ _ _
    · refine (Account.advance ht).bind fun _ => (hcall _ _).bind fun inner => ?_
      exact (account_expect _ _ _).bind fun _ => .done _ _ _
    · refine (Account.advance ht).bind fun _ => (hcall _ _).bind fun condition => ?_
      refine (account_expect _ _ _).bind fun _ => (hcall _ _).bind fun yes => ?_
      refine (account_expect _ _ _).bind fun _ => (hcall _ _).bind fun no => ?_
      exact (account_expect _ _ _).bind fun _ => .done _ _ _
    · exact .fail _ _ _

lemma account_operand (least : Power) (i : Nat) :
    Account ts.length 1 (operand ts call least) i := by
  refine .current ?_
  split
  · next hop =>
    obtain ⟨t, ht, -⟩ := Option.bind_eq_some_iff.mp hop
    split
    · exact (Account.advance ht).bind fun _ => (hcall _ _).bind fun inner => .done _ _ _
    · exact account_atom hcall i
  · exact account_atom hcall i

omit hcall in
lemma account_suffixes (least : Power) (rounds : Nat) (left : Expr) (i : Nat) :
    Account ts.length 0 (suffixes ts least rounds left) i := by
  induction rounds generalizing left i with
  | zero => exact (Account.fail _ _ _).free
  | succ rounds ih =>
    refine .current ?_
    split
    · next hop =>
      obtain ⟨t, ht, -⟩ := Option.bind_eq_some_iff.mp hop
      split
      · exact ((Account.advance ht).bind fun _ => ih _ _).free
      · exact .done _ _ _
    · exact .done _ _ _

lemma account_operations (least : Power) (rounds : Nat) (left : Expr) (i : Nat) :
    Account ts.length 0 (operations ts call least rounds left) i := by
  induction rounds generalizing left i with
  | zero => exact (Account.fail _ _ _).free
  | succ rounds ih =>
    refine .current ?_
    split
    · next hop =>
      obtain ⟨t, ht, -⟩ := Option.bind_eq_some_iff.mp hop
      split
      · exact ((Account.advance ht).bind fun _ => (hcall _ _).bind fun right => ih _ _).free
      · exact .done _ _ _
    · exact .done _ _ _

end Reader

lemma account_expression (ts : List Token) (depth : Nat) (least : Power) (i : Nat) :
    Account ts.length 0 (expression ts depth least) i := by
  induction depth generalizing least i with
  | zero => exact .called (.fail _ _ _)
  | succ depth ih =>
    refine .called ((account_operand ih least i).bind fun left => ?_)
    exact (account_suffixes _ _ _ _).bind fun left => account_operations ih _ _ _ _

end Account

end Walk

end Calculator
