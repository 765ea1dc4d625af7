import Calculator.Proofs.Sequencing
import Calculator.Session

/-!
# Lines that fail

A line that fails before it is evaluated leaves the session as it was, and so does every line that
fails if assignments are rolled back. The other lines of a session are then answered as if the line
had never been given. Without rolling back, a line whose evaluation fails keeps the assignments that
the evaluation made.
-/

namespace Calculator

/-- Whether nothing is evaluated before the failure. -/
def Failure.beforeEvaluation : Failure → Bool
  | .evaluation _ => false
  | _ => true

/-- Whether a reply is that to a line which fails and should change nothing. -/
def Reply.traceless (rollback : Bool) : Reply → Bool
  | .rejected failure => rollback || failure.beforeEvaluation
  | _ => false

namespace Session

/-- The run of an expression in the variables and under the limits of a session. -/
def run (s : Session) (e : Expr) : Run := e.run s.limit s.allowance s.env

/-- The session after a sequence of lines. -/
def after (s : Session) (lines : List String) : Session :=
  lines.foldl (fun s line => (s.respond line).2) s

@[simp] lemma after_nil (s : Session) : s.after [] = s := rfl

@[simp] lemma after_cons (s : Session) (line : String) (lines : List String) :
    s.after (line :: lines) = (s.respond line).2.after lines := rfl

/-- All that answering a line can do. -/
inductive Step (s : Session) (line : String) : Reply → Session → Prop where
  | perform {c : Command} (hline : isCommandLine line = true) (hc : command? line = some c) :
      Step s line (s.perform c).1 (s.perform c).2
  | unknown (hline : isCommandLine line = true) (hc : command? line = none) :
      Step s line (.rejected (.command (Text.strip line))) s
  | unread {f : Failure} (hline : isCommandLine line = false) (hread : s.read line = .error f) :
      Step s line (.rejected f) s
  | undrawn {ts : List Token} {e : Expr} {f : Failure} (hline : isCommandLine line = false)
      (hread : s.read line = .ok (ts, e)) (hshown : s.diagnostics ts e = .error f) :
      Step s line (.rejected f) s
  | finish {ts : List Token} {e : Expr} {shown : List String} {v : Int}
      (hline : isCommandLine line = false) (hread : s.read line = .ok (ts, e))
      (hshown : s.diagnostics ts e = .ok shown) (hrun : (s.run e).outcome = .ok v) :
      Step s line (.accepted ("\n".intercalate (shown ++ ["= " ++ Text.Decimal.ofInt v])))
        { s with env := s.env.commit (s.run e).writes }
  | fail {ts : List Token} {e : Expr} {shown : List String} {error : EvalError}
      (hline : isCommandLine line = false) (hread : s.read line = .ok (ts, e))
      (hshown : s.diagnostics ts e = .ok shown) (hrun : (s.run e).outcome = .error error) :
      Step s line (.rejected (.evaluation error))
        (if s.rollback then s else { s with env := s.env.commit (s.run e).writes })

variable {s s' : Session} {line : String} {reply : Reply} {ts : List Token} {e : Expr}
  {f : Failure}

/-! ### What one line does -/

lemma read_eq_ok_iff :
    s.read line = .ok (ts, e) ↔
      Token.ofText line = .ok ts ∧ Expr.ofTokens s.allowance ts = .ok e := by
  simp only [read, bind_eq_ok_iff, mapError_eq_ok_iff, pure_eq_ok, Except.ok.injEq, Prod.mk.injEq]
  constructor
  · rintro ⟨ts', hts, e', he, rfl, rfl⟩
    exact ⟨hts, he⟩
  · rintro ⟨hts, he⟩
    exact ⟨ts, hts, e, he, rfl, rfl⟩

lemma read_eq_error_iff :
    s.read line = .error f ↔
      (∃ error, Token.ofText line = .error error ∧ f = .lexing error) ∨
      ∃ ts stop, Token.ofText line = .ok ts ∧ Expr.ofTokens s.allowance ts = .error stop ∧
        f = .parsing stop.cause := by
  simp only [read, bind_eq_error_iff, mapError_eq_ok_iff, mapError_eq_error_iff, pure_eq_ok,
    reduceCtorEq, and_false, exists_false, or_false]
  constructor
  · rintro (⟨error, hts, rfl⟩ | ⟨ts, hts, stop, he, rfl⟩)
    · exact .inl ⟨error, hts, rfl⟩
    · exact .inr ⟨ts, stop, hts, he, rfl⟩
  · rintro (⟨error, hts, rfl⟩ | ⟨ts, stop, hts, he, rfl⟩)
    · exact .inl ⟨error, hts, rfl⟩
    · exact .inr ⟨ts, hts, stop, he, rfl⟩

lemma diagnostics_eq_error_iff :
    s.diagnostics ts e = .error f ↔
      s.showTree = true ∧ e.display? s.allowance = none ∧ f = .drawing := by
  unfold diagnostics
  cases s.showTree with
  | false => simp
  | true =>
    cases e.display? s.allowance with
    | none => simpa using eq_comm
    | some text => simp

lemma evaluate_of_ok {v : Int} (hrun : (s.run e).outcome = .ok v) :
    s.evaluate e = (.ok v, { s with env := s.env.commit (s.run e).writes }) := by
  have hvalue : (e.run s.limit s.allowance s.env).outcome = .ok v := hrun
  simp only [evaluate, Expr.evaluate, hvalue, run]

lemma evaluate_of_error {error : EvalError} (hrun : (s.run e).outcome = .error error) :
    s.evaluate e = (.error error,
      if s.rollback then s else { s with env := s.env.commit (s.run e).writes }) := by
  have herror : (e.run s.limit s.allowance s.env).outcome = .error error := hrun
  simp only [evaluate, Expr.evaluate, herror, run]

lemma respond_of_expression (h : isCommandLine line = false) :
    s.respond line = s.calculate line := by
  simp only [respond, h, Bool.false_eq_true, if_false]

lemma step_calculate (hline : isCommandLine line = false) :
    Step s line (s.calculate line).1 (s.calculate line).2 := by
  unfold calculate
  cases hread : s.read line with
  | error failure => exact .unread hline hread
  | ok pair =>
    obtain ⟨ts, e⟩ := pair
    cases hshown : s.diagnostics ts e with
    | error failure =>
      simp only [ok_bind, hshown]
      exact .undrawn hline hread hshown
    | ok shown =>
      simp only [ok_bind, hshown, pure_eq_ok]
      cases hrun : (s.run e).outcome with
      | ok v =>
        rw [evaluate_of_ok hrun]
        exact .finish hline hread hshown hrun
      | error error =>
        rw [evaluate_of_error hrun]
        exact .fail hline hread hshown hrun

/-- Answering a line is one of the steps. -/
theorem step_respond (s : Session) (line : String) :
    Step s line (s.respond line).1 (s.respond line).2 := by
  unfold respond
  cases hline : isCommandLine line with
  | false => exact step_calculate hline
  | true =>
    cases hc : command? line with
    | none => exact .unknown hline hc
    | some c => exact .perform hline hc

namespace Step

/-- No other step answers the line. -/
lemma respond_eq (h : Step s line reply s') : s.respond line = (reply, s') := by
  cases h with
  | perform hline hc => simp only [respond, hline, hc, if_true]
  | unknown hline hc => simp only [respond, hline, hc, if_true]
  | unread hline hread =>
    rw [respond_of_expression hline, calculate, hread]
    rfl
  | undrawn hline hread hshown =>
    simp only [respond_of_expression hline, calculate, hread, ok_bind, hshown, error_bind]
  | finish hline hread hshown hrun =>
    simp only [respond_of_expression hline, calculate, hread, ok_bind, hshown, pure_eq_ok,
      evaluate_of_ok hrun]
  | fail hline hread hshown hrun =>
    simp only [respond_of_expression hline, calculate, hread, ok_bind, hshown, pure_eq_ok,
      evaluate_of_error hrun]

lemma rollback_eq (h : Step s line reply s') : s'.rollback = s.rollback := by
  cases h with
  | @perform c _ _ => cases c <;> rfl
  | unknown _ _ | unread _ _ | undrawn _ _ _ | finish _ _ _ _ => rfl
  | fail _ _ _ _ => split <;> rfl

/-- Going back to the variables before the line is all that rolling back takes, since an evaluation
changes nothing else. -/
lemma eq_of_traceless (h : Step s line reply s') (hr : reply.traceless s.rollback = true) :
    s' = s := by
  cases h with
  | @perform c _ _ => cases c <;> cases hr
  | unknown _ _ | unread _ _ | undrawn _ _ _ => rfl
  | finish _ _ _ _ => cases hr
  | fail _ _ _ _ =>
    rw [Reply.traceless, Failure.beforeEvaluation, Bool.or_false] at hr
    exact if_pos hr

lemma kept {error : EvalError} (h : Step s line reply s')
    (hr : reply = .rejected (.evaluation error)) (hkeep : s.rollback = false) :
    ∃ ts e, s.read line = .ok (ts, e) ∧ (s.run e).outcome = .error error ∧
      s' = { s with env := s.env.commit (s.run e).writes } := by
  cases h with
  | @perform c _ _ => cases c <;> cases hr
  | unknown _ _ | finish _ _ _ _ => cases hr
  | unread _ hread =>
    cases hr
    obtain ⟨_, _, ⟨⟩⟩ | ⟨_, _, _, _, ⟨⟩⟩ := read_eq_error_iff.mp hread
  | undrawn _ _ hshown =>
    cases hr
    obtain ⟨_, _, ⟨⟩⟩ := diagnostics_eq_error_iff.mp hshown
  | fail _ hread _ hrun =>
    cases hr
    exact ⟨_, _, hread, hrun, if_neg (by simp [hkeep])⟩

lemma committed {text : String} (h : Step s line reply s') (hline : isCommandLine line = false)
    (hr : reply = .accepted text) :
    ∃ ts e v, s.read line = .ok (ts, e) ∧ (s.run e).outcome = .ok v ∧
      s' = { s with env := s.env.commit (s.run e).writes } := by
  cases h with
  | perform hcommand _ => rw [hline] at hcommand; cases hcommand
  | unknown _ _ | unread _ _ | undrawn _ _ _ | fail _ _ _ _ => cases hr
  | finish _ hread _ hrun => exact ⟨_, _, _, hread, hrun, rfl⟩

end Step

/-- What is left behind by a line that fails, and by one that does not. -/
structure Transacts (s : Session) (line : String) : Prop where
  unchanged : ∀ failure, (s.respond line).1 = .rejected failure →
    s.rollback = true ∨ failure.beforeEvaluation = true → (s.respond line).2 = s
  kept : ∀ error, (s.respond line).1 = .rejected (.evaluation error) → s.rollback = false →
    ∃ ts e, s.read line = .ok (ts, e) ∧ (s.run e).outcome = .error error ∧
      (s.respond line).2 = { s with env := s.env.commit (s.run e).writes }
  committed : ∀ text, isCommandLine line = false → (s.respond line).1 = .accepted text →
    ∃ ts e v, s.read line = .ok (ts, e) ∧ (s.run e).outcome = .ok v ∧
      (s.respond line).2 = { s with env := s.env.commit (s.run e).writes }

lemma transacts (s : Session) (line : String) : s.Transacts line := by
  have hstep := step_respond s line
  refine ⟨fun failure hfailure hno => hstep.eq_of_traceless ?_,
    fun error herror hkeep => hstep.kept herror hkeep,
    fun text hline htext => hstep.committed hline htext⟩
  rwa [hfailure, Reply.traceless, Bool.or_eq_true]

/-! ### Leaving out the failed lines -/

/-- The lines that are left of a sequence if those which fail without a trace are deleted. -/
def lasting (s : Session) (lines : List String) : List String :=
  ((lines.zip (s.respondAll lines)).filter fun answer =>
    !answer.2.1.traceless s.rollback).map Prod.fst

lemma lasting_cons (s : Session) (line : String) (lines : List String) :
    s.lasting (line :: lines) =
      if (s.respond line).1.traceless s.rollback then (s.respond line).2.lasting lines
      else line :: (s.respond line).2.lasting lines := by
  have hrollback := (step_respond s line).rollback_eq
  cases ht : (s.respond line).1.traceless s.rollback with
  | true => simp [lasting, respondAll, ht, hrollback]
  | false => simp [lasting, respondAll, ht, hrollback]

lemma respondAll_lasting (s : Session) (lines : List String) :
    s.respondAll (s.lasting lines) =
      (s.respondAll lines).filter fun answer => !answer.1.traceless s.rollback := by
  induction lines generalizing s with
  | nil => rfl
  | cons line lines ih =>
    have hstep := step_respond s line
    rw [lasting_cons]
    cases ht : (s.respond line).1.traceless s.rollback with
    | true =>
      have hsame : (s.respond line).2 = s := hstep.eq_of_traceless ht
      simp [respondAll, ht, hsame, ih s]
    | false =>
      have hrollback : (s.respond line).2.rollback = s.rollback := hstep.rollback_eq
      simp [respondAll, ht, ih (s.respond line).2, hrollback]

lemma after_lasting (s : Session) (lines : List String) :
    s.after (s.lasting lines) = s.after lines := by
  induction lines generalizing s with
  | nil => rfl
  | cons line lines ih =>
    rw [lasting_cons, after_cons]
    cases ht : (s.respond line).1.traceless s.rollback with
    | true =>
      have hsame : (s.respond line).2 = s := (step_respond s line).eq_of_traceless ht
      simp [hsame, ih s]
    | false => simp [ih (s.respond line).2]

lemma rollback_after (s : Session) (lines : List String) :
    (s.after lines).rollback = s.rollback := by
  induction lines generalizing s with
  | nil => rfl
  | cons line lines ih => rw [after_cons, ih, (step_respond s line).rollback_eq]

/-- Lines that fail leave no trace. If assignments are rolled back, then every line that fails does
so, and otherwise every line that fails before it is evaluated. The other lines are answered as if
these had never been given. -/
theorem failed_lines_leave_no_trace (s : Session) (lines : List String) :
    (∀ before line rest, lines = before ++ line :: rest →
      (s.after before).rollback = s.rollback ∧ (s.after before).Transacts line) ∧
    s.respondAll (s.lasting lines) =
      (s.respondAll lines).filter (fun answer => !answer.1.traceless s.rollback) ∧
    s.after (s.lasting lines) = s.after lines :=
  ⟨fun before line _ _ => ⟨rollback_after s before, transacts (s.after before) line⟩,
    respondAll_lasting s lines, after_lasting s lines⟩

-- the right summand is evaluated first, so that only rolling back undoes its assignment
example : ∀ rollback : Bool,
    ((Session.mk (.levels 6) 100 rollback false false .empty).after
      ["1 / 0 + (a := 1)"]).env.entries = if rollback then [] else [("a", 1)] := by
  decide +kernel

end Session

end Calculator
