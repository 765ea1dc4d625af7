import Calculator.Proofs.Diagnostics
import Calculator.Proofs.Evaluation.Nesting
import Calculator.Proofs.Nesting

/-!
# Nesting and the lines of a session

How deeply lines may be nested decides no more than which lines are refused for their nesting. Every
other line is answered as in the session without a limit, and so in the same way by all sessions
that differ in this alone.
-/

namespace Calculator

/-- Whether a line fails because it is nested too deeply to be read, drawn or evaluated. -/
def Failure.isTooDeep : Failure → Bool
  | .parsing .tooDeep | .drawing | .evaluation .tooDeep => true
  | _ => false

/-- Whether a line is refused for its nesting. -/
def Reply.isTooDeep : Reply → Bool
  | .rejected failure => failure.isTooDeep
  | _ => false

namespace Expr

variable {allowance : Allowance} {e : Expr} {indent : String} {last : Bool} {lines : List String}

/-- A tree that can be drawn under a limit has the same lines without one. -/
lemma lines?_unlimited (h : e.lines? allowance indent last = some lines) :
    e.lines? .unlimited indent last = some lines := by
  induction e generalizing allowance indent last lines with
  | number _ | ident _ =>
    rw [lines?] at h
    split at h
    · cases h
    · exact h
  | unary _ _ ih | group _ ih =>
    rw [lines?] at h
    split at h
    · cases h
    · obtain ⟨operand, he, heq⟩ := Option.bind_eq_some_iff.mp h
      simp [lines?, ih he, ← heq]
  | binary _ _ _ ihl ihr =>
    rw [lines?] at h
    split at h
    · cases h
    · obtain ⟨left, hl, h⟩ := Option.bind_eq_some_iff.mp h
      obtain ⟨right, hr, heq⟩ := Option.bind_eq_some_iff.mp h
      simp [lines?, ihl hl, ihr hr, ← heq]
  | conditional _ _ _ ihc ihy ihn =>
    rw [lines?] at h
    split at h
    · cases h
    · obtain ⟨condition, hc, h⟩ := Option.bind_eq_some_iff.mp h
      obtain ⟨yes, hy, h⟩ := Option.bind_eq_some_iff.mp h
      obtain ⟨no, hn, heq⟩ := Option.bind_eq_some_iff.mp h
      simp [lines?, ihc hc, ihy hy, ihn hn, ← heq]

lemma display?_unlimited {text : String} (h : e.display? allowance = some text) :
    e.display? .unlimited = some text := by
  obtain ⟨lines, hlines, htext⟩ := Option.map_eq_some_iff.mp h
  rw [display?, lines?_unlimited hlines, Option.map_some, htext]

end Expr

namespace Session

/-- The session without a limit on nesting. -/
def unlimited (s : Session) : Session := { s with allowance := .unlimited }

/-- No line of the sequence is refused for its nesting. -/
def HasRoom (s : Session) (lines : List String) : Prop :=
  ∀ answer ∈ s.respondAll lines, answer.1.isTooDeep = false

instance (s : Session) (lines : List String) : Decidable (s.HasRoom lines) :=
  inferInstanceAs (Decidable (∀ answer ∈ s.respondAll lines, answer.1.isTooDeep = false))

variable {s s' : Session} {line : String} {reply : Reply} {ts : List Token} {e : Expr}

lemma read_unlimited (h : s.read line ≠ .error (.parsing .tooDeep)) :
    s.unlimited.read line = s.read line := by
  unfold read at h ⊢
  cases hts : Token.ofText line with
  | error error => rfl
  | ok ts =>
    have hcompletes : Expr.Completes (Expr.ofTokens s.allowance ts) := by
      intro rest hdeep
      simp [hts, hdeep, Except.mapError] at h
    have hsame : Expr.ofTokens s.unlimited.allowance ts = Expr.ofTokens s.allowance ts :=
      (Expr.ofTokens_eq_unlimited hcompletes).symm
    simp only [Except.mapError, ok_bind, hsame]

lemma diagnostics_unlimited (h : s.diagnostics ts e ≠ .error .drawing) :
    s.unlimited.diagnostics ts e = s.diagnostics ts e := by
  cases htree : s.showTree with
  | false => simp [diagnostics, unlimited, htree]
  | true =>
    cases htext : e.display? s.allowance with
    | none => exact absurd (diagnostics_eq_error_iff.mpr ⟨htree, htext, rfl⟩) h
    | some text => simp [diagnostics, unlimited, htree, htext, Expr.display?_unlimited htext]

lemma run_unlimited (h : (s.run e).outcome ≠ .error .tooDeep) : s.unlimited.run e = s.run e := by
  rcases Expr.run_cutShort s.limit e (Allowance.atMost_unlimited s.allowance) s.env with
    heq | ⟨hdeep, -⟩
  · exact heq.symm
  · exact absurd hdeep h

/-- Without a limit, the same step answers the line. -/
lemma Step.unlimited (h : Step s line reply s') (hroom : reply.isTooDeep = false) :
    Step s.unlimited line reply s'.unlimited := by
  cases h with
  | @perform c hline hc => cases c <;> exact .perform hline hc
  | unknown hline hc => exact .unknown hline hc
  | unread hline hread =>
    have hreadable : s.read line ≠ .error (.parsing .tooDeep) := by
      rw [hread]
      rintro ⟨⟩
      cases hroom
    exact .unread hline ((read_unlimited hreadable).trans hread)
  | undrawn hline hread hshown =>
    obtain ⟨-, -, rfl⟩ := diagnostics_eq_error_iff.mp hshown
    cases hroom
  | @finish _ e _ _ hline hread hshown hrun =>
    have hread' := (read_unlimited (by simp [hread])).trans hread
    have hshown' := (diagnostics_unlimited (by simp [hshown])).trans hshown
    have hsame : s.unlimited.run e = s.run e := run_unlimited (by simp [hrun])
    rw [← hsame] at hrun ⊢
    exact .finish hline hread' hshown' hrun
  | @fail _ e _ error hline hread hshown hrun =>
    have hread' := (read_unlimited (by simp [hread])).trans hread
    have hshown' := (diagnostics_unlimited (by simp [hshown])).trans hshown
    have hcompletes : (s.run e).outcome ≠ .error .tooDeep := by
      rw [hrun]
      rintro ⟨⟩
      cases hroom
    have hsame : s.unlimited.run e = s.run e := run_unlimited hcompletes
    rw [apply_ite unlimited, ← hsame]
    rw [← hsame] at hrun
    exact .fail hline hread' hshown' hrun

/-- A line that is not refused for its nesting is answered as without a limit. -/
theorem respond_unlimited (h : (s.respond line).1.isTooDeep = false) :
    s.unlimited.respond line = ((s.respond line).1, (s.respond line).2.unlimited) :=
  ((step_respond s line).unlimited h).respond_eq

end Session

end Calculator
