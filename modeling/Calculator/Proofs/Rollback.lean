import Calculator.Proofs.FailedLines
import Calculator.Proofs.Transactions

/-!
# Rolling back in memory

A session holds the values of its variables, and an evaluation that fails is rolled back by keeping
those from before the line. Where the variables are in memory, an evaluation assigns to their
mapping as it goes, and is rolled back as a transaction: the environment is restored from a copy.
It comes to the same, and the mapping of the environment holds the variables of the session after
every line.
-/

namespace Calculator

open Environment

/-! ### Runs as steps -/

namespace Run

/-- The error that a run ends in, if it does. -/
def failure? (r : Run) : Option EvalError :=
  match r.outcome with
  | .ok _ => none
  | .error e => some e

/-- What a run does to an environment: it makes its assignments, and fails if it ends in an
error. -/
def steps (r : Run) : List Environment.Step :=
  r.writes.map (fun entry => .set entry.1 entry.2) ++ r.failure?.toList.map .fail

end Run

namespace Environment.Workspace

variable {w : Workspace}

/-- The steps of a run make its assignments to the mapping of the environment. In a block they do
the same, and the block fails as the run does. -/
lemma runAll_steps (h : w.Separate) (r : Run) :
    (Step.runAll r.steps w).2.contents = { w.contents with env := w.current.commit r.writes } ∧
      (Step.runBlock r.steps w).failure = r.failure? ∧
      (Step.runBlock r.steps w).workspace = (Step.runAll r.steps w).2 := by
  obtain ⟨outcome, writes⟩ := r
  induction writes generalizing w with
  | nil => cases outcome <;> exact ⟨rfl, rfl, rfl⟩
  | cons entry writes ih =>
    obtain ⟨hcontents, hblock⟩ := ih (Evolves.assign h env_mem_addresses).separate
    rw [← env_contents, contents_assign_env h] at hcontents
    exact ⟨hcontents, hblock⟩

/-- As a transaction, the steps of a run leave the environment alone if the run fails. -/
lemma contents_transaction_steps (h : w.Separate) (r : Run) :
    ((Step.transaction r.steps).run w).2.contents = { w.contents with
      env := if r.failure?.isSome then w.current else w.current.commit r.writes } := by
  have hsave := contents_save h
  obtain ⟨hcontents, hfailure, hblock⟩ := runAll_steps (Evolves.save h).separate r
  rw [← hblock, hsave, ← env_contents, hsave] at hcontents
  simp only [Step.run, hfailure]
  cases r.failure? with
  | none => exact hcontents
  | some e =>
    have hrollback := contents_rollback h r.steps
    rw [hcontents] at hrollback
    exact hrollback

-- the mapping that the run assigned to is left behind, and the environment is a copy of the copy
-- from before the run
example :
    let r : Run := ⟨.error .tooDeep, [("a", 1)]⟩
    let w := ((Step.transaction r.steps).run (.ofEntries [])).2
    (w.memory.mappings.map Environment.entries, w.env) = ([[], [("a", 1)], [], []], 3) := by
  decide

end Environment.Workspace

/-! ### Lines as steps -/

namespace Session

/-- The tree that answering a line evaluates, if it comes to that. -/
def evaluated? (s : Session) (line : String) : Option Expr :=
  if isCommandLine line then none
  else (do let (ts, e) ← s.read line; let _ ← s.diagnostics ts e; return e).toOption

/-- What answering a line does to the environment. If assignments are to be rolled back, then every
evaluation is a transaction. -/
def steps (s : Session) (line : String) : List Environment.Step :=
  match s.evaluated? line with
  | none => []
  | some e => if s.rollback then [.transaction (s.run e).steps] else (s.run e).steps

/-- What answering lines one after the other does to the environment. -/
def stepsAll (s : Session) : List String → List Environment.Step
  | [] => []
  | line :: lines => s.steps line ++ (s.respond line).2.stepsAll lines

variable {s s' : Session} {line : String} {reply : Reply} {ts : List Token} {e : Expr}
  {w : Workspace}

lemma evaluated?_of_isCommandLine (h : isCommandLine line = true) : s.evaluated? line = none :=
  if_pos h

lemma evaluated?_of_read_error {f : Failure} (hline : isCommandLine line = false)
    (hread : s.read line = .error f) : s.evaluated? line = none := by
  rw [evaluated?, if_neg (by simp [hline]), hread]
  rfl

lemma evaluated?_of_read_ok (hline : isCommandLine line = false)
    (hread : s.read line = .ok (ts, e)) :
    s.evaluated? line = (s.diagnostics ts e).toOption.map fun _ => e := by
  rw [evaluated?, if_neg (by simp [hline]), hread]
  cases hshown : s.diagnostics ts e <;> simp [hshown, Except.toOption]

lemma steps_of_evaluated (h : s.evaluated? line = some e) :
    s.steps line =
      if s.rollback then [.transaction (s.run e).steps] else (s.run e).steps := by
  rw [steps, h]

/-- A line that evaluates no tree leaves the variables alone. One that does makes the assignments of
the evaluation, unless they are rolled back. -/
lemma Step.env_eq (h : Step s line reply s') :
    (s.evaluated? line = none ∧ s'.env = s.env) ∨
      ∃ e, s.evaluated? line = some e ∧ s'.env =
        if s.rollback ∧ (s.run e).failure?.isSome then s.env
        else s.env.commit (s.run e).writes := by
  cases h with
  | @perform c hline _ =>
    refine .inl ⟨evaluated?_of_isCommandLine hline, ?_⟩
    cases c <;> rfl
  | unknown hline _ => exact .inl ⟨evaluated?_of_isCommandLine hline, rfl⟩
  | unread hline hread => exact .inl ⟨evaluated?_of_read_error hline hread, rfl⟩
  | undrawn hline hread hshown =>
    refine .inl ⟨?_, rfl⟩
    rw [evaluated?_of_read_ok hline hread, hshown]
    rfl
  | @finish ts e _ _ hline hread hshown hrun =>
    refine .inr ⟨e, ?_, by simp [Run.failure?, hrun]⟩
    rw [evaluated?_of_read_ok hline hread, hshown]
    rfl
  | @fail ts e _ _ hline hread hshown hrun =>
    refine .inr ⟨e, ?_, ?_⟩
    · rw [evaluated?_of_read_ok hline hread, hshown]
      rfl
    · cases hrollback : s.rollback <;> simp [Run.failure?, hrun]

/-- The steps of a line leave in the environment the variables that the session has after it. -/
lemma contents_runAll_steps (hw : w.Separate) (henv : w.current = s.env) (line : String) :
    (Environment.Step.runAll (s.steps line) w).2.contents =
      { w.contents with env := (s.respond line).2.env } := by
  rcases (step_respond s line).env_eq with ⟨hnone, hsame⟩ | ⟨e, hsome, hafter⟩
  · rw [steps, hnone, hsame, ← henv]
    rfl
  · rw [steps_of_evaluated hsome, hafter, ← henv]
    cases s.rollback with
    | false =>
      simp only [Bool.false_eq_true, if_false, false_and]
      exact (Workspace.runAll_steps hw (s.run e)).1
    | true =>
      simp only [if_true, true_and]
      exact Workspace.contents_transaction_steps hw (s.run e)

/-- Rolling back to the values from before a line is restoring the environment from a copy. Wherever
the variables of a session are in memory, the steps of any lines leave in the environment what the
session has after the lines, and change nothing else. -/
theorem contents_runAll_stepsAll (hw : w.Separate) (henv : w.current = s.env)
    (lines : List String) :
    (Environment.Step.runAll (s.stepsAll lines) w).2.contents =
      { w.contents with env := (s.after lines).env } := by
  induction lines generalizing s w with
  | nil =>
    rw [after_nil, ← henv]
    rfl
  | cons line lines ih =>
    have hline := contents_runAll_steps hw henv line
    have hw' := Workspace.separate_runAll hw (s.steps line)
    have henv' : (Environment.Step.runAll (s.steps line) w).2.current = (s.respond line).2.env := by
      rw [← Workspace.env_contents, hline]
    have hlines := ih hw' henv'
    rw [hline] at hlines
    rw [stepsAll, Environment.Step.runAll_append, hlines, after_cons]

/-- The variables of a new session are those of a program that starts with none and takes the steps
of the lines. -/
theorem current_runAll_stepsAll (allowance : Allowance) (settings : Settings)
    (lines : List String) :
    let s := ofSettings allowance settings
    (Environment.Step.runAll (s.stepsAll lines) (.ofEntries [])).2.current =
      (s.after lines).env := by
  intro s
  have hcontents := contents_runAll_stepsAll (s := s) (Workspace.separate_ofEntries []) rfl lines
  exact congrArg Workspace.Contents.env hcontents

end Session

end Calculator
