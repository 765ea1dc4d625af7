import Calculator.Proofs.FailedLines
import Mathlib.Logic.Function.Iterate

/-!
# Displays and commands

What a session displays besides values and the commands that it is given have no influence on what
it calculates. The session that displays values only and is given the expressions alone gives the
same answers to them, without the tokens and trees in front, and has the same variables after each.
-/

namespace Calculator

namespace Session

/-- The session that displays values only. -/
def quiet (s : Session) : Session := { s with showTokens := false, showTree := false }

/-- The lines that are no command lines. -/
def expressionLines (lines : List String) : List String :=
  lines.filter fun line => !isCommandLine line

/-- Whether a line carries out the command `c`. -/
def gives (c : Command) (line : String) : Bool := isCommandLine line && command? line = some c

/-- In the session `s`, the first reply to `line` is the second one with the tokens and the tree of
the line in front, as far as they are displayed. A line that fails displays its failure alone. -/
inductive Displays (s : Session) (line : String) : Reply → Reply → Prop where
  | rejected (f : Failure) : Displays s line (.rejected f) (.rejected f)
  | accepted {ts : List Token} {e : Expr} {tree text : String} (hread : s.read line = .ok (ts, e))
      (htree : s.showTree = true → e.display? s.allowance = some tree) :
      Displays s line
        (.accepted ((if s.showTokens then Token.listing ts ++ "\n" else "") ++
          (if s.showTree then tree ++ "\n" else "") ++ text))
        (.accepted text)

variable {s s' : Session} {line : String} {reply : Reply} {ts : List Token} {e : Expr}
  {shown : List String}

/-! ### One line -/

lemma diagnostics_eq_ok (h : s.diagnostics ts e = .ok shown) :
    ∃ tree, (s.showTree = true → e.display? s.allowance = some tree) ∧
      shown = (if s.showTokens then [Token.listing ts] else []) ++
        if s.showTree then [tree] else [] := by
  unfold diagnostics at h
  cases htree : s.showTree with
  | false =>
    refine ⟨"", nofun, ?_⟩
    simpa [htree] using h.symm
  | true =>
    cases hdisplay : e.display? s.allowance with
    | none => simp [htree, hdisplay] at h
    | some tree =>
      refine ⟨tree, fun _ => rfl, ?_⟩
      simpa [htree, hdisplay] using h.symm

/-- What is displayed stands in front of the value, each part on lines of its own. -/
lemma displays_of_read (hread : s.read line = .ok (ts, e))
    (hshown : s.diagnostics ts e = .ok shown) (text : String) :
    Displays s line (.accepted ("\n".intercalate (shown ++ [text]))) (.accepted text) := by
  obtain ⟨tree, htree, rfl⟩ := diagnostics_eq_ok hshown
  have hintercalate :
      "\n".intercalate ((if s.showTokens then [Token.listing ts] else []) ++
          (if s.showTree then [tree] else []) ++ [text]) =
        (if s.showTokens then Token.listing ts ++ "\n" else "") ++
          (if s.showTree then tree ++ "\n" else "") ++ text := by
    cases s.showTokens <;> cases s.showTree <;> simp [String.append_assoc]
  rw [hintercalate]
  exact .accepted hread htree

lemma quiet_evaluate (s : Session) (e : Expr) :
    s.quiet.evaluate e = ((s.evaluate e).1, (s.evaluate e).2.quiet) := by
  have hrun : s.quiet.run e = s.run e := rfl
  cases h : (s.run e).outcome with
  | ok v =>
    rw [evaluate_of_ok h, evaluate_of_ok (hrun ▸ h), hrun]
    rfl
  | error error =>
    rw [evaluate_of_error h, evaluate_of_error (hrun ▸ h), hrun]
    have hrollback : s.quiet.rollback = s.rollback := rfl
    rw [hrollback]
    split <;> rfl

/-- An expression whose tree can be drawn is calculated in the same way whatever is displayed. -/
theorem quiet_calculate (h : (s.calculate line).1 ≠ .rejected .drawing) :
    Displays s line (s.calculate line).1 (s.quiet.calculate line).1 ∧
      (s.quiet.calculate line).2 = (s.calculate line).2.quiet := by
  have hquiet : s.quiet.read line = s.read line := rfl
  unfold calculate at h ⊢
  rw [hquiet]
  cases hread : s.read line with
  | error f => exact ⟨.rejected f, rfl⟩
  | ok pair =>
    obtain ⟨ts, e⟩ := pair
    have hnone : s.quiet.diagnostics ts e = .ok [] := rfl
    cases hshown : s.diagnostics ts e with
    | error f =>
      obtain ⟨-, -, rfl⟩ := diagnostics_eq_error_iff.mp hshown
      simp only [hread, ok_bind, hshown, error_bind] at h
      exact absurd rfl h
    | ok shown =>
      simp only [ok_bind, hshown, hnone, pure_eq_ok, quiet_evaluate]
      cases hevaluate : s.evaluate e with
      | mk outcome after =>
        cases outcome with
        | ok v => exact ⟨displays_of_read hread hshown _, rfl⟩
        | error error => exact ⟨.rejected _, rfl⟩

/-- A command changes nothing but what is displayed. -/
lemma Step.quiet_eq (h : Step s line reply s') (hline : isCommandLine line = true) :
    s'.quiet = s.quiet := by
  cases h with
  | @perform c _ _ => cases c <;> rfl
  | unknown _ _ => rfl
  | unread hno _ | undrawn hno _ _ | finish hno _ _ _ | fail hno _ _ _ => simp [hline] at hno

/-- Only the commands for it change what is displayed. -/
lemma Step.shows_eq (h : Step s line reply s') :
    s'.showTokens = (if gives .tokens line then !s.showTokens else s.showTokens) ∧
      s'.showTree = if gives .tree line then !s.showTree else s.showTree := by
  cases h with
  | @perform c hline hc =>
    have hgives (c' : Command) : gives c' line = decide (c = c') := by simp [gives, hline, hc]
    rw [hgives, hgives]
    cases c <;> exact ⟨rfl, rfl⟩
  | unknown _ hc => simp [gives, hc]
  | unread hline _ | undrawn hline _ _ | finish hline _ _ _ => simp [gives, hline]
  | fail hline _ _ _ => split <;> simp [gives, hline]

/-! ### Sequences of lines -/

lemma respondAll_cons (s : Session) (line : String) (lines : List String) :
    s.respondAll (line :: lines) = s.respond line :: (s.respond line).2.respondAll lines := rfl

lemma respondAll_append (s : Session) (lines lines' : List String) :
    s.respondAll (lines ++ lines') = s.respondAll lines ++ (s.after lines).respondAll lines' := by
  induction lines generalizing s with
  | nil => rfl
  | cons line lines ih =>
    rw [List.cons_append, respondAll_cons, ih, respondAll_cons, List.cons_append, after_cons]

/-- A setting that every command `c` switches and nothing else changes. -/
lemma after_of_switch {setting : Session → Bool} {c : Command}
    (h : ∀ s line, setting (s.respond line).2 = if gives c line then !setting s else setting s)
    (s : Session) (lines : List String) :
    setting (s.after lines) = Bool.not^[lines.countP (gives c)] (setting s) := by
  induction lines generalizing s with
  | nil => rfl
  | cons line lines ih =>
    rw [after_cons, ih, h, List.countP_cons]
    split
    · rw [Function.iterate_succ_apply]
    · rfl

/-- After any lines, the quiet session that has been given the expressions alone is the session with
nothing displayed but values. -/
theorem quiet_after {lines : List String}
    (hdrawn : ∀ answer ∈ s.respondAll lines, answer.1 ≠ .rejected .drawing) :
    s.quiet.after (expressionLines lines) = (s.after lines).quiet := by
  induction lines generalizing s with
  | nil => rfl
  | cons line lines ih =>
    rw [respondAll_cons] at hdrawn
    obtain ⟨hline, hdrawn⟩ := List.forall_mem_cons.mp hdrawn
    rw [after_cons, ← ih hdrawn]
    cases hcommand : isCommandLine line with
    | true =>
      have hsame := (step_respond s line).quiet_eq hcommand
      simp only [expressionLines, List.filter_cons, hcommand, Bool.not_true, Bool.false_eq_true,
        if_false, hsame]
    | false =>
      have hquiet : s.quiet.respond line = s.quiet.calculate line :=
        respond_of_expression hcommand
      rw [respond_of_expression hcommand] at hline ⊢
      simp only [expressionLines, List.filter_cons, hcommand, Bool.not_false, if_true, after_cons,
        hquiet, (quiet_calculate hline).2]

/-- Displays and commands do not influence what is calculated. If every tree that is to be displayed
can be drawn, then each expression of a sequence of lines is answered as it is in the quiet session
that is given the expressions alone, with its tokens and its tree in front as far as they are
displayed at that point, and it leaves the same variables. What is displayed is switched by the
commands for it and not by expressions. -/
theorem displays_do_not_interfere (s : Session) (lines : List String)
    (hdrawn : ∀ answer ∈ s.respondAll lines, answer.1 ≠ .rejected .drawing) :
    ∀ before line rest, lines = before ++ line :: rest →
      let loud := s.after before
      let quiet := s.quiet.after (expressionLines before)
      (loud.showTokens = Bool.not^[before.countP (gives .tokens)] s.showTokens ∧
        loud.showTree = Bool.not^[before.countP (gives .tree)] s.showTree) ∧
      (isCommandLine line = false →
        loud.Displays line (loud.respond line).1 (quiet.respond line).1 ∧
        (loud.respond line).2.env = (quiet.respond line).2.env ∧
        (loud.respond line).2.showTokens = loud.showTokens ∧
        (loud.respond line).2.showTree = loud.showTree) := by
  rintro before line rest rfl loud quiet
  have hswitch := fun s line => (step_respond s line).shows_eq
  rw [respondAll_append, respondAll_cons] at hdrawn
  obtain ⟨hbefore, hfrom⟩ := List.forall_mem_append.mp hdrawn
  have hquiet : quiet = loud.quiet := quiet_after hbefore
  refine ⟨⟨?_, ?_⟩, fun hline => ?_⟩
  · exact after_of_switch (fun s line => (hswitch s line).1) s before
  · exact after_of_switch (fun s line => (hswitch s line).2) s before
  · have hno (c : Command) : gives c line = false := by simp [gives, hline]
    have hshows := hswitch loud line
    have hdrawn : (loud.respond line).1 ≠ .rejected .drawing := (List.forall_mem_cons.mp hfrom).1
    rw [hno, hno] at hshows
    rw [respond_of_expression hline] at hshows hdrawn
    obtain ⟨hdisplays, hsession⟩ := quiet_calculate hdrawn
    rw [hquiet, respond_of_expression hline, respond_of_expression hline, hsession]
    exact ⟨hdisplays, rfl, hshows⟩

/-- In a session that displays trees, a command switches tokens on, and the line `(a := 1) / 0`
fails after its assignment. What is displayed of the line `a` stands in front of its value. -/
theorem displays_do_not_interfere_failure :
    let s : Session := ⟨.standard, 100, false, false, true, .empty⟩
    let before := [".tokens", "(a := 1) / 0"]
    let loud := s.after before
    let quiet := s.quiet.after ["(a := 1) / 0"]
    (∀ answer ∈ s.respondAll (before ++ ["a"]), answer.1 ≠ .rejected .drawing) ∧
      ((loud.respond "a").1 = .accepted "IDENTIFIER 'a' [0, 1)\n└── a\n= 1" ∧
        (quiet.respond "a").1 = .accepted "= 1") ∧
      loud.Displays "a" (loud.respond "a").1 (quiet.respond "a").1 ∧
      (loud.respond "a").2.env = (quiet.respond "a").2.env := by
  intro s before loud quiet
  have hanswers : (s.respondAll (before ++ ["a"])).map Prod.fst =
      [.accepted "enabled token printing",
        .rejected (.evaluation (.arithmetic (.divisionByZero 1))),
        .accepted "IDENTIFIER 'a' [0, 1)\n└── a\n= 1"] := by decide +kernel
  have hdrawn : ∀ answer ∈ s.respondAll (before ++ ["a"]), answer.1 ≠ .rejected .drawing := by
    intro answer hmem hdrawing
    have hreply := List.mem_map_of_mem (f := Prod.fst) hmem
    rw [hanswers, hdrawing] at hreply
    simp at hreply
  have hbefore : expressionLines before = ["(a := 1) / 0"] := by decide +kernel
  obtain ⟨-, hexpression⟩ := displays_do_not_interfere s _ hdrawn before "a" [] rfl
  rw [hbefore] at hexpression
  obtain ⟨hdisplays, henv, -⟩ := hexpression (by decide +kernel)
  exact ⟨hdrawn, ⟨by decide +kernel, by decide +kernel⟩, hdisplays, henv⟩

end Session

end Calculator
