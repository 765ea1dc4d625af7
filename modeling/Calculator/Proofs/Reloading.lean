import Calculator.Proofs.Evaluation.Frame
import Calculator.Proofs.FailedLines
import Calculator.Proofs.Grammar.Names
import Calculator.Proofs.Numeral.Canonical

/-!
# Reloading variables

The variables of a session can be taken over into a new one by assigning its value to each of them.
All that a session assigns to are identifiers of its lines, so a line can be written with them, and
the numeral of a value is read back as the value, whatever its size and sign.
-/

namespace Calculator

open Text

/-! ### Names of variables -/

/-- Every variable is spelled as an identifier is. -/
def Environment.Spelled (env : Environment) : Prop :=
  ∀ x ∈ env.names, Token.Kind.identifier.Spelled x.toList

lemma Environment.Spelled.commit {env : Environment} {ws : List (String × Int)} (h : env.Spelled)
    (hws : ∀ x ∈ ws.map Prod.fst, Token.Kind.identifier.Spelled x.toList) :
    (env.commit ws).Spelled := by
  intro x hx
  rw [names_commit, List.mem_append, mem_newNames_iff] at hx
  exact hx.elim (h x) fun hnew => hws x hnew.1

namespace Session

variable {s s' : Session} {line : String} {reply : Reply} {ts : List Token} {e : Expr}

/-- What a line assigns to are identifiers of the line. -/
lemma spelled_of_read (hread : s.read line = .ok (ts, e)) :
    ∀ x ∈ e.targets, Token.Kind.identifier.Spelled x.toList := by
  intro x hx
  obtain ⟨hts, he⟩ := read_eq_ok_iff.mp hread
  exact Expr.named_of_ofText hts he x (Expr.mem_idents_iff.mpr (.inl hx))

lemma spelled_commit_run (hread : s.read line = .ok (ts, e)) (h : s.env.Spelled) :
    (s.env.commit (s.run e).writes).Spelled :=
  h.commit fun x hx =>
    spelled_of_read hread x (Expr.run_assignsOnly s.limit e s.allowance s.env x hx)

lemma Step.spelled (hstep : Step s line reply s') (h : s.env.Spelled) : s'.env.Spelled := by
  cases hstep with
  | @perform c _ _ => cases c <;> exact h
  | unknown _ _ | unread _ _ | undrawn _ _ _ => exact h
  | finish _ hread _ _ => exact spelled_commit_run hread h
  | fail _ hread _ _ =>
    split
    · exact h
    · exact spelled_commit_run hread h

/-- In every session, all variables are spelled as identifiers are. -/
theorem spelled_after (h : s.env.Spelled) (lines : List String) : (s.after lines).env.Spelled := by
  induction lines generalizing s with
  | nil => exact h
  | cons line lines ih => exact ih ((step_respond s line).spelled h)

end Session

/-! ### Assignments as lines -/

/-- The line that assigns a value to a variable. -/
def assignmentLine (entry : String × Int) : String := entry.1 ++ " := " ++ Decimal.ofInt entry.2

/-- The lines that assign its value to each variable, in sorted order. -/
def Environment.dump (env : Environment) : List String := env.sorted.map assignmentLine

namespace Expr

/-- The tree that assigns a value to a variable. -/
def assignment (entry : String × Int) : Expr := binary .assign (ident entry.1) (numeral entry.2)

lemma need_assignment (entry : String × Int) : (assignment entry).need ≤ 3 := by
  simp only [assignment, numeral]
  split <;> simp [need]

lemma height_assignment (entry : String × Int) : (assignment entry).height ≤ 3 := by
  simp only [assignment, numeral]
  split <;> simp [height]

lemma wellLevelled_assignment (entry : String × Int) : (assignment entry).WellLevelled :=
  ⟨⟨by simp [BinaryOp.leftLevel, level], Nat.zero_le _⟩, trivial, wellLevelled_numeral entry.2⟩

lemma run_assignment (limit : Int) (entry : String × Int) (env : Environment) :
    (assignment entry).run limit .unlimited env = ⟨.ok entry.2, [entry]⟩ := by
  simp [assignment, run, Run.enter, run_numeral, Run.andThen, Run.value]

end Expr

/-- A letter is not blank. -/
lemma isBlank_eq_false_of_isLetter {c : Char} (h : isLetter c = true) : isBlank c = false := by
  -- letters and blanks are listed as intervals, so it is checked for each two of these
  have hascii : ∀ i ∈ blanks.intervals, i.2 < 65 ∨ 122 < i.1 := by decide
  have hbeyond : ∀ i ∈ blanks.intervals, ∀ j ∈ lettersBeyondAscii.intervals,
      i.2 < j.1 ∨ j.2 < i.1 := by decide +kernel
  by_contra hblank
  rw [Bool.not_eq_false, isBlank, CharSet.contains_iff] at hblank
  obtain ⟨i, hi, hlow, hhigh⟩ := hblank
  by_cases hc : c.toNat < 128
  · rw [isLetter_of_ascii hc] at h
    have hbounds := toNat_of_isAlpha h
    have hapart := hascii i hi
    omega
  · rw [isLetter, if_neg hc, CharSet.contains_iff] at h
    obtain ⟨j, hj, hlow', hhigh'⟩ := h
    have hapart := hbeyond i hi j hj
    omega

section Line

variable {entry : String × Int} (hname : Token.Kind.identifier.Spelled entry.1.toList)

include hname

lemma isCommandLine_assignmentLine : Session.isCommandLine (assignmentLine entry) = false := by
  obtain ⟨c, w, hcw⟩ := List.exists_cons_of_ne_nil hname.ne_nil
  rw [hcw] at hname
  have hc : isLetter c = true := hname.isLetter_iff.mpr trivial
  have hperiod : c ≠ '.' := by
    rintro rfl
    exact absurd hc (by decide)
  have hstart : (stripStart (assignmentLine entry)).toList = (assignmentLine entry).toList := by
    simp [stripStart, dropLeading, assignmentLine, hcw, isBlank_eq_false_of_isLetter hc]
  rw [Session.isCommandLine, hstart]
  simp [assignmentLine, hcw, hperiod]

lemma exists_ofText_assignmentLine :
    ∃ ts, Token.ofText (assignmentLine entry) = .ok ts ∧
      ts.map Token.lexeme = (Expr.assignment entry).lexemes := by
  have hspace : ∀ d ∈ [' '], Token.isSpace d = true := List.forall_mem_singleton.mpr rfl
  have hvalue := Token.Says.nil.numeral nofun entry.2
  have hline := hvalue.assignment hname hspace hspace
  have htext : (assignmentLine entry).toList = entry.1.toList ++ ([' '] ++ ':' :: '=' ::
      ([' '] ++ ((Decimal.ofInt entry.2).toList ++ []))) := by
    simp [assignmentLine]
  have hlexemes : (Expr.assignment entry).lexemes =
      .ident (String.ofList entry.1.toList) :: .mark .becomes ::
        ((Expr.numeral entry.2).lexemes ++ []) := by
    simp [Expr.assignment, Expr.lexemes, BinaryOp.kind]
  refine Token.Says.exists_ofText ?_
  rw [htext, hlexemes]
  exact hline

end Line

/-! ### Reloading -/

namespace Session

/-- The session allows the three levels of an assignment and displays values only. -/
structure Plain (s : Session) : Prop where
  allowance : (Allowance.levels 3).AtMost s.allowance
  tokens : s.showTokens = false
  tree : s.showTree = false

variable {s : Session} {entry : String × Int} {entries : List (String × Int)}

lemma run_assignment (hs : s.Plain) (entry : String × Int) :
    s.run (.assignment entry) = ⟨.ok entry.2, [entry]⟩ := by
  rw [run, Expr.run_of_atMost s.limit (Expr.height_assignment entry) hs.allowance,
    Expr.run_assignment]

/-- The line that assigns a value to a variable is answered with the value. -/
lemma respond_assignmentLine (hs : s.Plain)
    (hname : Token.Kind.identifier.Spelled entry.1.toList) :
    s.respond (assignmentLine entry) =
      (.accepted ("= " ++ Decimal.ofInt entry.2), { s with env := s.env.set entry.1 entry.2 }) := by
  obtain ⟨ts, hts, hlexemes⟩ := exists_ofText_assignmentLine hname
  have he : Expr.ofTokens s.allowance ts = .ok (.assignment entry) :=
    Expr.ofTokens_of_atMost (Expr.wellLevelled_assignment entry) hlexemes
      (Expr.need_assignment entry) hs.allowance
  have hread : s.read (assignmentLine entry) = .ok (ts, .assignment entry) :=
    read_eq_ok_iff.mpr ⟨hts, he⟩
  have hshown : s.diagnostics ts (.assignment entry) = .ok [] := by
    simp [diagnostics, hs.tokens, hs.tree]
  have hrun := run_assignment hs entry
  have hevaluate := evaluate_of_ok (congrArg Run.outcome hrun)
  rw [hrun, Environment.commit_cons, Environment.commit_nil] at hevaluate
  simp [respond, isCommandLine_assignmentLine hname, calculate, hread, hshown, hevaluate]

/-- Assignments that are given as lines are made one after the other. -/
theorem respondAll_assignmentLines (hs : s.Plain)
    (hnames : ∀ entry ∈ entries, Token.Kind.identifier.Spelled entry.1.toList) :
    (s.respondAll (entries.map assignmentLine)).map Prod.fst =
        entries.map (fun entry => .accepted ("= " ++ Decimal.ofInt entry.2)) ∧
      s.after (entries.map assignmentLine) = { s with env := s.env.commit entries } := by
  induction entries generalizing s with
  | nil => exact ⟨rfl, rfl⟩
  | cons entry entries ih =>
    obtain ⟨hname, hnames⟩ := List.forall_mem_cons.mp hnames
    have hline := respond_assignmentLine hs hname
    have hs' : Plain { s with env := s.env.set entry.1 entry.2 } :=
      ⟨hs.allowance, hs.tokens, hs.tree⟩
    obtain ⟨hreplies, hafter⟩ := ih hs' hnames
    rw [List.map_cons, List.map_cons, after_cons, respondAll, hline]
    exact ⟨congrArg (_ :: ·) hreplies, hafter⟩

/-- The variables that any lines leave in a new session can be taken over into another one, of which
the lines may be nested in three levels. Of the lines that assign its value to each of them in
sorted order, every one is answered with its value, and they leave the same sorted list of
variables. -/
theorem reload_dump (settings settings' : Settings) (allowance allowance' : Allowance)
    (lines : List String) (hallowed : (Allowance.levels 3).AtMost allowance')
    (htokens : settings'.showTokens = false) (htree : settings'.showTree = false) :
    let env := ((ofSettings allowance settings).after lines).env
    let fresh := ofSettings allowance' settings'
    (fresh.respondAll env.dump).map Prod.fst =
        env.sorted.map (fun entry => .accepted ("= " ++ Decimal.ofInt entry.2)) ∧
      (fresh.after env.dump).env.sorted = env.sorted := by
  intro env fresh
  have hnew : (ofSettings allowance settings).env.Spelled := fun x hx => absurd hx List.not_mem_nil
  have hspelled : env.Spelled := spelled_after hnew lines
  have hnames : ∀ entry ∈ env.sorted, Token.Kind.identifier.Spelled entry.1.toList :=
    fun entry hentry =>
      hspelled entry.1 (List.mem_map_of_mem (env.sorted_perm.mem_iff.mp hentry))
  have hplain : fresh.Plain := ⟨hallowed, htokens, htree⟩
  obtain ⟨hreplies, hafter⟩ := respondAll_assignmentLines hplain hnames
  refine ⟨hreplies, ?_⟩
  rw [Environment.dump, hafter]
  exact env.sorted_ofEntries_sorted

/-- The first session rolls back, so it has no variable `c`. The names are sorted by code points. -/
theorem reload_dump_rollback :
    let settings := { Settings.default none with rollbackOnError := true, showTree := true }
    let lines := ["ß := -2", ".vars", "a := ß ^ 2", "(c := 1) / 0", "Z := a + 3", "a := -a"]
    let env := ((ofSettings .standard settings).after lines).env
    let fresh := ofSettings (.levels 3) (.default none)
    (Allowance.levels 3).AtMost (.levels 3) ∧ env.dump = ["Z := 7", "a := -4", "ß := -2"] ∧
      (fresh.respondAll env.dump).map Prod.fst =
        [.accepted "= 7", .accepted "= -4", .accepted "= -2"] ∧
      (fresh.after env.dump).env.sorted = [("Z", 7), ("a", -4), ("ß", -2)] := by
  intro settings lines env fresh
  have hentries : env.entries = [("ß", -2), ("a", -4), ("Z", 7)] := by decide +kernel
  have hsorted : env.sorted = [("Z", 7), ("a", -4), ("ß", -2)] := by
    rw [Environment.sorted, hentries]
    simp [List.mergeSort]
  have hallowed : (Allowance.levels 3).AtMost (.levels 3) := Nat.le_refl 3
  obtain ⟨hreplies, hafter⟩ :=
    reload_dump settings (.default none) .standard (.levels 3) lines hallowed rfl rfl
  have hdump : env.dump = ["Z := 7", "a := -4", "ß := -2"] := by
    rw [Environment.dump, hsorted]
    decide +kernel
  refine ⟨hallowed, hdump, hreplies.trans ?_, hafter.trans hsorted⟩
  rw [hsorted]
  decide +kernel

end Session

end Calculator
