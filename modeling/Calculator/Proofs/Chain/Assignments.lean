import Calculator.Proofs.Chain
import Calculator.Proofs.Cutting.Replacing
import Calculator.Proofs.Evaluation.Targets

/-!
# Chains of assignments

Any number of assignments may stand in front of an expression, whatever expression it is. It is
evaluated first, and once; its value is then assigned to the variables from the last one to the
first one, and if it has no value, to none of them.
-/

namespace Calculator

/-! ### Texts and trees -/

/-- A variable that a value is assigned to; there may be space around the operator behind it. -/
structure Assignee where
  name : String
  spelled : Token.Kind.identifier.Spelled name.toList
  before : String := " "
  after : String := " "
  before_blank : ∀ c ∈ before.toList, Token.isSpace c = true := by simp [Token.isSpace]
  after_blank : ∀ c ∈ after.toList, Token.isSpace c = true := by simp [Token.isSpace]

/-- A text with an assignment in front of it. -/
def Assignee.inFront (a : Assignee) (text : String) : String :=
  a.name ++ a.before ++ BinaryOp.assign.symbol ++ a.after ++ text

/-- A text with assignments in front of it. -/
def assignedText (assignees : List Assignee) (text : String) : String :=
  assignees.foldr Assignee.inFront text

namespace Expr

/-- A tree with assignments in front of it. -/
def assignedTo (names : List String) (e : Expr) : Expr :=
  names.foldr (fun x right => binary .assign (ident x) right) e

variable {text : String} {e : Expr} {names : List String} {limit : Int} {allowance : Allowance}
  {env : Environment}

lemma Spells.of_ofText {ts : List Token} (hts : Token.ofText text = .ok ts)
    (he : Expr.ofTokens allowance ts = .ok e) : Spells text e :=
  ⟨ts, hts, (spelled_of_ofTokens he).2⟩

lemma Spells.inFront (h : Spells text e) (a : Assignee) :
    Spells (a.inFront text) (.binary .assign (.ident a.name) e) := by
  obtain ⟨ts, hts, hlexemes⟩ := h
  have hsays := (Token.Says.of_ofText hts).assignment a.spelled a.before_blank a.after_blank
  have htext : (a.inFront text).toList =
      a.name.toList ++ (a.before.toList ++ (':' :: '=' :: (a.after.toList ++ text.toList))) := by
    simp [Assignee.inFront, BinaryOp.symbol]
  rw [← htext, String.ofList_toList, hlexemes] at hsays
  exact hsays.exists_ofText

lemma Spells.assignedText (h : Spells text e) (assignees : List Assignee) :
    Spells (assignedText assignees text) (e.assignedTo (assignees.map Assignee.name)) := by
  induction assignees with
  | nil => exact h
  | cons a assignees ih => exact ih.inFront a

/-- An assignment accepts everything on its right. -/
lemma wellLevelled_assignedTo (h : e.WellLevelled) (names : List String) :
    (e.assignedTo names).WellLevelled := by
  induction names with
  | nil => exact h
  | cons x names ih =>
    exact ⟨⟨by simp [BinaryOp.leftLevel, level], Nat.zero_le _⟩, trivial, ih⟩

/-! ### Evaluation -/

/-- The expression in front of which the assignments stand is evaluated before any is made. -/
lemma run_assignedTo (limit : Int) (e : Expr) (names : List String) (env : Environment) :
    (e.assignedTo names).run limit .unlimited env =
      (e.run limit .unlimited env).andThen env fun v _ => ⟨.ok v, names.reverse.map (·, v)⟩ := by
  induction names with
  | nil =>
    cases h : (e.run limit .unlimited env).outcome with
    | error error => exact (Run.andThen_of_error h).symm
    | ok v =>
      rw [Run.andThen_of_ok h, ← h]
      simp [assignedTo]
  | cons x names ih =>
    have hcons : (e.assignedTo (x :: names)).run limit .unlimited env =
        ((e.assignedTo names).run limit .unlimited env).andThen env
          fun v _ => ⟨.ok v, [(x, v)]⟩ := run_assign limit (ident x) _ env
    rw [hcons, ih]
    cases h : (e.run limit .unlimited env).outcome with
    | error error => rw [Run.andThen_of_error h, Run.andThen_of_error h, Run.andThen_of_error h]
    | ok v =>
      rw [Run.andThen_of_ok h, Run.andThen_of_ok h, Run.andThen_of_ok rfl]
      simp

lemma descent_le_assignedTo (limit : Int) (e : Expr) (names : List String) (env : Environment) :
    e.descent limit env ≤ (e.assignedTo names).descent limit env := by
  induction names with
  | nil => exact Nat.le_refl _
  | cons x names ih =>
    exact Nat.le_trans ih (Nat.le_trans (Nat.le_max_left _ _) (Nat.le_succ _))

/-- If the chain is evaluated to the end, so is the expression in it, and both as without a limit
on nesting. -/
lemma run_of_assignedTo_completes
    (h : ((e.assignedTo names).run limit allowance env).outcome ≠ .error .tooDeep) :
    (e.assignedTo names).run limit allowance env = (e.assignedTo names).run limit .unlimited env ∧
      e.run limit allowance env = e.run limit .unlimited env := by
  cases allowance with
  | unlimited => exact ⟨rfl, rfl⟩
  | levels count =>
    have hdescent : (e.assignedTo names).descent limit env ≤ count :=
      Nat.not_lt.mp (mt run_eq_tooDeep_iff.mpr h)
    exact ⟨run_of_descent_le limit hdescent,
      run_of_descent_le limit (Nat.le_trans (descent_le_assignedTo limit e names env) hdescent)⟩

/-- Assignments in front of a text that can be read are read as assignments of its value. If the
text fails, the whole fails with the same error and has assigned what the text alone assigns. If it
has a value, the whole has it too, and behind what the text alone assigns all of the variables have
been assigned this value, from the last one to the first one. -/
theorem evaluate_assignedText {text : String} {ts : List Token} {allowance : Allowance} {e : Expr}
    (hts : Token.ofText text = .ok ts) (he : ofTokens allowance ts = .ok e)
    (assignees : List Assignee) :
    let names := assignees.map Assignee.name
    let chain := e.assignedTo names
    ∃ ts', Token.ofText (assignedText assignees text) = .ok ts' ∧
      (ofTokens .unlimited ts' = .ok chain ∧
        ∀ allowance', UpToNesting (ofTokens allowance' ts') (.ok chain)) ∧
      ∀ limit allowance' env, (chain.run limit allowance' env).outcome ≠ .error .tooDeep →
        let alone := e.run limit allowance' env
        let whole := chain.run limit allowance' env
        let env' := (e.evaluate limit allowance' env).2
        let env'' := (chain.evaluate limit allowance' env).2
        (∀ error, alone.outcome = .error error →
          whole.outcome = .error error ∧ whole.writes = alone.writes ∧ env'' = env') ∧
        ∀ v, alone.outcome = .ok v →
          whole.outcome = .ok v ∧ whole.writes = alone.writes ++ names.reverse.map (·, v) ∧
            (∀ x ∈ names, env''.get? x = some v) ∧ (∀ x ∉ names, env''.get? x = env'.get? x) ∧
              env''.names = env'.names ++ env'.newNames names.reverse := by
  intro names chain
  have hw : chain.WellLevelled := wellLevelled_assignedTo (spelled_of_ofTokens he).1 names
  obtain ⟨ts', hts', hread⟩ := ((Spells.of_ofText hts he).assignedText assignees).ofTokens hw
  refine ⟨ts', hts', ⟨hread, fun allowance' => ?_⟩, fun limit allowance' env hdeep => ?_⟩
  · rw [← hread]
    exact ofTokens_upToNesting allowance' ts'
  intro alone whole env' env''
  obtain ⟨hwhole, halone⟩ := run_of_assignedTo_completes hdeep
  have hrun : whole = alone.andThen env fun v _ => ⟨.ok v, names.reverse.map (·, v)⟩ :=
    calc
      whole = chain.run limit .unlimited env := hwhole
      _ = (e.run limit .unlimited env).andThen env _ := run_assignedTo limit e names env
      _ = alone.andThen env _ := by rw [← halone]
  have henv' : env' = env.commit alone.writes := rfl
  have henv'' : env'' = env.commit whole.writes := rfl
  refine ⟨fun error herror => ?_, fun v hv => ?_⟩
  · rw [Run.andThen_of_error herror] at hrun
    exact ⟨by rw [hrun, herror], by rw [hrun], by rw [henv'', henv', hrun]⟩
  · rw [Run.andThen_of_ok hv] at hrun
    have hwrites : whole.writes = alone.writes ++ names.reverse.map (·, v) := by rw [hrun]
    have hassigned : (names.reverse.map (·, v)).map Prod.fst = names.reverse := by
      rw [List.map_map]
      exact List.map_id _
    rw [hwrites, Environment.commit_append, ← henv'] at henv''
    refine ⟨by rw [hrun], hwrites, fun x hx => ?_, fun x hx => ?_, ?_⟩
    · rw [henv'']
      exact Environment.get?_commit_of_mem env' (List.mem_reverse.mpr hx) v
    · rw [henv'']
      refine Environment.get?_commit_of_notMem env' ?_
      rwa [hassigned, List.mem_reverse]
    · rw [henv'', Environment.names_commit, hassigned]

/-- In front of `c := b + 1`, a variable that has a value, and two new ones of which one comes
twice. In front of `1 := (d := 2)`, nothing is assigned. -/
theorem evaluate_assignedText_repeated :
    let env := Environment.empty.set "b" 4
    let sum := binary .assign (ident "c") (binary .add (ident "b") (number 1))
    let invalid := binary .assign (number 1) (group (binary .assign (ident "d") (number 2)))
    (sum.run 100 .standard env).outcome = .ok 5 ∧
      (invalid.run 100 .standard env).outcome = .error (.invalidTarget (number 1)) ∧
      (∃ ts, Token.ofText "b := z := a := z := c := b + 1" = .ok ts ∧
        ∃ chain, ofTokens .unlimited ts = .ok chain ∧
          (chain.run 100 .standard env).outcome = .ok 5 ∧
          (∀ x ∈ ["b", "z", "a", "z"], (chain.evaluate 100 .standard env).2.get? x = some 5) ∧
          (chain.evaluate 100 .standard env).2.names = ["b", "c", "z", "a"]) ∧
      ∃ ts, Token.ofText "b := 1 := (d := 2)" = .ok ts ∧
        ∃ chain, ofTokens .unlimited ts = .ok chain ∧
          (chain.run 100 .standard env).outcome = .error (.invalidTarget (number 1)) ∧
          (chain.evaluate 100 .standard env).2 = env.set "d" 2 := by
  intro env sum invalid
  let a : Assignee := { name := "a", spelled := .letter (c := 'a') (by decide) }
  let b : Assignee := { name := "b", spelled := .letter (c := 'b') (by decide) }
  let z : Assignee := { name := "z", spelled := .letter (c := 'z') (by decide) }
  have hsum : (sum.run 100 .standard env).outcome = .ok 5 := by decide
  have hinvalid : (invalid.run 100 .standard env).outcome = .error (.invalidTarget (number 1)) := by
    decide
  refine ⟨hsum, hinvalid, ?_, ?_⟩
  · let ts : List Token := [⟨.identifier, 0, 1, "c"⟩, ⟨.becomes, 2, 4, ":="⟩,
      ⟨.identifier, 5, 6, "b"⟩, ⟨.plus, 7, 8, "+"⟩, ⟨.number, 9, 10, "1"⟩]
    have hts : Token.ofText "c := b + 1" = .ok ts := by decide +kernel
    have he : ofTokens .standard ts = .ok sum := rfl
    have hdeep : ((sum.assignedTo ["b", "z", "a", "z"]).run 100 .standard env).outcome ≠
        .error .tooDeep := by decide
    obtain ⟨ts', hts', ⟨hread, -⟩, hrun⟩ := evaluate_assignedText hts he [b, z, a, z]
    obtain ⟨houtcome, -, hvalues, -, hnames⟩ := (hrun 100 .standard env hdeep).2 5 hsum
    exact ⟨ts', hts', _, hread, houtcome, hvalues, hnames⟩
  · let ts : List Token := [⟨.number, 0, 1, "1"⟩, ⟨.becomes, 2, 4, ":="⟩, ⟨.openParen, 5, 6, "("⟩,
      ⟨.identifier, 6, 7, "d"⟩, ⟨.becomes, 8, 10, ":="⟩, ⟨.number, 11, 12, "2"⟩,
      ⟨.closeParen, 12, 13, ")"⟩]
    have hts : Token.ofText "1 := (d := 2)" = .ok ts := by decide +kernel
    have he : ofTokens .standard ts = .ok invalid := rfl
    have hdeep : ((invalid.assignedTo ["b"]).run 100 .standard env).outcome ≠ .error .tooDeep := by
      decide
    obtain ⟨ts', hts', ⟨hread, -⟩, hrun⟩ := evaluate_assignedText hts he [b]
    obtain ⟨houtcome, -, henv⟩ := (hrun 100 .standard env hdeep).1 _ hinvalid
    exact ⟨ts', hts', _, hread, houtcome, henv⟩

end Expr

end Calculator
