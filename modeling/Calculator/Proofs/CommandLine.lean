import Calculator.CommandLine.Run
import Calculator.Proofs.Loops
import Calculator.Proofs.Nesting.Lines

/-!
# Lines as options

Lines that are given as options, each attached to a long name of its own, are answered as the lines
of a stream, up to the first that fails. The two may allow lines to be nested to different depths,
which makes no difference unless one of them refuses a line for that. The separator of options is
the one line that does not come through. As a line it is an expression that cannot be read, but as
an option it is no text at all, and what is printed for it is not what the line fails with.
-/

namespace Calculator

open Text

/-- Whether a line has been answered without failing. -/
def Reply.succeeds : Reply → Bool
  | .rejected _ => false
  | .accepted _ | .closed => true

namespace Session

variable {s : Session} {line : String} {lines : List String}

/-! ### Up to the first failure -/

/-- The lines up to the first that fails, and that line. -/
def untilFailure (s : Session) : List String → List String
  | [] => []
  | line :: lines =>
    let (reply, s) := s.respond line
    line :: if reply.succeeds then s.untilFailure lines else []

/-- Whether one of the lines fails. -/
def fails (s : Session) (lines : List String) : Bool :=
  (s.respondAll lines).any fun answer => !answer.1.succeeds

/-- What is printed for lines all of which are answered. -/
def texts (s : Session) (lines : List String) : List String :=
  (s.respondAll lines).filterMap fun answer => answer.1.text?

lemma fails_cons : s.fails (line :: lines) =
    (!(s.respond line).1.succeeds || (s.respond line).2.fails lines) := by
  simp [fails, respondAll_cons]

lemma texts_cons : s.texts (line :: lines) =
    (s.respond line).1.text?.toList ++ (s.respond line).2.texts lines := by
  cases h : (s.respond line).1.text? <;> simp [texts, respondAll_cons, h]

lemma texts_append (s : Session) (lines lines' : List String) :
    s.texts (lines ++ lines') = s.texts lines ++ (s.after lines).texts lines' := by
  simp [texts, respondAll_append]

/-- Either no line fails, or there is a first one that does. -/
theorem untilFailure_cases (s : Session) (lines : List String) :
    (s.fails lines = false ∧ s.untilFailure lines = lines) ∨
      ∃ before line rest, lines = before ++ line :: rest ∧ s.fails before = false ∧
        ((s.after before).respond line).1.succeeds = false ∧ s.fails lines = true ∧
        s.untilFailure lines = before ++ [line] := by
  induction lines generalizing s with
  | nil => exact .inl ⟨rfl, rfl⟩
  | cons line lines ih =>
    cases hline : (s.respond line).1.succeeds with
    | false =>
      exact .inr ⟨[], line, lines, rfl, rfl, hline, by simp [fails_cons, hline],
        by simp [untilFailure, hline]⟩
    | true =>
      rcases ih (s.respond line).2 with ⟨hfails, huntil⟩ |
        ⟨before, first, rest, rfl, hbefore, hfirst, hfails, huntil⟩
      · exact .inl ⟨by simp [fails_cons, hline, hfails], by simp [untilFailure, hline, huntil]⟩
      · exact .inr ⟨line :: before, first, rest, rfl, by simp [fails_cons, hline, hbefore], hfirst,
          by simp [fails_cons, hline, hfails], by simp [untilFailure, hline, huntil]⟩

lemma untilFailure_subset (s : Session) (lines : List String) : s.untilFailure lines ⊆ lines := by
  rcases untilFailure_cases s lines with ⟨-, h⟩ | ⟨before, line, rest, rfl, -, -, -, h⟩
  · rw [h]
    exact List.Subset.refl lines
  · rw [h, List.append_cons before line rest]
    exact List.subset_append_left (before ++ [line]) rest

/-- There is room for the lines up to the first failure if there is room for the first line and,
unless it fails, for those behind it. -/
lemma hasRoom_untilFailure_cons : s.HasRoom (s.untilFailure (line :: lines)) ↔
    (s.respond line).1.isTooDeep = false ∧ ((s.respond line).1.succeeds = true →
      (s.respond line).2.HasRoom ((s.respond line).2.untilFailure lines)) := by
  rw [untilFailure, HasRoom, respondAll_cons, List.forall_mem_cons]
  cases (s.respond line).1.succeeds <;> simp [HasRoom, respondAll]

lemma fails_unlimited (h : s.HasRoom (s.untilFailure lines)) :
    s.unlimited.fails lines = s.fails lines := by
  induction lines generalizing s with
  | nil => rfl
  | cons line lines ih =>
    obtain ⟨hline, hrest⟩ := hasRoom_untilFailure_cons.mp h
    rw [fails_cons, fails_cons, respond_unlimited hline]
    cases hsucceeds : (s.respond line).1.succeeds with
    | false => rfl
    | true => rw [ih (hrest hsucceeds)]

lemma prints_of_not_blank (h : ∀ line ∈ lines, allBlank line = false) :
    s.prints lines = (s.respondAll lines).map fun answer => answer.1.text? := by
  induction lines generalizing s with
  | nil => rfl
  | cons line lines ih =>
    obtain ⟨hblank, hlines⟩ := List.forall_mem_cons.mp h
    rw [prints_cons hblank, ih hlines, respondAll_cons, List.map_cons]

/-- The lines of a stream are all answered if none of them is blank or closes the session. -/
lemma printed_pipe_stream
    (hlines : ∀ line ∈ lines, IsLine line ∧ allBlank line = false ∧ gives .exit line = false) :
    (s.pipe (stream lines)).printed = s.texts lines := by
  have hbefore : beforeExit lines = lines :=
    List.takeWhile_eq_self_iff.mpr fun line h => by simp [(hlines line h).2.2]
  rw [pipe, linesOf_stream fun line h => (hlines line h).1, answerAll_eq, hbefore,
    prints_of_not_blank fun line h => (hlines line h).2.1, List.reduceOption, List.filterMap_map]
  rfl

/-- The separator of options is a line that cannot be read. -/
lemma succeeds_respond_separator (s : Session) : (s.respond "--").1.succeeds = false := by
  have hline : isCommandLine "--" = false := by decide +kernel
  have hts : Token.ofText "--" = .ok [⟨.minus, 0, 1, "-"⟩, ⟨.minus, 1, 2, "-"⟩] := by
    decide +kernel
  obtain ⟨stop, hstop⟩ : ∃ stop, Expr.ofTokens s.allowance
      [⟨.minus, 0, 1, "-"⟩, ⟨.minus, 1, 2, "-"⟩] = .error stop := by
    rcases Expr.ofTokens_upToNesting s.allowance _ with ⟨rest, hdeep⟩ | heq
    · exact ⟨_, hdeep⟩
    · exact ⟨_, heq.trans rfl⟩
  have hread : s.read "--" = .error (.parsing stop.cause) :=
    read_eq_error_iff.mpr (.inr ⟨_, stop, hts, hstop, rfl⟩)
  simp [respond_of_expression hline, calculate, hread, error_bind, Reply.succeeds]

lemma separator_notMem (h : s.fails lines = false) : "--" ∉ lines := by
  intro hmem
  obtain ⟨before, rest, rfl⟩ := List.append_of_mem hmem
  simp [fails, respondAll_append, respondAll_cons, succeeds_respond_separator] at h

end Session

namespace CommandLine

open Session

variable {s : Session} {line : String} {lines : List String}

/-! ### Lines as options -/

/-- The option to evaluate a line, which is attached to the long name. -/
def evalArgument (line : String) : String := "--eval=" ++ line

lemma role?_evalArgument (line : String) :
    role? (evalArgument line) = some (.long .eval (some line)) := by
  have hcs : (evalArgument line).toList =
      '-' :: '-' :: 'e' :: 'v' :: 'a' :: 'l' :: '=' :: line.toList := by
    simp [evalArgument]
  have hname : Flag.ofName? ['-', '-', 'e', 'v', 'a', 'l'] = some .eval := by decide +kernel
  simp [role?, hcs, splitEquals, hname]

lemma roles?_evalArguments (lines : List String) :
    roles? (lines.map evalArgument) =
      some (lines.map fun line => (evalArgument line, .long .eval (some line))) := by
  induction lines with
  | nil => rfl
  | cons line lines ih => simp [roles?, role?_evalArgument, ih]

lemma collect_evalArguments (args : Arguments) (lines : List String) :
    collect args false (lines.map fun line => (evalArgument line, .long .eval (some line))) =
      .ok { args with eval := args.eval ++ lines.map OptionValue.ofText } := by
  induction lines generalizing args with
  | nil => simp [collect]
  | cons line lines ih => simp [collect, Flag.hasValue, Arguments.put, ih]

/-- A command line of options to evaluate lines says just that. -/
theorem parse_evalArguments (lines : List String) :
    parse (lines.map evalArgument) =
      .ok { Arguments.empty with eval := lines.map OptionValue.ofText } := by
  rw [parse, roles?_evalArguments]
  exact collect_evalArguments .empty lines

/-! ### Answering options -/

lemma ofText_of_ne (h : line ≠ "--") : OptionValue.ofText line = .given line := by
  simp [OptionValue.ofText, h]

lemma ne_separator_of_succeeds (h : (s.respond line).1.succeeds = true) : line ≠ "--" := by
  rintro rfl
  simp [succeeds_respond_separator] at h

/-- As long as lines do not fail, they are answered as options in the way they are as lines. -/
lemma answerEach_append (hlines : ∀ line ∈ lines, gives .exit line = false)
    (h : s.fails lines = false) (values : List OptionValue) :
    answerEach s (lines.map OptionValue.ofText ++ values) =
      (s.texts lines ++ (answerEach (s.after lines) values).1,
        (answerEach (s.after lines) values).2) := by
  induction lines generalizing s with
  | nil => rfl
  | cons line lines ih =>
    obtain ⟨hexit, hlines⟩ := List.forall_mem_cons.mp hlines
    rw [fails_cons, Bool.or_eq_false_iff, Bool.not_eq_false'] at h
    obtain ⟨hline, hfails⟩ := h
    have hrest := ih hlines hfails
    rw [List.map_cons, ofText_of_ne (ne_separator_of_succeeds hline), texts_cons, after_cons]
    obtain ⟨text, htext⟩ := text?_of_not_exit (s := s) hexit
    cases hrespond : s.respond line with
    | mk reply s' =>
      rw [hrespond] at hline htext hrest
      cases reply with
      | accepted text => simp [answerEach, hrespond, hrest, Reply.text?]
      | rejected failure => cases hline
      | closed => cases htext

/-- Options behind the first whose line fails are not answered. -/
lemma answerEach_of_fails {before : List String} (hexit : ∀ line ∈ before, gives .exit line = false)
    (hbefore : s.fails before = false) (h : ((s.after before).respond line).1.succeeds = false)
    (values : List OptionValue) :
    answerEach s (before.map OptionValue.ofText ++ .ofText line :: values) =
      (s.texts before ++ if line = "--" then [noTextReport] else (s.after before).texts [line],
        .finished 1) := by
  rw [answerEach_append hexit hbefore]
  by_cases hne : line = "--"
  · simp [hne, OptionValue.ofText, answerEach]
  · rw [ofText_of_ne hne, if_neg hne, texts_cons]
    cases hrespond : (s.after before).respond line with
    | mk reply s' =>
      rw [hrespond] at h
      cases reply with
      | rejected failure => simp [answerEach, hrespond, Reply.text?, texts, respondAll]
      | accepted text => cases h
      | closed => cases h

/-- Options are answered up to the first whose line fails. -/
theorem answerEach_eq (hexit : ∀ line ∈ lines, gives .exit line = false) :
    answerEach s (lines.map OptionValue.ofText) =
      if "--" ∈ s.untilFailure lines then
        (s.texts (s.untilFailure lines).dropLast ++ [noTextReport], .finished 1)
      else (s.texts (s.untilFailure lines), .finished (if s.fails lines then 1 else 0)) := by
  rcases untilFailure_cases s lines with ⟨hfails, hshown⟩ |
    ⟨before, line, rest, rfl, hbefore, hline, hfails, hshown⟩
  · have hanswer := answerEach_append hexit hfails []
    rw [List.append_nil, answerEach, List.append_nil] at hanswer
    rw [hshown, if_neg (separator_notMem hfails), hfails, hanswer]
    rfl
  · have hanswer := answerEach_of_fails (fun line h => hexit line (List.mem_append_left _ h))
      hbefore hline (rest.map OptionValue.ofText)
    have hmem : "--" ∈ before ++ [line] ↔ line = "--" := by
      simp [separator_notMem hbefore, eq_comm]
    rw [List.map_append, List.map_cons, hanswer, hshown]
    by_cases hne : line = "--"
    · rw [if_pos hne, if_pos (hmem.mpr hne), List.dropLast_concat]
    · rw [if_neg hne, if_neg (fun h => hne (hmem.mp h)), texts_append, hfails]
      rfl

/-- Options behind a line that fails are not answered. -/
theorem answerEach_append_of_fails (hexit : ∀ line ∈ lines, gives .exit line = false)
    (h : s.fails lines = true) (values : List OptionValue) :
    answerEach s (lines.map OptionValue.ofText ++ values) =
      answerEach s (lines.map OptionValue.ofText) := by
  rcases untilFailure_cases s lines with ⟨hfails, -⟩ |
    ⟨before, line, rest, rfl, hbefore, hline, -, -⟩
  · rw [h] at hfails
    cases hfails
  · have hanswer := answerEach_of_fails (fun line h => hexit line (List.mem_append_left _ h))
      hbefore hline
    rw [List.map_append, List.map_cons, List.append_assoc, List.cons_append, hanswer, hanswer]

/-! ### Room for the lines -/

/-- A limit that leaves room for the lines makes no difference. -/
lemma answerEach_unlimited (h : s.HasRoom (s.untilFailure lines)) :
    answerEach s.unlimited (lines.map OptionValue.ofText) =
      answerEach s (lines.map OptionValue.ofText) := by
  induction lines generalizing s with
  | nil => rfl
  | cons line lines ih =>
    obtain ⟨hline, hrest⟩ := hasRoom_untilFailure_cons.mp h
    have hanswer := respond_unlimited hline
    rw [List.map_cons]
    by_cases hne : line = "--"
    · rw [hne]
      rfl
    · rw [ofText_of_ne hne, answerEach, answerEach, hanswer]
      cases hrespond : s.respond line with
      | mk reply s' =>
        rw [hrespond] at hrest
        cases reply with
        | accepted text => simp only [ih (hrest rfl)]
        | rejected failure => rfl
        | closed => rfl

/-- Under two limits of which both leave room for the lines, the same is answered and fails. -/
lemma answerEach_eq_of_hasRoom {direct loop : Allowance} {settings : Settings}
    (hroom : direct = loop ∨ ∀ allowance ∈ [direct, loop],
      let s := Session.ofSettings allowance settings
      s.HasRoom (s.untilFailure lines)) :
    answerEach (.ofSettings direct settings) (lines.map OptionValue.ofText) =
        answerEach (.ofSettings loop settings) (lines.map OptionValue.ofText) ∧
      (Session.ofSettings direct settings).fails lines =
        (Session.ofSettings loop settings).fails lines := by
  rcases hroom with rfl | hroom
  · exact ⟨rfl, rfl⟩
  · have hdirect := hroom direct (by simp)
    have hloop := hroom loop (by simp)
    have hsame : (Session.ofSettings direct settings).unlimited =
        (Session.ofSettings loop settings).unlimited := rfl
    exact ⟨by rw [← answerEach_unlimited hdirect, hsame, answerEach_unlimited hloop],
      by rw [← fails_unlimited hdirect, hsame, fails_unlimited hloop]⟩

/-- Running a command line of options to evaluate lines answers the options. -/
lemma run_eq_answerEach {direct loop : Allowance} {settings : Settings}
    {inherited : List (String × String)} {file : List EnvFile.Binding} (hne : lines ≠ [])
    (hload : Settings.load Arguments.empty.overrides inherited file = .ok settings)
    (input : String) :
    run direct loop (lines.map evalArgument) inherited file input =
      answerEach (.ofSettings direct settings) (lines.map OptionValue.ofText) := by
  have hsame : Arguments.overrides { Arguments.empty with eval := lines.map OptionValue.ofText } =
      Arguments.empty.overrides := rfl
  rw [run, plan, parse_evalArguments]
  simp only [hsame, hload]
  cases lines with
  | nil => cases hne rfl
  | cons line lines => rfl

/-- Lines that are given as options, one each, are answered as the lines of a stream are, up to the
first that fails, which makes the exit status 1. All of them are answered in one session, and what
is behind the first that fails is not answered. Only what is printed for the separator of options is
not the failure of that line.

A stream is read from deeper down than options are, so the two may not allow the same nesting. Then
they agree on lines up to a failure that neither of them refuses for its nesting. -/
theorem run_evalArguments {direct loop : Allowance} {settings : Settings}
    {inherited : List (String × String)} {file : List EnvFile.Binding} (hne : lines ≠ [])
    (hlines : ∀ line ∈ lines, IsLine line ∧ allBlank line = false ∧ gives .exit line = false)
    (hload : Settings.load Arguments.empty.overrides inherited file = .ok settings)
    (hroom : direct = loop ∨ ∀ allowance ∈ [direct, loop],
      let s := Session.ofSettings allowance settings
      s.HasRoom (s.untilFailure lines))
    (input : String) :
    let s := Session.ofSettings loop settings
    let shown := s.untilFailure lines
    let outcome := run direct loop (lines.map evalArgument) inherited file input
    ("--" ∉ shown →
      outcome = ((s.pipe (stream shown)).printed, .finished (if s.fails lines then 1 else 0))) ∧
    ("--" ∈ shown →
      outcome = ((s.pipe (stream shown.dropLast)).printed ++ [noTextReport], .finished 1)) ∧
    (s.pipe (stream shown)).printed = s.texts shown ∧
    (s.fails lines = true →
      ∀ rest,
        run direct loop ((lines ++ rest).map evalArgument) inherited file input = outcome) := by
  intro s shown outcome
  have hexit : ∀ line ∈ lines, gives .exit line = false := fun line h => (hlines line h).2.2
  have hshown : ∀ line ∈ shown, IsLine line ∧ allBlank line = false ∧ gives .exit line = false :=
    fun line h => hlines line (untilFailure_subset s lines h)
  have hprinted : (s.pipe (stream shown)).printed = s.texts shown := printed_pipe_stream hshown
  obtain ⟨hanswers, hsameFails⟩ := answerEach_eq_of_hasRoom hroom
  have hrun : outcome = answerEach (.ofSettings direct settings) (lines.map OptionValue.ofText) :=
    run_eq_answerEach hne hload input
  have houtcome : outcome = answerEach s (lines.map OptionValue.ofText) := hrun.trans hanswers
  refine ⟨fun hmem => ?_, fun hmem => ?_, hprinted, fun hfails rest => ?_⟩
  · rw [houtcome, answerEach_eq hexit, if_neg hmem, hprinted]
  · rw [houtcome, answerEach_eq hexit, if_pos hmem,
      printed_pipe_stream fun line h => hshown line (List.dropLast_subset _ h)]
  · rw [hrun, run_eq_answerEach (List.append_ne_nil_of_left_ne_nil hne rest) hload,
      List.map_append, answerEach_append_of_fails hexit (hsameFails.trans hfails)]

/-- The lines share a variable, one of them is a command, and the last is behind one that fails. The
stream allows two levels less than the options do. -/
theorem run_evalArguments_division :
    let lines := ["a := 2", " .vars", "a / 0", "a"]
    let s := Session.ofSettings (.levels 998) (.default none)
    (lines ≠ [] ∧
      (∀ line ∈ lines, IsLine line ∧ allBlank line = false ∧ gives .exit line = false) ∧
      Settings.load Arguments.empty.overrides [] [] = .ok (.default none) ∧
      ∀ allowance ∈ [Allowance.standard, .levels 998],
        let s := Session.ofSettings allowance (.default none)
        s.HasRoom (s.untilFailure lines)) ∧
    s.untilFailure lines = ["a := 2", " .vars", "a / 0"] ∧
    run .standard (.levels 998) ["--eval=a := 2", "--eval= .vars", "--eval=a / 0", "--eval=a"]
        [] [] "" =
      (["= 2", "a = 2", "error: division by zero (2 / 0)"], .finished 1) ∧
    (s.pipe (stream (s.untilFailure lines))).printed =
      ["= 2", "a = 2", "error: division by zero (2 / 0)"] := by
  intro lines s
  have hlines : ∀ line ∈ lines, IsLine line ∧ allBlank line = false ∧ gives .exit line = false := by
    decide +kernel
  have hload : Settings.load Arguments.empty.overrides [] [] = .ok (.default none) := by
    decide +kernel
  have hroom : ∀ allowance ∈ [Allowance.standard, .levels 998],
      let s := Session.ofSettings allowance (.default none)
      s.HasRoom (s.untilFailure lines) := by decide +kernel
  have hshown : s.untilFailure lines = ["a := 2", " .vars", "a / 0"] := by decide +kernel
  have hfails : s.fails lines = true := by decide +kernel
  have htexts : s.texts ["a := 2", " .vars", "a / 0"] =
      ["= 2", "a = 2", "error: division by zero (2 / 0)"] := by decide +kernel
  obtain ⟨hrun, -, hprinted, -⟩ :=
    run_evalArguments (by simp [lines]) hlines hload (.inr hroom) ""
  rw [hshown, htexts] at hprinted
  rw [hshown, hprinted, hfails] at hrun
  refine ⟨⟨by simp [lines], hlines, hload, hroom⟩, hshown, ?_, hshown ▸ hprinted⟩
  exact hrun (by decide)

/-- Given as an option, the separator of options is not answered as the line is. -/
theorem run_separator_unlike_line :
    let s := Session.ofSettings .standard (.default none)
    (IsLine "--" ∧ allBlank "--" = false ∧ gives .exit "--" = false) ∧
    Settings.load Arguments.empty.overrides [] [] = .ok (.default none) ∧
    s.untilFailure ["--"] = ["--"] ∧
    (s.pipe (stream ["--"])).printed = ["error: expected an atomic expression, got end of input"] ∧
    run .standard .standard ["--eval=--"] [] [] "" =
      (["unexpected error: 'list' object has no attribute 'lstrip'"], .finished 1) := by
  intro s
  have hline : IsLine "--" ∧ allBlank "--" = false ∧ gives .exit "--" = false := by decide +kernel
  have htexts : s.texts ["--"] = ["error: expected an atomic expression, got end of input"] := by
    decide +kernel
  have hprinted : (s.pipe (stream ["--"])).printed = s.texts ["--"] :=
    printed_pipe_stream fun line hmem => List.mem_singleton.mp hmem ▸ hline
  exact ⟨hline, by decide +kernel, by decide +kernel, hprinted.trans htexts, by decide +kernel⟩

end CommandLine

end Calculator
