import Calculator.Proofs.Diagnostics
import Calculator.Session.Loop
import Mathlib.Data.List.ReduceOption
import Mathlib.Data.List.TakeWhile

/-!
# Loops over lines

A session that reads a stream and one that asks for its lines at a terminal answer the same lines in
the same way. Both skip blank lines, and both stop at the first line that closes the session, so
that nothing behind it is answered. At a terminal there is the banner in front, and every interrupt
in front of the closing line shows at its place.
-/

namespace Calculator

open Text

namespace Session

variable {s s' : Session} {line : String} {lines : List String}

/-! ### Streams of lines -/

/-- The line is one line of a stream: it holds no line feed and does not end in a carriage return,
which would not be told from the end of the line. -/
structure IsLine (line : String) : Prop where
  newline_notMem : '\n' ∉ line.toList
  getLast?_ne : line.toList.getLast? ≠ some '\r'

instance : Decidable (IsLine line) :=
  decidable_of_iff ('\n' ∉ line.toList ∧ line.toList.getLast? ≠ some '\r')
    ⟨fun h => ⟨h.1, h.2⟩, fun h => ⟨h.newline_notMem, h.getLast?_ne⟩⟩

/-- The text of a stream with these lines, each of them ended by a line feed. -/
def stream (lines : List String) : String := String.join (lines.map fun line => line ++ "\n")

lemma toList_stream_cons (line : String) (lines : List String) :
    (stream (line :: lines)).toList = line.toList ++ '\n' :: (stream lines).toList := by
  simp [stream, String.join_cons]

lemma splitLines_append {line : List Char} (h : '\n' ∉ line) (rest : List Char) :
    splitLines (line ++ '\n' :: rest) = line :: splitLines rest := by
  have hne : ∀ c ∈ line, decide (c ≠ '\n') = true := fun c hc =>
    decide_eq_true fun heq => h (heq ▸ hc)
  have hline : (line ++ '\n' :: rest).takeWhile (· ≠ '\n') = line := by
    rw [List.takeWhile_append_of_pos hne]
    simp
  obtain ⟨c, cs, htext⟩ := List.exists_cons_of_ne_nil (l := line ++ '\n' :: rest) (by simp)
  rw [htext, splitLines, ← htext]
  simp only [hline]
  simp

lemma withoutEnd_of_isLine (h : IsLine line) : withoutEnd line = line := by
  refine dropTrailing_of_getLast? fun c hc => ?_
  have hnewline : c ≠ '\n' := fun heq => h.newline_notMem (heq ▸ List.mem_of_getLast? hc)
  have hreturn : c ≠ '\r' := fun heq => h.getLast?_ne (heq ▸ hc)
  simp [hnewline, hreturn]

/-- A stream has the lines that it was put together from. -/
theorem linesOf_stream (h : ∀ line ∈ lines, IsLine line) :
    linesOf (stream lines) = lines := by
  induction lines with
  | nil => simp [linesOf, stream, splitLines]
  | cons line lines ih =>
    obtain ⟨hline, hlines⟩ := List.forall_mem_cons.mp h
    have hrest := ih hlines
    rw [linesOf] at hrest ⊢
    rw [toList_stream_cons, splitLines_append hline.newline_notMem, List.map_cons, hrest,
      String.ofList_toList, withoutEnd_of_isLine hline]

/-! ### Lines that are answered -/

lemma isCommandLine_of_allBlank (h : allBlank line = true) : isCommandLine line = false := by
  have hdrop : line.toList.dropWhile isBlank = [] :=
    List.dropWhile_eq_nil_iff.mpr (allBlank_iff.mp h)
  simp [isCommandLine, stripStart, dropLeading, hdrop]

lemma gives_of_allBlank (h : allBlank line = true) (c : Command) : gives c line = false := by
  simp [gives, isCommandLine_of_allBlank h]

lemma respond_of_gives {c : Command} (h : gives c line = true) : s.respond line = s.perform c := by
  obtain ⟨hline, hc⟩ : isCommandLine line = true ∧ command? line = some c := by
    simpa [gives] using h
  simp [respond, hline, hc]

/-- Only the command for it closes a session. -/
lemma Step.gives_of_closed (h : Step s line .closed s') : gives .exit line = true := by
  generalize hreply : Reply.closed = reply at h
  cases h with
  | @perform c hline hc =>
    cases c with
    | exit => simp [gives, hline, hc]
    | _ => cases hreply
  | unknown _ _ | unread _ _ | undrawn _ _ _ | finish _ _ _ _ | fail _ _ _ _ => cases hreply

lemma text?_of_not_exit (h : gives .exit line = false) :
    ∃ text, (s.respond line).1.text? = some text := by
  have hstep := step_respond s line
  cases hreply : (s.respond line).1 with
  | accepted text => exact ⟨text, rfl⟩
  | rejected failure => exact ⟨failure.report, rfl⟩
  | closed =>
    rw [hreply] at hstep
    simp [hstep.gives_of_closed] at h

/-! ### Turns -/

lemma turn_of_allBlank (h : allBlank line = true) : s.turn line = ⟨none, s, false⟩ := if_pos h

lemma turn_of_exit (h : gives .exit line = true) : s.turn line = ⟨none, s, true⟩ := by
  have hblank : allBlank line = false := by
    by_contra hblank
    rw [gives_of_allBlank (Bool.not_eq_false _ ▸ hblank)] at h
    cases h
  simp [turn, hblank, respond_of_gives h, perform, Reply.text?]

lemma turn_of_not_exit (hblank : allBlank line = false) (hexit : gives .exit line = false) :
    s.turn line = ⟨(s.respond line).1.text?, (s.respond line).2, false⟩ := by
  obtain ⟨text, htext⟩ := text?_of_not_exit (s := s) hexit
  have hopen : (s.respond line).1 ≠ .closed := by
    intro hclosed
    rw [hclosed] at htext
    cases htext
  simp [turn, hblank, hopen]

/-! ### Lines in front of the closing one -/

/-- The lines in front of the first one that closes the session. -/
def beforeExit (lines : List String) : List String := lines.takeWhile fun line => !gives .exit line

lemma beforeExit_cons_of_exit (h : gives .exit line = true) : beforeExit (line :: lines) = [] := by
  simp [beforeExit, h]

lemma beforeExit_cons (h : gives .exit line = false) :
    beforeExit (line :: lines) = line :: beforeExit lines := by
  simp [beforeExit, h]

lemma gives_of_mem_beforeExit (h : line ∈ beforeExit lines) : gives .exit line = false := by
  simpa using List.mem_takeWhile_imp h

/-- The lines that a loop answers without being closed by them. -/
def answered (lines : List String) : List String :=
  (beforeExit lines).filter fun line => !allBlank line

lemma answered_cons_of_exit (h : gives .exit line = true) : answered (line :: lines) = [] := by
  simp [answered, beforeExit_cons_of_exit h]

lemma answered_cons_of_allBlank (h : allBlank line = true) :
    answered (line :: lines) = answered lines := by
  simp [answered, beforeExit_cons (gives_of_allBlank h _), h]

lemma answered_cons (hexit : gives .exit line = false) (hblank : allBlank line = false) :
    answered (line :: lines) = line :: answered lines := by
  simp [answered, beforeExit_cons hexit, hblank]

/-- What is printed for each of a sequence of lines. -/
def prints (s : Session) : List String → List (Option String)
  | [] => []
  | line :: lines =>
    if allBlank line then none :: s.prints lines
    else (s.respond line).1.text? :: (s.respond line).2.prints lines

lemma prints_cons_of_allBlank (h : allBlank line = true) :
    s.prints (line :: lines) = none :: s.prints lines := by
  rw [prints, if_pos h]

lemma prints_cons (h : allBlank line = false) :
    s.prints (line :: lines) = (s.respond line).1.text? :: (s.respond line).2.prints lines := by
  rw [prints, if_neg (by simp [h])]

/-- Of the lines in front of the closing one, it is the blank lines that print nothing. -/
lemma forall₂_prints (h : ∀ line ∈ lines, gives .exit line = false) :
    List.Forall₂ (fun line text => allBlank line = true ↔ text = none) lines (s.prints lines) := by
  induction lines generalizing s with
  | nil => exact .nil
  | cons line lines ih =>
    obtain ⟨hline, hlines⟩ := List.forall_mem_cons.mp h
    cases hblank : allBlank line with
    | true =>
      rw [prints_cons_of_allBlank hblank]
      exact .cons (iff_of_true hblank rfl) (ih hlines)
    | false =>
      obtain ⟨text, htext⟩ := text?_of_not_exit (s := s) hline
      rw [prints_cons hblank]
      exact .cons (by simp [hblank, htext]) (ih hlines)

/-! ### Streams -/

/-- A session that answers lines prints what each of them gives in front of the closing line. -/
theorem answerAll_eq (s : Session) (lines : List String) :
    s.answerAll lines = ⟨(s.prints (beforeExit lines)).reduceOption, s.after (answered lines)⟩ := by
  induction lines generalizing s with
  | nil => rfl
  | cons line lines ih =>
    rw [answerAll]
    cases hblank : allBlank line with
    | true =>
      rw [turn_of_allBlank hblank, beforeExit_cons (gives_of_allBlank hblank _),
        prints_cons_of_allBlank hblank, List.reduceOption_cons_of_none,
        answered_cons_of_allBlank hblank]
      exact ih s
    | false =>
      cases hexit : gives .exit line with
      | true =>
        rw [turn_of_exit hexit, beforeExit_cons_of_exit hexit, answered_cons_of_exit hexit]
        rfl
      | false =>
        obtain ⟨text, htext⟩ := text?_of_not_exit (s := s) hexit
        rw [turn_of_not_exit hblank hexit, beforeExit_cons hexit, prints_cons hblank, htext,
          List.reduceOption_cons_of_some, answered_cons hexit hblank, after_cons]
        simp only [Bool.false_eq_true, if_false, ih]
        rfl

/-! ### Terminals -/

/-- The line that was typed, if asking for it was not interrupted. -/
def Keys.line? : Keys → Option String
  | .line text => some text
  | .interrupt => none

/-- Whether a line was typed that closes the session. -/
def Keys.exits : Keys → Bool
  | .line text => gives .exit text
  | .interrupt => false

/-- The lines that were typed at a terminal. -/
def typed (keys : List Keys) : List String := keys.filterMap Keys.line?

@[simp] lemma typed_line (keys : List Keys) : typed (.line line :: keys) = line :: typed keys := rfl

@[simp] lemma typed_interrupt (keys : List Keys) : typed (.interrupt :: keys) = typed keys := rfl

/-- What came from a terminal in front of the first line that closes the session. -/
def keysBeforeExit (keys : List Keys) : List Keys := keys.takeWhile fun key => !key.exits

@[simp] lemma keysBeforeExit_interrupt (keys : List Keys) :
    keysBeforeExit (.interrupt :: keys) = .interrupt :: keysBeforeExit keys := rfl

lemma keysBeforeExit_line_of_exit (h : gives .exit line = true) (keys : List Keys) :
    keysBeforeExit (.line line :: keys) = [] := by
  simp [keysBeforeExit, Keys.exits, h]

lemma keysBeforeExit_line (h : gives .exit line = false) (keys : List Keys) :
    keysBeforeExit (.line line :: keys) = .line line :: keysBeforeExit keys := by
  simp [keysBeforeExit, Keys.exits, h]

/-- What a terminal shows if `texts` are the prints for the lines typed at it: each of them at the
place of its line, and every interrupt at its own. -/
def weave : List Keys → List (Option String) → List String
  | .interrupt :: keys, texts => "^C" :: weave keys texts
  | .line _ :: keys, text :: texts => text.toList ++ weave keys texts
  | _, _ => []

/-- A session at a terminal shows what each line gives in front of the closing line, and the
interrupts there. It asks for nothing behind that line. -/
theorem converse_eq (s : Session) (keys : List Keys) :
    s.converse keys =
      { printed := weave (keysBeforeExit keys) (s.prints (beforeExit (typed keys)))
        session := s.after (answered (typed keys))
        asked := (keysBeforeExit keys).length + 1 } := by
  induction keys generalizing s with
  | nil => rfl
  | cons key keys ih =>
    cases key with
    | interrupt =>
      rw [converse, ih, keysBeforeExit_interrupt, typed_interrupt]
      rfl
    | line line =>
      rw [converse, typed_line]
      cases hblank : allBlank line with
      | true =>
        have hexit := gives_of_allBlank hblank .exit
        rw [turn_of_allBlank hblank, keysBeforeExit_line hexit, beforeExit_cons hexit,
          prints_cons_of_allBlank hblank, answered_cons_of_allBlank hblank]
        simp only [Bool.false_eq_true, if_false, ih]
        rfl
      | false =>
        cases hexit : gives .exit line with
        | true =>
          rw [turn_of_exit hexit, keysBeforeExit_line_of_exit hexit, answered_cons_of_exit hexit]
          rfl
        | false =>
          rw [turn_of_not_exit hblank hexit, keysBeforeExit_line hexit, beforeExit_cons hexit,
            prints_cons hblank, answered_cons hexit hblank, after_cons]
          simp only [Bool.false_eq_true, if_false, ih]
          rfl

/-- A session at a terminal and one that reads the lines typed there from a stream agree. Behind the
banner, the terminal shows what the stream prints, with an interrupt at the place of each one in
front of the closing line. Both sessions answer the same lines, none behind the closing line, and so
become the same. Blank lines alone print nothing. -/
theorem interact_agrees_pipe (s : Session) (keys : List Keys)
    (hlines : ∀ line ∈ typed keys, IsLine line) :
    let texts := s.prints (beforeExit (typed keys))
    let terminal := s.interact keys
    let piped := s.pipe (stream (typed keys))
    piped.printed = texts.reduceOption ∧
      terminal.printed = banner :: weave (keysBeforeExit keys) texts ∧
      (terminal.session = piped.session ∧ piped.session = s.after (answered (typed keys))) ∧
      terminal.asked = (keysBeforeExit keys).length + 1 ∧
      List.Forall₂ (fun line text => allBlank line = true ↔ text = none)
        (beforeExit (typed keys)) texts := by
  intro texts terminal piped
  have hpiped : piped = ⟨texts.reduceOption, s.after (answered (typed keys))⟩ := by
    show s.answerAll (linesOf (stream (typed keys))) = _
    rw [linesOf_stream hlines, answerAll_eq]
  have hterminal : terminal = ⟨⟨banner :: weave (keysBeforeExit keys) texts,
      s.after (answered (typed keys))⟩, (keysBeforeExit keys).length + 1⟩ := by
    show s.interact keys = _
    rw [interact, converse_eq]
  rw [hpiped, hterminal]
  exact ⟨rfl, rfl, ⟨rfl, rfl⟩, rfl, forall₂_prints fun line => gives_of_mem_beforeExit⟩

/-- The session is interrupted between a line and a blank one, and behind its closing line there are
an interrupt and a line that are never asked for. -/
theorem interact_agrees_pipe_interrupts :
    let s := ofSettings .standard (.default none)
    let keys : List Keys := [.line "a := 2", .interrupt, .line " \t", .line "a / 0",
      .line " .exit now", .interrupt, .line "a := 3"]
    let terminal := s.interact keys
    let piped := s.pipe (stream (typed keys))
    (∀ line ∈ typed keys, IsLine line) ∧
      piped.printed = ["= 2", "error: division by zero (2 / 0)"] ∧
      terminal.printed = [banner, "= 2", "^C", "error: division by zero (2 / 0)"] ∧
      terminal.session = piped.session ∧ piped.session.env.entries = [("a", 2)] ∧
      terminal.asked = 5 := by
  intro s keys terminal piped
  have hlines : ∀ line ∈ typed keys, IsLine line := by decide +kernel
  have hbefore : keysBeforeExit keys =
      [.line "a := 2", .interrupt, .line " \t", .line "a / 0"] := rfl
  have htexts : s.prints (beforeExit (typed keys)) =
      [some "= 2", none, some "error: division by zero (2 / 0)"] := by decide +kernel
  have hentries : (s.after (answered (typed keys))).env.entries = [("a", 2)] := by decide +kernel
  obtain ⟨hpiped, hterminal, ⟨hsame, hsession⟩, hasked, -⟩ := interact_agrees_pipe s keys hlines
  rw [htexts] at hpiped hterminal
  rw [hbefore] at hterminal hasked
  exact ⟨hlines, hpiped, hterminal, hsame, hsession ▸ hentries, hasked⟩

end Session

end Calculator
