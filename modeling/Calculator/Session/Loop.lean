import Calculator.Session

/-!
# Loops over lines

A session reads lines until they end or one of them closes it, and takes a turn with each. A stream
of text is cut into lines at line feeds; at a terminal every line is asked for with a prompt, and
asking may be interrupted. Blank lines are skipped.
-/

namespace Calculator

open Text

namespace Session

/-! ### Turns -/

/-- A line without the line feed and the carriage returns at its end. -/
def withoutEnd (line : String) : String := dropTrailing (fun c => c = '\n' || c = '\r') line

/-- What a loop does with one line: what it prints, if anything, the session after the line, and
whether the line closes it. -/
structure Turn where
  printed : Option String
  session : Session
  closed : Bool

/-- Answers a line of a loop unless it is blank. -/
def turn (s : Session) (line : String) : Turn :=
  if allBlank line then ⟨none, s, false⟩
  else
    let (reply, s) := s.respond line
    ⟨reply.text?, s, reply = .closed⟩

/-- How a loop over lines went: what was printed, one entry for each print, and the session after
it. -/
structure Transcript where
  printed : List String
  session : Session

/-- Adds a print, if there is one, before a transcript. -/
def Transcript.after (t : Transcript) (text : Option String) : Transcript :=
  { t with printed := text.toList ++ t.printed }

/-- All that was printed, every print ended by a line feed. -/
def Transcript.output (t : Transcript) : String :=
  String.join (t.printed.map fun text => text ++ "\n")

/-! ### Streams -/

/-- The lines of a text: what stands before each line feed, and what stands behind the last one
unless it is empty. -/
def splitLines (text : List Char) : List (List Char) :=
  match text with
  | [] => []
  | c :: rest =>
    let line := (c :: rest).takeWhile (· ≠ '\n')
    line :: splitLines ((c :: rest).drop (line.length + 1))
termination_by text.length
decreasing_by simp only [List.length_drop, List.length_cons]; omega

/-- The lines of a stream, without the carriage returns at their ends. -/
def linesOf (text : String) : List String :=
  (splitLines text.toList).map fun line => withoutEnd (String.ofList line)

/-- Answers lines until one of them closes the session. -/
def answerAll (s : Session) : List String → Transcript
  | [] => ⟨[], s⟩
  | line :: lines =>
    let t := s.turn line
    (if t.closed then ⟨[], t.session⟩ else t.session.answerAll lines).after t.printed

/-- Answers the lines of a stream. -/
def pipe (s : Session) (text : String) : Transcript := s.answerAll (linesOf text)

/-! ### Terminals -/

/-- What comes back from asking for a line. -/
inductive Keys where
  | line (text : String)
  | interrupt

/-- What a terminal session prints first. -/
def banner : String := "Pratt calculator. Type .help for commands, Ctrl-D or .exit to quit."

/-- A transcript of a terminal, with the number of times that a line was asked for. -/
structure Dialogue extends Transcript where
  asked : Nat

/-- Adds a print and a request for a line before a dialogue. -/
def Dialogue.after (d : Dialogue) (text : Option String) : Dialogue :=
  { printed := text.toList ++ d.printed, session := d.session, asked := d.asked + 1 }

/-- Asks for lines and answers them until one of them closes the session or there are no more. -/
def converse (s : Session) : List Keys → Dialogue
  | [] => ⟨⟨[], s⟩, 1⟩
  | .interrupt :: keys => (s.converse keys).after (some "^C")
  | .line line :: keys =>
    let t := s.turn line
    if t.closed then ⟨⟨t.printed.toList, t.session⟩, 1⟩
    else (t.session.converse keys).after t.printed

/-- A session at a terminal. -/
def interact (s : Session) (keys : List Keys) : Dialogue :=
  let d := s.converse keys
  { d with printed := banner :: d.printed }

end Session

end Calculator
