import Calculator.Expr.Display
import Calculator.Expr.Evaluation
import Calculator.Expr.Parsing
import Calculator.Settings
import Calculator.Token.Lexing

/-!
# Sessions

A session answers lines one after the other. A line that starts with a period is a command; any
other line is an expression, which is evaluated in the variables that the earlier lines left. The
answer to a line that fails is its error alone.
-/

namespace Calculator

open Text

/-- The commands of a session. -/
inductive Command where
  | tree
  | tokens
  | vars
  | help
  | exit
  deriving DecidableEq

namespace Command

/-- The word that gives a command, behind the period. -/
def word : Command → String
  | .tree => "tree"
  | .tokens => "tokens"
  | .vars => "vars"
  | .help => "help"
  | .exit => "exit"

/-- The command that a word gives. -/
def ofWord? (word : String) : Option Command :=
  [tree, tokens, vars, help, exit].find? fun c => c.word = word

/-- The answer to a request for help. -/
def helpText : String := "\n".intercalate [
  ".tree:   show or hide the pretty-printed parse tree",
  ".tokens: show or hide the token list",
  ".vars:   list assigned variables",
  ".exit:   exits the repl",
  ".help:   list available commands"]

end Command

/-- Why a line fails. -/
inductive Failure where
  | lexing (error : LexError)
  | parsing (error : ParseError)
  | drawing
  | evaluation (error : EvalError)
  | command (line : String)
  deriving DecidableEq

namespace Failure

/-- Whether a failure is one that the rules of the calculator know. An excessive factorial, a limit
that is too long to be shown and a tree that is too deep to be drawn are not. -/
def foreseen : Failure → Bool
  | .drawing | .evaluation (.arithmetic .factorialTooLarge)
  | .evaluation (.arithmetic .numeralTooLong) => false
  | _ => true

/-- The text of a failure. -/
def message : Failure → String
  | .lexing error => error.message
  | .parsing error => error.message
  | .drawing => "maximum recursion depth exceeded"
  | .evaluation error => error.message
  | .command line => "unrecognized command " ++ line

/-- The answer to a line that fails. -/
def report (failure : Failure) : String :=
  (if failure.foreseen then "error: " else "unexpected error: ") ++ failure.message

end Failure

/-- What a session answers to a line. -/
inductive Reply where
  | accepted (text : String)
  | rejected (failure : Failure)
  | closed
  deriving DecidableEq

/-- The state of a session: its limits, which never change, and its display flags and variables. -/
structure Session where
  allowance : Allowance
  limit : Int
  rollback : Bool
  showTokens : Bool
  showTree : Bool
  env : Environment

namespace Session

/-- A session without variables. How deeply its lines may be nested is not a setting, but left to
what the session is run by. -/
def ofSettings (allowance : Allowance) (settings : Settings) : Session where
  allowance
  limit := settings.maxExponent
  rollback := settings.rollbackOnError
  showTokens := settings.showTokens
  showTree := settings.showTree
  env := .empty

/-! ### Commands -/

/-- The list of all variables with their values. -/
def variablesText (env : Environment) : String :=
  match env.sorted with
  | [] => "(no variables)"
  | entries => "\n".intercalate (entries.map fun e => e.1 ++ " = " ++ Decimal.ofInt e.2)

/-- The answer to switching something on or off. -/
def switchText (on : Bool) (what : String) : String :=
  (if on then "enabled " else "disabled ") ++ what

/-- Carries out a command. -/
def perform (s : Session) : Command → Reply × Session
  | .tree =>
    let on := !s.showTree
    (.accepted (switchText on "tree pretty printing"), { s with showTree := on })
  | .tokens =>
    let on := !s.showTokens
    (.accepted (switchText on "token printing"), { s with showTokens := on })
  | .vars => (.accepted (variablesText s.env), s)
  | .help => (.accepted Command.helpText, s)
  | .exit => (.closed, s)

/-! ### Expressions -/

/-- The tree that a line is read into, and its tokens. -/
def read (s : Session) (line : String) : Except Failure (List Token × Expr) := do
  let ts ← (Token.ofText line).mapError .lexing
  let e ← (Expr.ofTokens s.allowance ts).mapError fun stop => .parsing stop.cause
  return (ts, e)

/-- What is shown of a line before its value: its tokens and its tree, as far as they are on. -/
def diagnostics (s : Session) (ts : List Token) (e : Expr) : Except Failure (List String) := do
  let tokens := if s.showTokens then [Token.listing ts] else []
  let tree ←
    if s.showTree then
      match e.display? s.allowance with
      | some text => .ok [text]
      | none => .error .drawing
    else .ok []
  return tokens ++ tree

/-- Evaluates an expression. A failure keeps the assignments made before it, unless they are to be
rolled back. -/
def evaluate (s : Session) (e : Expr) : Except EvalError Int × Session :=
  match e.evaluate s.limit s.allowance s.env with
  | (.ok v, env) => (.ok v, { s with env })
  | (.error error, env) => (.error error, if s.rollback then s else { s with env })

/-- The value of an expression line. -/
def compute (s : Session) (line : String) : Except Failure Int × Session :=
  match s.read line with
  | .error failure => (.error failure, s)
  | .ok (_, e) =>
    match s.evaluate e with
    | (.ok v, s) => (.ok v, s)
    | (.error error, s) => (.error (.evaluation error), s)

/-- Answers an expression line: what is to be shown of it, and its value. A tree that cannot be
drawn is not evaluated either. -/
def calculate (s : Session) (line : String) : Reply × Session :=
  match (do let (ts, e) ← s.read line; return (e, ← s.diagnostics ts e)) with
  | .error failure => (.rejected failure, s)
  | .ok (e, shown) =>
    match s.evaluate e with
    | (.ok v, s) => (.accepted ("\n".intercalate (shown ++ ["= " ++ Decimal.ofInt v])), s)
    | (.error error, s) => (.rejected (.evaluation error), s)

/-! ### Lines -/

/-- Whether a line is a command line, known or not. -/
def isCommandLine (line : String) : Bool := (stripStart line).toList.head? = some '.'

/-- The command that a command line gives. What stands behind the word is ignored. -/
def command? (line : String) : Option Command :=
  (firstWord? (String.ofList ((stripStart line).toList.drop 1))).bind Command.ofWord?

/-- Answers a line. -/
def respond (s : Session) (line : String) : Reply × Session :=
  if isCommandLine line then
    match command? line with
    | some command => s.perform command
    | none => (.rejected (.command (strip line)), s)
  else s.calculate line

/-- Answers lines one after the other, whatever the replies: each reply with the session after
it. -/
def respondAll (s : Session) : List String → List (Reply × Session)
  | [] => []
  | line :: lines =>
    let (reply, s) := s.respond line
    (reply, s) :: s.respondAll lines

end Session

namespace Reply

/-- What is printed for a reply, if anything is. -/
def text? : Reply → Option String
  | .accepted text => some text
  | .rejected failure => some failure.report
  | .closed => none

end Reply

end Calculator
