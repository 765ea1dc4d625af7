import Calculator.CommandLine
import Calculator.Session.Loop

/-!
# Running a command line

Expressions given as options are answered in one session up to the first failure; without any, the
session answers the lines of a stream.
-/

namespace Calculator.CommandLine

/-- How a run of the program ends. -/
inductive Ending where
  | finished (status : Nat)
  | refused (refusal : Refusal)
  | misconfigured (failure : Settings.LoadFailure)
  | closed
  deriving DecidableEq

/-- The exit status of a run. -/
def Ending.status : Ending → Nat
  | .finished status => status
  | .refused refusal => refusal.status
  | .misconfigured _ | .closed => 1

/-- A switch as an override: an option that is not given overrides nothing. -/
def switchValue (on : Bool) : Option RawValue := if on then some (.truth true) else none

/-- The value of an option as an override. -/
def OptionValue.raw : OptionValue → RawValue
  | .given text => .text text
  | .empty => .compound

/-- The overrides that the options of a command line make. -/
def Arguments.overrides (args : Arguments) : Settings.Field → Option RawValue
  | .showTokens => switchValue args.tokens
  | .showTree => switchValue args.tree
  | .rollbackOnError => switchValue args.rollback
  | .logLevel => args.logLevel.map OptionValue.raw
  | .historyFile => args.historyFile.map OptionValue.raw
  | .prompt | .maxExponent => none

/-- The answer to an expression that is no text. -/
def noTextReport : String := "unexpected error: 'list' object has no attribute 'lstrip'"

/-- Answers expressions up to the first that fails or closes the session. -/
def answerEach (s : Session) : List OptionValue → List String × Ending
  | [] => ([], .finished 0)
  | .empty :: _ => ([noTextReport], .finished 1)
  | .given line :: lines =>
    match s.respond line with
    | (.accepted text, s) =>
      let (printed, ending) := answerEach s lines
      (text :: printed, ending)
    | (.rejected failure, _) => ([failure.report], .finished 1)
    | (.closed, _) => ([], .closed)

/-- What a command line comes to: a run that ends without reading anything, or a session that reads
lines. -/
inductive Plan where
  | finish (printed : List String) (ending : Ending)
  | converse (settings : Settings)

/-- What the program does with a command line. -/
def plan (direct : Allowance) (argv : List String) (inherited : List (String × String))
    (file : List EnvFile.Binding) : Plan :=
  match parse argv with
  | .error refusal => .finish [] (.refused refusal)
  | .ok args =>
    match Settings.load args.overrides inherited file with
    | .error failure => .finish [] (.misconfigured failure)
    | .ok settings =>
      match args.eval with
      | [] => .converse settings
      | values =>
        let (printed, ending) := answerEach (.ofSettings direct settings) values
        .finish printed ending

/-- Runs the program with `input` as the stream: what is printed, and how the run ends. The loop
that reads a stream calls on a session from deeper down than the program does for an expression, so
that their lines may differ in how deeply they can be nested: as `loop` or as `direct` allows. -/
def run (direct loop : Allowance) (argv : List String) (inherited : List (String × String))
    (file : List EnvFile.Binding) (input : String) : List String × Ending :=
  match plan direct argv inherited file with
  | .finish printed ending => (printed, ending)
  | .converse settings => (((Session.ofSettings loop settings).pipe input).printed, .finished 0)

end Calculator.CommandLine
