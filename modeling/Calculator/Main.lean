import Calculator.CommandLine.Run

/-!
# The program

Reads the command line, the environment, the file of variables in the nearest directory upward and
the standard input, and writes what the calculator answers.
-/

namespace Calculator.Program

/-- The directories from the root to a path. -/
def directoriesTo (path : String) : List String :=
  (path.splitOn "/").foldl (fun found part =>
    match found with
    | [] => [part]
    | parent :: _ => (parent ++ "/" ++ part) :: found) []

/-- The bindings of the first file of variables in some directories. -/
def readEnvFile : List String → IO (List EnvFile.Binding)
  | [] => return []
  | directory :: directories => do
    let text ← try some <$> IO.FS.readFile (directory ++ "/.env") catch _ => pure none
    match text with
    | some text => return EnvFile.bindings text
    | none => readEnvFile directories

/-- The environment variables with these names. -/
def readVariables : List String → IO (List (String × String))
  | [] => return []
  | name :: names => do
    let others ← readVariables names
    match ← IO.getEnv name with
    | some value => return (name, value) :: others
    | none => return others

/-- How the program is called. -/
def usage : String := "\n".intercalate [
  "usage: pratt-calc [-h] [-e EXPR] [--tokens] [--tree] [--rollback]",
  "                  [--log-level LOG_LEVEL] [--history-file HISTORY_FILE]"]

/-- What the program is, and what its options do. -/
def description : String := "\n".intercalate [
  "Integer calculator with variables and if/then/else, parsed by precedence",
  "climbing.",
  "",
  "options:",
  "  -h, --help            show this help message and exit",
  "  -e EXPR, --eval EXPR  Evaluate EXPR and exit instead of starting the REPL",
  "                        (repeatable; shares one environment).",
  "  --tokens              Print the token list for each line.",
  "  --tree                Print the parse tree for each line.",
  "  --rollback            Undo assignments made by a line that fails to",
  "                        evaluate.",
  "  --log-level LOG_LEVEL",
  "                        Logging level (default: WARNING).",
  "  --history-file HISTORY_FILE",
  "                        File for interactive input history."]

/-- Reports why a command line is not carried out, if it is not. -/
def report : CommandLine.Ending → IO Unit
  | .refused .help => do (← IO.getStdout).putStrLn (usage ++ "\n\n" ++ description)
  | .refused .usage => do (← IO.getStderr).putStrLn usage
  | .misconfigured (.file error) => do (← IO.getStderr).putStrLn error.message
  | .misconfigured (.fields issues) => do
    for (field, issue) in issues do
      (← IO.getStderr).putStrLn (field.name ++ ": " ++ issue.code ++ " " ++ issue.explanation)
  | .finished _ | .closed => return

/-- Takes a turn with each line of the standard input, after a prompt if there is one. -/
partial def serve (prompt : String) (s : Session) : IO Unit := do
  let output ← IO.getStdout
  output.putStr prompt
  output.flush
  let line ← (← IO.getStdin).getLine
  if line.isEmpty then return
  let t := s.turn (Session.withoutEnd line)
  if let some text := t.printed then output.putStrLn text
  unless t.closed do serve prompt t.session

/-- Reads lines from a terminal or from a stream. -/
def converse (settings : Settings) : IO Unit := do
  let s := Session.ofSettings .standard settings
  if ← (← IO.getStdin).isTty then
    (← IO.getStdout).putStrLn Session.banner
    serve settings.prompt s
  else serve "" s

/-- Carries out a command line. -/
def start (argv : List String) : IO CommandLine.Ending := do
  let file ← readEnvFile (directoriesTo (← IO.currentDir).toString)
  let names := "HOME" :: (Settings.Field.all.map Settings.Field.variableName
    ++ EnvFile.mentions file)
  match CommandLine.plan .standard argv (← readVariables names) file with
  | .converse settings =>
    converse settings
    return .finished 0
  | .finish printed ending =>
    for text in printed do
      (← IO.getStdout).putStrLn text
    report ending
    return ending

end Calculator.Program

/-- Runs the calculator. -/
def main (argv : List String) : IO UInt32 := do
  let ending ← Calculator.Program.start argv
  return ending.status.toUInt32
