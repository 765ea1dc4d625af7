import Calculator.Text.DecimalDigit

/-!
# Command lines

The arguments of the program are options. An option has a long name, of which any part that only
one option begins with will do, and maybe a short one. A value is the next argument, or is attached:
to a long name behind an equals sign, to a short name with or without one. An argument that looks
like an option is no value, unless it is a negative number or holds a space; and an argument that
belongs to no option is an error. The separator of options is dropped even as an attached value, as
older versions of the option parser do, and then the option has an empty value, which is no text.
-/

namespace Calculator.CommandLine

open Text

/-- The options of the program. -/
inductive Flag where
  | help
  | eval
  | tokens
  | tree
  | rollback
  | logLevel
  | historyFile
  deriving DecidableEq

namespace Flag

/-- The options. -/
def all : List Flag := [help, eval, tokens, tree, rollback, logLevel, historyFile]

/-- The long name of an option. -/
def longName : Flag → String
  | .help => "--help"
  | .eval => "--eval"
  | .tokens => "--tokens"
  | .tree => "--tree"
  | .rollback => "--rollback"
  | .logLevel => "--log-level"
  | .historyFile => "--history-file"

/-- The option with a short name. -/
def ofLetter? : Char → Option Flag
  | 'h' => some .help
  | 'e' => some .eval
  | _ => none

/-- Whether an option has a value. -/
def hasValue : Flag → Bool
  | .eval | .logLevel | .historyFile => true
  | .help | .tokens | .tree | .rollback => false

/-- The option with exactly this name, short or long. -/
def ofName? (name : List Char) : Option Flag :=
  match name with
  | ['-', c] => ofLetter? c
  | _ => all.find? fun flag => flag.longName.toList = name

/-- The options whose long names begin like this. -/
def beginning (start : List Char) : List Flag :=
  all.filter fun flag => start.isPrefixOf flag.longName.toList

end Flag

/-! ### Single arguments -/

/-- What an argument may be by itself. -/
inductive Role where
  | plain
  | unknown
  | long (flag : Flag) (attached : Option String)
  | short (flag : Flag) (attached : Option String)
  | separator
  deriving DecidableEq

/-- Whether an argument looks like a negative number: digits, or digits behind a point. A line feed
may follow. -/
def looksNegative (argument : List Char) : Bool :=
  match argument with
  | '-' :: rest =>
    let number := if rest.getLast? = some '\n' then rest.dropLast else rest
    match number.dropWhile isDecimalDigit with
    | [] => number ≠ []
    | '.' :: decimals => decimals ≠ [] && decimals.all isDecimalDigit
    | _ => false
  | _ => false

/-- The role of an argument that looks like an option but names none. -/
def unnamed (argument : List Char) : Role :=
  if looksNegative argument || ' ' ∈ argument then .plain else .unknown

/-- The part of an argument before its first equals sign, and what follows the sign. -/
def splitEquals (argument : List Char) : List Char × Option String :=
  match argument.dropWhile (· ≠ '=') with
  | [] => (argument, none)
  | _ :: value => (argument.takeWhile (· ≠ '='), some (String.ofList value))

/-- The role of an argument, unless it could be more than one option. -/
def role? (argument : String) : Option Role :=
  let cs := argument.toList
  let (name, value) := splitEquals cs
  match cs with
  | '-' :: '-' :: [] => some .separator
  | '-' :: '-' :: _ =>
    match Flag.ofName? name with
    | some flag => some (.long flag value)
    | none =>
      match Flag.beginning name with
      | [] => some (unnamed cs)
      | [flag] => some (.long flag value)
      | _ => none
  | '-' :: c :: attached =>
    match Flag.ofLetter? c with
    | none => some (unnamed cs)
    | some flag =>
      some (.short flag (if attached = [] then none else some (String.ofList attached)))
  | _ => some .plain

/-- The arguments with their roles: behind a separator all arguments are plain. -/
def roles? : List String → Option (List (String × Role))
  | [] => some []
  | argument :: rest => do
    let role ← role? argument
    if role = .separator then
      return (argument, .separator) :: rest.map fun argument => (argument, .plain)
    else
      return (argument, role) :: (← roles? rest)

/-! ### Whole command lines -/

/-- The value of an option. -/
inductive OptionValue where
  | given (text : String)
  | empty
  deriving DecidableEq

/-- The value that a text gives to an option. That the separator of options is dropped where it is
attached is what older versions of the option parser do. Later ones keep it, so this depends on the
interpreter that the program runs with. -/
def OptionValue.ofText (text : String) : OptionValue :=
  if text = "--" then .empty else .given text

/-- What the options of a command line say. -/
structure Arguments where
  eval : List OptionValue
  tokens : Bool
  tree : Bool
  rollback : Bool
  logLevel : Option OptionValue
  historyFile : Option OptionValue
  deriving DecidableEq

/-- Why a command line is not carried out. -/
inductive Refusal where
  | help
  | usage
  deriving DecidableEq

namespace Refusal

/-- The exit status: asking for help is no error. -/
def status : Refusal → Nat
  | .help => 0
  | .usage => 2

end Refusal

namespace Arguments

/-- The empty command line. -/
def empty : Arguments := ⟨[], false, false, false, none, none⟩

/-- Takes up an option without a value. -/
def switchOn (args : Arguments) : Flag → Arguments
  | .tokens => { args with tokens := true }
  | .tree => { args with tree := true }
  | .rollback => { args with rollback := true }
  | _ => args

/-- Takes up an option with its value; the later of two values counts, except that expressions to
evaluate are collected. -/
def put (args : Arguments) (flag : Flag) (text : String) : Arguments :=
  let value := OptionValue.ofText text
  match flag with
  | .eval => { args with eval := args.eval ++ [value] }
  | .logLevel => { args with logLevel := some value }
  | .historyFile => { args with historyFile := some value }
  | _ => args

end Arguments

/-- The value attached to a short name, behind an equals sign or without one. -/
def attachedValue (attached : String) : String :=
  match attached.toList with
  | '=' :: value => String.ofList value
  | _ => attached

/-- Whether the next argument can be a value. -/
def valueFollows : List (String × Role) → Bool
  | (_, .plain) :: _ => true
  | _ => false

/-- What comes of letters attached to the short name of the help option, which are short names
themselves. Help is given only if all of them are, up to one with a value. -/
def helpCluster (valueFollows : Bool) : List Char → Refusal
  | ['h'] => .help
  | ['e'] => if valueFollows then .help else .usage
  | 'h' :: rest => helpCluster valueFollows rest
  | 'e' :: _ => .help
  | _ => .usage

/-- Goes through arguments with their roles. `stray` tells whether some argument before belonged to
no option. -/
def collect (args : Arguments) (stray : Bool) : List (String × Role) → Except Refusal Arguments
  | [] => if stray then .error .usage else .ok args
  | (_, role) :: rest =>
    match role with
    | .plain | .unknown | .separator => collect args true rest
    | .long flag (some value) =>
      if flag.hasValue then collect (args.put flag value) stray rest else .error .usage
    | .short flag (some attached) =>
      if flag.hasValue then collect (args.put flag (attachedValue attached)) stray rest
      else .error (helpCluster (valueFollows rest) (attachedValue attached).toList)
    | .long flag none | .short flag none =>
      if flag.hasValue then
        match rest with
        | (value, .plain) :: rest => collect (args.put flag value) stray rest
        | _ => .error .usage
      else if flag = .help then .error .help
      else collect (args.switchOn flag) stray rest

/-- What a command line says. -/
def parse (argv : List String) : Except Refusal Arguments :=
  match roles? argv with
  | some roles => collect .empty false roles
  | none => .error .usage

end Calculator.CommandLine
