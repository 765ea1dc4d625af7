import Calculator.Text.Blank

/-!
# Files of variables

A file of variables holds lines `KEY=VALUE`, blank lines and comments after a number sign. A line
may start with the word `export`, a value may stand between single or double quotes and then hold
line ends, and a comment may follow a value. A line that is not of this form is skipped.
-/

namespace Calculator.EnvFile

open Text

/-- A line of the file: a key, and its value if the line gives one. -/
structure Binding where
  key : String
  value : Option String
  deriving DecidableEq

/-- A text in which every line ends in a line feed. -/
def withLineFeeds : List Char → List Char
  | [] => []
  | '\r' :: '\n' :: rest => '\n' :: withLineFeeds rest
  | '\r' :: rest => '\n' :: withLineFeeds rest
  | c :: rest => c :: withLineFeeds rest

/-- A text without the mark that may stand at its start. -/
def withoutMark (cs : List Char) : List Char :=
  match cs with
  | '\ufeff' :: rest => rest
  | _ => cs

/-- Whether a character is blank within a line. -/
def isGap (c : Char) : Bool := isBlank c && c ≠ '\n'

/-- The characters that an escape stands for, by the character behind the backslash. -/
abbrev Escapes := Char → Option Char

/-- The escapes between single quotes. -/
def singleEscapes : Escapes
  | '\\' => some '\\'
  | '\'' => some '\''
  | _ => none

/-- The escapes between double quotes. -/
def doubleEscapes : Escapes
  | '\\' => some '\\'
  | '\'' => some '\''
  | '"' => some '"'
  | 'a' => some '\x07'
  | 'b' => some '\x08'
  | 'f' => some '\x0c'
  | 'n' => some '\n'
  | 'r' => some '\r'
  | 't' => some '\t'
  | 'v' => some '\x0b'
  | _ => none

/-- Replaces the escapes of a text. -/
def unescape (escapes : Escapes) : List Char → List Char
  | [] => []
  | ['\\'] => ['\\']
  | '\\' :: c :: rest =>
    match escapes c with
    | some d => d :: unescape escapes rest
    | none => '\\' :: unescape escapes (c :: rest)
  | c :: rest => c :: unescape escapes rest

/-- Splits what follows an opening quote at the closing one. A backslash and the character behind it
belong together, so that a quote there closes nothing. -/
def splitQuoted (quote : Char) : List Char → Option (List Char × List Char)
  | [] => none
  | '\\' :: c :: rest =>
    (splitQuoted quote rest).map fun (body, after) => ('\\' :: c :: body, after)
  | c :: rest =>
    if c = quote then some ([], rest)
    else (splitQuoted quote rest).map fun (body, after) => (c :: body, after)

/-- The part of a value without quotes that is before a comment. -/
def beforeComment : (previousBlank : Bool) → List Char → List Char
  | _, [] => []
  | previousBlank, c :: rest =>
    if c = '#' && previousBlank then [] else c :: beforeComment (isBlank c) rest

/-- What was read from a file and what follows it, or the characters from which on the line cannot
be read. -/
abbrev Piece (α : Type) := Except (List Char) (α × List Char)

/-- Reads the value behind an equals sign and the blanks after it. A value between no quotes ends
before a comment, which must follow a blank. -/
def readValue (afterBlank : Bool) (cs : List Char) : Piece String :=
  match cs with
  | '\'' :: rest =>
    match splitQuoted '\'' rest with
    | some (body, after) => .ok (String.ofList (unescape singleEscapes body), after)
    | none => .error cs
  | '"' :: rest =>
    match splitQuoted '"' rest with
    | some (body, after) => .ok (String.ofList (unescape doubleEscapes body), after)
    | none => .error cs
  | _ =>
    let line := cs.takeWhile (· ≠ '\n')
    let value := dropTrailing isBlank (String.ofList (beforeComment afterBlank line))
    .ok (value, cs.dropWhile (· ≠ '\n'))

/-- Drops the word `export` with the blanks behind it. -/
def dropExport (cs : List Char) : List Char :=
  match cs with
  | 'e' :: 'x' :: 'p' :: 'o' :: 'r' :: 't' :: c :: rest =>
    if isGap c then rest.dropWhile isGap else cs
  | _ => cs

/-- Reads the key at the start of a line, which may stand between single quotes. -/
def readKey (cs : List Char) : Piece String :=
  match cs with
  | '\'' :: rest =>
    match rest.takeWhile (· ≠ '\''), rest.dropWhile (· ≠ '\'') with
    | [], _ | _, [] => .error cs
    | key, _ :: after => .ok (String.ofList key, after)
  | _ =>
    let inKey (c : Char) : Bool := c ≠ '=' && c ≠ '#' && !isBlank c
    match cs.takeWhile inKey with
    | [] => .error cs
    | key => .ok (String.ofList key, cs.dropWhile inKey)

/-- Reads the end of a line, which may hold blanks and a comment. -/
def readEnd (cs : List Char) : Piece Unit :=
  let rest := match cs.dropWhile isGap with
    | '#' :: rest => rest.dropWhile (· ≠ '\n')
    | rest => rest
  match rest with
  | [] => .ok ((), [])
  | '\n' :: rest => .ok ((), rest)
  | _ => .error cs

/-- Reads a key, a value if there is one, and the end of the line. -/
def readPair (cs : List Char) : Piece Binding :=
  match readKey cs with
  | .error cs => .error cs
  | .ok (key, cs) =>
    match cs.dropWhile isGap with
    | '=' :: rest =>
      match readValue (rest.head?.any isGap) (rest.dropWhile isGap) with
      | .error cs => .error cs
      | .ok (value, cs) => (readEnd cs).map fun (_, after) => (⟨key, some value⟩, after)
    | cs => (readEnd cs).map fun (_, after) => (⟨key, none⟩, after)

/-- The bindings of a file from some character on. Every line has a character, so `fuel` need not
exceed the number of characters. -/
def bindingsFrom : (fuel : Nat) → List Char → List Binding
  | 0, _ => []
  | fuel + 1, cs =>
    match dropExport (cs.dropWhile isBlank) with
    | [] => []
    | '#' :: rest => bindingsFrom fuel (rest.dropWhile (· ≠ '\n'))
    | cs =>
      match readPair cs with
      | .ok (binding, after) => binding :: bindingsFrom fuel after
      | .error cs => bindingsFrom fuel (cs.dropWhile (· ≠ '\n'))

/-- The bindings of a file, in order. -/
def bindings (text : String) : List Binding :=
  bindingsFrom text.length (withLineFeeds (withoutMark text.toList))

end Calculator.EnvFile
