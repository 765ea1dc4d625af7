import Calculator.Text.Letter
import Calculator.Token

/-!
# From text to tokens

A line is cut from left to right into the longest tokens there are. Spaces, tabs and line feeds
separate tokens and are dropped; any other character that starts no token is an error, which names
the character and its offset.
-/

namespace Calculator

open Text

/-- A character that starts no token, and its offset. -/
structure LexError where
  char : Char
  pos : Nat
  deriving DecidableEq

/-- The text of the error. -/
def LexError.message (e : LexError) : String :=
  "unrecognized character " ++ quoted (String.singleton e.char) ++ " at pos "
    ++ Decimal.ofInt e.pos

namespace Token

/-- The characters that may stand between tokens. -/
def isSpace (c : Char) : Bool := c = ' ' || c = '\t' || c = '\n'

/-- The characters that may follow the first letter of a word. -/
def isWordTail (c : Char) : Bool := isLetter c || isDigit c

/-- The kind of the longest token that starts with `c`, and how many of the characters after `c`
belong to it. -/
def lexeme? (c : Char) (rest : List Char) : Option (Kind × Nat) :=
  if c = ':' then
    if rest.head? = some '=' then some (.becomes, 1) else none
  else
    match Kind.ofMark? c with
    | some kind => some (kind, 0)
    | none =>
      if isDigit c then
        some (.number, (rest.takeWhile isDigit).length)
      else if isLetter c then
        let tail := rest.takeWhile isWordTail
        some (Kind.ofWord (String.ofList (c :: tail)), tail.length)
      else
        none

/-- The tokens of the characters from offset `pos` on, after those in `done`, which are in
reverse order. -/
def scan (pos : Nat) (done : List Token) : List Char → Except LexError (List Token)
  | [] => .ok done.reverse
  | c :: rest =>
    if isSpace c then
      scan (pos + 1) done rest
    else
      match lexeme? c rest with
      | none => .error ⟨c, pos⟩
      | some (kind, more) =>
        let token : Token :=
          { kind, start := pos, stop := pos + 1 + more
            content := String.ofList (c :: rest.take more) }
        scan (pos + 1 + more) (token :: done) (rest.drop more)
termination_by cs => cs.length
decreasing_by
  · simp
  · simp only [List.length_cons, List.length_drop]; omega

/-- The tokens of a text. -/
def ofText (text : String) : Except LexError (List Token) := scan 0 [] text.toList

end Token

end Calculator
