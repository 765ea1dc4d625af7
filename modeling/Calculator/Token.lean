import Calculator.Text.Decimal
import Calculator.Text.Quoted

/-!
# Tokens

A token is a classified piece of a line together with its place in it. Offsets count characters
from zero; the end of a token is exclusive.
-/

namespace Calculator

open Text

/-- The reserved words. -/
inductive Keyword where
  | ifWord
  | thenWord
  | elseWord
  | endWord
  deriving DecidableEq

namespace Keyword

/-- How a reserved word is spelled. -/
def text : Keyword → String
  | .ifWord => "if"
  | .thenWord => "then"
  | .elseWord => "else"
  | .endWord => "end"

/-- The reserved word with exactly this spelling. -/
def ofText? (word : String) : Option Keyword :=
  [ifWord, thenWord, elseWord, endWord].find? fun k => k.text = word

theorem ofText?_text (k : Keyword) : ofText? k.text = some k := by
  cases k <;> decide

end Keyword

/-- The classes of tokens. Braces, brackets and the lone equals sign are tokens that no
expression uses. -/
inductive Token.Kind where
  | openParen
  | closeParen
  | openBrace
  | closeBrace
  | openBracket
  | closeBracket
  | caret
  | plus
  | minus
  | slash
  | asterisk
  | bang
  | equals
  | becomes
  | number
  | identifier
  | keyword (word : Keyword)
  deriving DecidableEq

namespace Token.Kind

/-- The kinds of all tokens. -/
def all : List Kind :=
  [openParen, closeParen, openBrace, closeBrace, openBracket, closeBracket, caret, plus, minus,
    slash, asterisk, bang, keyword .ifWord, keyword .thenWord, keyword .elseWord,
    keyword .endWord, becomes, equals, number, identifier]

theorem mem_all (kind : Kind) : kind ∈ all := by
  cases kind with
  | keyword word => cases word <;> decide
  | _ => decide

/-- The name of a kind in listings and messages. -/
def name : Kind → String
  | .openParen => "LPAREN"
  | .closeParen => "RPAREN"
  | .openBrace => "LBRACE"
  | .closeBrace => "RBRACE"
  | .openBracket => "LBRACKET"
  | .closeBracket => "RBRACKET"
  | .caret => "CARET"
  | .plus => "PLUS"
  | .minus => "MINUS"
  | .slash => "SLASH"
  | .asterisk => "ASTERISK"
  | .bang => "BANG"
  | .equals => "EQUALS"
  | .becomes => "WALRUS"
  | .number => "NUMBER"
  | .identifier => "IDENTIFIER"
  | .keyword .ifWord => "KW_IF"
  | .keyword .thenWord => "KW_THEN"
  | .keyword .elseWord => "KW_ELSE"
  | .keyword .endWord => "KW_END"

/-- The kind of the token that a single punctuation mark forms. -/
def ofMark? : Char → Option Kind
  | '(' => some .openParen
  | ')' => some .closeParen
  | '{' => some .openBrace
  | '}' => some .closeBrace
  | '[' => some .openBracket
  | ']' => some .closeBracket
  | '^' => some .caret
  | '+' => some .plus
  | '-' => some .minus
  | '/' => some .slash
  | '*' => some .asterisk
  | '!' => some .bang
  | '=' => some .equals
  | _ => none

/-- The kind of a word: a keyword if it is spelled exactly like one, else an identifier. -/
def ofWord (word : String) : Kind :=
  match Keyword.ofText? word with
  | some k => .keyword k
  | none => .identifier

end Token.Kind

/-- A classified piece of a line and the half-open span that it covers. Tokens that were cut from a
line have spans within it; tokens from elsewhere may have any. -/
structure Token where
  kind : Token.Kind
  start : Int
  stop : Int
  content : String
  deriving DecidableEq

namespace Token

/-- One line of a token listing. -/
def listed (t : Token) : String :=
  t.kind.name ++ " " ++ quoted t.content ++ " [" ++ Decimal.ofInt t.start ++ ", "
    ++ Decimal.ofInt t.stop ++ ")"

/-- A token listing, one line for each token. -/
def listing (ts : List Token) : String := "\n".intercalate (ts.map listed)

/-- A token as a value in messages for developers. -/
def debugText (t : Token) : String :=
  "Token(" ++ t.kind.name ++ ", " ++ quoted t.content ++ ", span=" ++ Decimal.ofInt t.start
    ++ ".." ++ Decimal.ofInt t.stop ++ ")"

/-- What a parse error says that it found: a token, or the end of the input. -/
def found : Option Token → String
  | none => "end of input"
  | some t => t.kind.name ++ " " ++ quoted t.content ++ " at pos " ++ Decimal.ofInt t.start

end Token

end Calculator
