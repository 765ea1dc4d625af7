import Calculator.Allowance
import Calculator.Expr

/-!
# From tokens to expressions

One procedure reads an expression for a least power: a sign or an operand, the factorials behind
it, and then operators with their right operands for as long as they bind with at least that
power. It calls itself for the operand of a sign, for right operands and inside brackets and
conditionals; each active call costs one level of the allowance.

Failing hands back the tokens from the failure on, so that the place of an error is part of the
answer.
-/

namespace Calculator

open Text

/-- Why a list of tokens is no expression. -/
inductive ParseError where
  | expectedOperand (found : Option Token)
  | expectedKeyword (word : Keyword) (found : Option Token)
  | expectedClosing (found : Option Token)
  | expectedEnd (found : Token)
  | tooDeep
  deriving DecidableEq

/-- The text of the error. -/
def ParseError.message : ParseError → String
  | .expectedOperand found => "expected an atomic expression, got " ++ Token.found found
  | .expectedKeyword word found => "expected '" ++ word.text ++ "', got " ++ Token.found found
  | .expectedClosing found => "expected closing parenthesis, got " ++ Token.found found
  | .expectedEnd found => "expected end of input, got " ++ Token.found (some found)
  | .tooDeep => "expression nested too deeply"

/-- Why reading stopped, and the tokens that were not consumed. -/
structure Stop where
  cause : ParseError
  rest : List Token
  deriving DecidableEq

/-- A procedure that reads an expression for a least power, and returns it with the tokens after
it. -/
abbrev Reader := Power → List Token → Except Stop (Expr × List Token)

namespace Expr

/-- Consumes a keyword. -/
def readKeyword (word : Keyword) (ts : List Token) : Except Stop (List Token) :=
  match ts with
  | [] => .error ⟨.expectedKeyword word none, []⟩
  | t :: rest =>
    if t.kind = .keyword word then .ok rest
    else .error ⟨.expectedKeyword word (some t), t :: rest⟩

/-- Consumes a closing parenthesis. -/
def readClosing (ts : List Token) : Except Stop (List Token) :=
  match ts with
  | [] => .error ⟨.expectedClosing none, []⟩
  | t :: rest =>
    if t.kind = .closeParen then .ok rest
    else .error ⟨.expectedClosing (some t), t :: rest⟩

/-- Reads the body of a parenthesis behind the opening one. -/
def readGroup (read : Reader) (ts : List Token) : Except Stop (Expr × List Token) := do
  let (inner, ts) ← read 0 ts
  let ts ← readClosing ts
  return (.group inner, ts)

/-- Reads the parts of a conditional behind its first keyword. -/
def readConditional (read : Reader) (ts : List Token) : Except Stop (Expr × List Token) := do
  let (condition, ts) ← read 0 ts
  let ts ← readKeyword .thenWord ts
  let (yes, ts) ← read 0 ts
  let ts ← readKeyword .elseWord ts
  let (no, ts) ← read 0 ts
  let ts ← readKeyword .endWord ts
  return (.conditional condition yes no, ts)

/-- Reads an operand that starts with no sign. -/
def readAtom (read : Reader) (ts : List Token) : Except Stop (Expr × List Token) :=
  match ts with
  | [] => .error ⟨.expectedOperand none, []⟩
  | t :: rest =>
    match t.kind with
    | .number => .ok (.number (Decimal.valueInGroups t.content.toList), rest)
    | .identifier => .ok (.ident t.content, rest)
    | .openParen => readGroup read rest
    | .keyword .ifWord => readConditional read rest
    | _ => .error ⟨.expectedOperand (some t), t :: rest⟩

/-- Reads a sign with its operand, if the sign binds tightly enough, or an operand without one. -/
def readOperand (read : Reader) (least : Power) (ts : List Token) :
    Except Stop (Expr × List Token) :=
  match ts with
  | [] => readAtom read []
  | t :: rest =>
    match t.kind.sign? with
    | some op =>
      if least ≤ op.power then do
        let (operand, ts) ← read op.power rest
        return (.unary op operand, ts)
      else readAtom read (t :: rest)
    | none => readAtom read (t :: rest)

/-- Takes the operators behind `left` that bind tightly enough and have no other operand. -/
def readSuffixes (least : Power) (left : Expr) : List Token → Expr × List Token
  | [] => (left, [])
  | t :: rest =>
    match t.kind.suffix? with
    | some op =>
      if least ≤ op.power then readSuffixes least (.unary op left) rest else (left, t :: rest)
    | none => (left, t :: rest)

/-- Takes the operators behind `left` that bind tightly enough, with their right operands. Every
round consumes a token, so there are never more rounds than tokens; `bound` is a list of at least
as many. -/
def readOperations (read : Reader) (least : Power) :
    (bound : List Token) → (left : Expr) → List Token → Except Stop (Expr × List Token)
  | _, left, [] => .ok (left, [])
  | [], left, ts => .ok (left, ts)
  | _ :: bound, left, t :: rest =>
    match t.kind.operator? with
    | some op =>
      if least ≤ op.binding.left then do
        let (right, ts) ← read op.binding.right rest
        readOperations read least bound (.binary op left right) ts
      else .ok (left, t :: rest)
    | none => .ok (left, t :: rest)

/-- Reads an expression for a least power, with at most `depth` calls active at a time. -/
def read : (depth : Nat) → Reader
  | 0, _, ts => .error ⟨.tooDeep, ts⟩
  | depth + 1, least, ts => do
    let (left, ts) ← readOperand (read depth) least ts
    let (left, ts) := readSuffixes least left ts
    readOperations (read depth) least ts left ts

/-- Reads an expression for a least power; tokens may be left over. No more calls can be active
than there are tokens, and one. -/
def readWithin (allowance : Allowance) (least : Power) (ts : List Token) :
    Except Stop (Expr × List Token) :=
  read (allowance.count (ts.length + 1)) least ts

/-- The expression that a whole list of tokens forms. -/
def ofTokens (allowance : Allowance) (ts : List Token) : Except Stop Expr :=
  match readWithin allowance 0 ts with
  | .error stop => .error stop
  | .ok (e, []) => .ok e
  | .ok (_, t :: rest) => .error ⟨.expectedEnd t, t :: rest⟩

end Expr

end Calculator
