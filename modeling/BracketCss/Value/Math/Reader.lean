import BracketCss.Text.Blank
import BracketCss.Value.Math.Token

/-!
# Reading arithmetic expressions

A reader that keeps the open parts of an expression on a stack. Signs bind tightest, then
multiplication and division, then addition and subtraction, each from the left; an operand is
closed off as far as the token after it demands.

## Main definitions

* `MathFrame`: an open part of an expression
* `readTokens ending stack held tokens`: the expression of the remaining tokens
* `MathExpr.ofChars cs`: the expression of a whole text
* `checkMath cs`: the fault of an expression as text
-/

namespace BracketCss

open Text

/-- An open part of an expression, which waits for its right end. -/
inductive MathFrame where
  /-- A minus sign in front. -/
  | negated
  /-- A plus sign in front. -/
  | signed
  /-- A left operand and its multiplication or division. -/
  | product (left : MathExpr) (op : MathOperator)
  /-- A left operand and its addition or subtraction. -/
  | sum (left : MathExpr) (op : MathOperator)
  /-- An opening parenthesis. -/
  | parens
  /-- A function name with the arguments before the present one, the last one first. -/
  | call (name : List Char) (arguments : List MathExpr)

/-- Closes the signs in front of an operand. -/
def closeSigns (e : MathExpr) : List MathFrame → MathExpr × List MathFrame
  | .negated :: stack => closeSigns (.negated e) stack
  | .signed :: stack => closeSigns (.signed e) stack
  | stack => (e, stack)

/-- Closes the signs in front of an operand and the product that it ends. -/
def closeProduct (e : MathExpr) (stack : List MathFrame) : MathExpr × List MathFrame :=
  match closeSigns e stack with
  | (e, .product left op :: stack) => (.binary op left e, stack)
  | closed => closed

/-- Closes the signs in front of an operand, the product and the sum that it ends. -/
def closeSum (e : MathExpr) (stack : List MathFrame) : MathExpr × List MathFrame :=
  match closeProduct e stack with
  | (e, .sum left op :: stack) => (.binary op left e, stack)
  | closed => closed

/-- The stack after an operator that follows an operand. -/
def openOperator (op : MathOperator) (e : MathExpr) (stack : List MathFrame) : List MathFrame :=
  match op with
  | .times | .over =>
    let (e, stack) := closeProduct e stack
    .product e op :: stack
  | .plus | .minus =>
    let (e, stack) := closeSum e stack
    .sum e op :: stack

/-- The fault of a text that ends too early. -/
def MathToken.End.fault : MathToken.End → MathFault
  | complete | misplaced => .unexpectedToken
  | unreadable => .unexpectedCharacters

/-- Reads the remaining tokens, given the open parts and the operand just read, if the last token
ended one. -/
def readTokens (ending : MathToken.End) :
    (stack : List MathFrame) → (held : Option MathExpr) → List MathToken →
      Except MathFault MathExpr
  | _, none, [] => .error ending.fault
  | stack, some e, [] =>
    if ending = .complete then
      match closeSum e stack with
      | (e, []) => .ok e
      | _ => .error .unexpectedToken
    else .error ending.fault
  | stack, none, token :: tokens =>
    match token with
    | .number text => readTokens ending stack (some (.number text)) tokens
    | .dimension text => readTokens ending stack (some (.dimension text)) tokens
    | .identifier text => readTokens ending stack (some (.identifier text)) tokens
    | .customProperty text => readTokens ending stack (some (.customProperty text)) tokens
    | .function name => readTokens ending (.call name [] :: stack) none tokens
    | .opening => readTokens ending (.parens :: stack) none tokens
    | .operator .minus => readTokens ending (.negated :: stack) none tokens
    | .operator .plus => readTokens ending (.signed :: stack) none tokens
    | _ => .error .unexpectedToken
  | stack, some e, token :: tokens =>
    match token, e with
    | .operator _, .customProperty _ => .error .unexpectedToken
    | .operator op, e => readTokens ending (openOperator op e stack) none tokens
    | .closing, e =>
      match closeSum e stack with
      | (e, .parens :: stack) => readTokens ending stack (some (.parens e)) tokens
      | (e, .call name arguments :: stack) =>
        readTokens ending stack (some (.call name (e :: arguments).reverse)) tokens
      | _ => .error .unexpectedToken
    | .comma, e =>
      match closeSum e stack with
      | (e, .call name arguments :: stack) =>
        readTokens ending (.call name (e :: arguments) :: stack) none tokens
      | _ => .error .unexpectedToken
    | _, _ => .error .unexpectedToken

/-- The expression of a whole text. -/
def MathExpr.ofChars (cs : List Char) : Except MathFault MathExpr :=
  let (tokens, ending) := MathToken.lex .operand cs
  readTokens ending [] none tokens

/-- A character that an expression may hold. -/
def isMathChar (c : Char) : Bool :=
  isDecimal c || isBlank c || isAsciiLetter c || "+-*/.()%_,".toList.contains c

/-- The fault of an arithmetic expression. -/
def checkMath (cs : List Char) : Except MathFault Unit := do
  let cs := trim cs
  if cs.isEmpty then throw .empty
  if !cs.all isMathChar then throw .disallowedCharacters
  if cs.count '(' ≠ cs.count ')' then throw .unbalanced
  let e ← MathExpr.ofChars cs
  let _ ← e.operand

end BracketCss
