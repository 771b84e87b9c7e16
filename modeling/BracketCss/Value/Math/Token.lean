import BracketCss.Text.Letter
import BracketCss.Value.Math.Expr

/-!
# Tokens of arithmetic expressions

What may come next depends on the token before: an operand, an operand or the name of a custom
property, or an operator. So `--x` is a name as an argument, and two signs and an identifier
elsewhere. Between tokens only spaces, tabs, form feeds and line breaks are skipped.

## Main definitions

* `MathToken`: the tokens
* `MathToken.Place`, `MathToken.place`: what may come next
* `MathToken.next? place cs`: the token at the start of a text
* `MathToken.lex place cs`: the tokens of a text, and how it ends
-/

namespace BracketCss

open Text

/-- A token of an arithmetic expression. -/
inductive MathToken where
  /-- A number. -/
  | number (text : List Char)
  /-- A number with a unit. -/
  | dimension (text : List Char)
  /-- An identifier. -/
  | identifier (text : List Char)
  /-- The name of a custom property. -/
  | customProperty (text : List Char)
  /-- The name of a function with its opening parenthesis. -/
  | function (name : List Char)
  /-- An operator or sign. -/
  | operator (op : MathOperator)
  /-- An opening parenthesis. -/
  | opening
  /-- A closing parenthesis. -/
  | closing
  /-- A comma. -/
  | comma
  deriving DecidableEq, Repr

namespace MathToken

/-- What may come next. -/
inductive Place where
  /-- An operand. -/
  | operand
  /-- An operand, or the name of a custom property. -/
  | argument
  /-- An operator, a comma or a closing parenthesis. -/
  | operator
  deriving DecidableEq, Repr

/-- What may come after a token. -/
def place : MathToken → Place
  | number _ | dimension _ | identifier _ | customProperty _ | closing => .operator
  | operator _ | opening => .operand
  | function _ | comma => .argument

/-- White space between tokens. -/
def isSpace (c : Char) : Bool := c == ' ' || c == '\t' || c == '\x0c' || c == '\r' || c == '\n'

/-- The number of characters in the unit that a text starts with: letters, or a percent sign. -/
def unitLength (cs : List Char) : Nat :=
  match cs with
  | '%' :: _ => 1
  | _ => (cs.takeWhile isAsciiLetter).length

/-- The number, with or without a unit, that a text starts with, and the text after it. -/
def numeral? (cs : List Char) : Option (MathToken × List Char) :=
  (Decimal.ofUnsigned? cs).map fun (_, rest) =>
    let size := cs.length - rest.length
    match unitLength rest with
    | 0 => (number (cs.take size), rest)
    | unit => (dimension (cs.take (size + unit)), rest.drop unit)

/-- The identifier or function name that a text starts with, and the text after it. -/
def name? (cs : List Char) : Option (MathToken × List Char) :=
  let name := cs.takeWhile isAsciiNameChar
  if !name.head?.any isAsciiLetter then none
  else
    match cs.drop name.length with
    | '(' :: rest => some (function name, rest)
    | rest => some (identifier name, rest)

/-- The name of a custom property that a text starts with, and the text after it. -/
def customProperty? : List Char → Option (MathToken × List Char)
  | '-' :: '-' :: cs =>
    let name := cs.takeWhile fun c => isAsciiNameChar c || c == '_'
    if name.isEmpty then none
    else some (customProperty ('-' :: '-' :: name), cs.drop name.length)
  | _ => none

/-- The sign or opening parenthesis that a text starts with, and the text after it. -/
def sign? : List Char → Option (MathToken × List Char)
  | '(' :: rest => some (opening, rest)
  | '-' :: rest => some (operator .minus, rest)
  | '+' :: rest => some (operator .plus, rest)
  | _ => none

/-- The operator, comma or closing parenthesis that a text starts with, and the text after it. -/
def mark? : List Char → Option (MathToken × List Char)
  | ',' :: rest => some (comma, rest)
  | '-' :: rest => some (operator .minus, rest)
  | '+' :: rest => some (operator .plus, rest)
  | ')' :: rest => some (closing, rest)
  | '/' :: rest => some (operator .over, rest)
  | '*' :: rest => some (operator .times, rest)
  | _ => none

/-- The token at the start of a text, among those that may come next. -/
def next? (place : Place) (cs : List Char) : Option (MathToken × List Char) :=
  match place with
  | .operand => (numeral? cs <|> name? cs) <|> sign? cs
  | .argument => (numeral? cs <|> name? cs) <|> (customProperty? cs <|> sign? cs)
  | .operator => mark? cs

/-- A text starts with some token, whatever may come next. -/
def startsToken (cs : List Char) : Bool :=
  (next? .argument cs).isSome || (next? .operator cs).isSome

/-- How a text ends for the reader of tokens. -/
inductive End where
  /-- All of it was read. -/
  | complete
  /-- A token follows that may not come next. -/
  | misplaced
  /-- What follows is no token. -/
  | unreadable
  deriving DecidableEq, Repr

/-- The tokens of a text, at most `bound` of them, and how the text ends after them. -/
def lexUpTo : (bound : Nat) → Place → List Char → List MathToken × End
  | 0, _, _ => ([], .complete)
  | bound + 1, place, cs =>
    match cs.dropWhile isSpace with
    | [] => ([], .complete)
    | cs =>
      match next? place cs with
      | some (token, rest) =>
        let (tokens, ending) := lexUpTo bound token.place rest
        (token :: tokens, ending)
      | none => ([], if startsToken cs then .misplaced else .unreadable)

/-- The tokens of a text and how it ends. Every token takes a character, so no text has more
tokens than characters. -/
def lex (place : Place) (cs : List Char) : List MathToken × End :=
  lexUpTo (cs.length + 1) place cs

end MathToken

end BracketCss
