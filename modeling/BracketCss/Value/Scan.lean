import BracketCss.Text.Blank
import BracketCss.Text.Case
import BracketCss.Text.Letter
import BracketCss.Text.Quoted

/-!
# Scanning values

Values are read with their quotes and parentheses in mind: a separator counts only at the top
level, that is outside every quoted string and every parenthesis.

## Main definitions

* `Scan.State`, `Scan.State.step`: the open quote and the depth, and a character's effect on them
* `Scan.check cs`: parentheses are balanced, quotes closed, and no reserved separator is used
* `Scan.parts separator cs`: the trimmed parts between top-level separators
* `Scan.commaParts`, `Scan.topWords`: the parts between commas and the words
* `Scan.call? cs`: the name and the arguments of a text that is one call

## Main results

* `segments_ne_nil`: there is always a first part
-/

namespace BracketCss.Scan

open Text

/-- What is open at a place: the quote of a string, and parentheses less closing ones. -/
structure State where
  /-- The quote that ends the string that is open. -/
  quote : Option Char
  /-- Opening less closing parentheses so far. -/
  depth : Int
  deriving DecidableEq, Repr

/-- The start of a text. -/
def State.initial : State := ⟨none, 0⟩

/-- A quotation mark. -/
def isQuote (c : Char) : Bool := c == '"' || c == '\''

/-- A quotation mark or a parenthesis. -/
def isStructural (c : Char) : Bool := isQuote c || c == '(' || c == ')'

/-- The effect of a character. -/
def State.step (s : State) (c : Char) : State :=
  match s.quote with
  | some q => if c = q then { s with quote := none } else s
  | none =>
    if isQuote c then { s with quote := some c }
    else if c = '(' then { s with depth := s.depth + 1 }
    else if c = ')' then { s with depth := s.depth - 1 }
    else s

/-- The place is outside every string and every parenthesis. -/
def State.isTop (s : State) : Bool := s.quote == none && s.depth == 0

/-- The effect of a text. -/
def State.run (s : State) (cs : List Char) : State := cs.foldl State.step s

@[simp] theorem State.run_nil (s : State) : s.run [] = s := rfl

@[simp] theorem State.run_cons (s : State) (c : Char) (cs : List Char) :
    s.run (c :: cs) = (s.step c).run cs := rfl

@[simp] theorem State.run_append (s : State) (xs ys : List Char) :
    s.run (xs ++ ys) = (s.run xs).run ys := List.foldl_append

/-- What is wrong with the structure of a value. -/
inductive Fault where
  /-- A closing parenthesis without its opening one. -/
  | unexpectedClosing (position : Nat)
  /-- A character that is no separator but looks like one. -/
  | reservedSeparator (c : Char) (position : Nat)
  /-- A string without its closing quote. -/
  | unterminatedString
  /-- An opening parenthesis without its closing one. -/
  | unbalanced
  deriving DecidableEq, Repr

/-- The text of a fault. -/
def Fault.message : Fault → String
  | unexpectedClosing _ => "unexpected closing parenthesis"
  | reservedSeparator c _ => quoted (.singleton c) ++ " is not a valid value separator, use commas"
  | unterminatedString => "unterminated quoted string"
  | unbalanced => "unbalanced parentheses"

/-- The offset at which a fault shows, unless it shows at the end. -/
def Fault.position? : Fault → Option Nat
  | unexpectedClosing n | reservedSeparator _ n => some n
  | unterminatedString | unbalanced => none

/-- A character that must not separate the parts of a value. -/
def isReserved (c : Char) : Bool := c == '_' || c == '|' || c == ';'

/-- The first fault from a place on. -/
def checkFrom (position : Nat) (s : State) : List Char → Except Fault Unit
  | [] =>
    if s.quote.isSome then .error .unterminatedString
    else if s.depth ≠ 0 then .error .unbalanced
    else .ok ()
  | c :: cs =>
    let next := s.step c
    if next.depth < 0 then .error (.unexpectedClosing position)
    else if s.isTop && isReserved c then .error (.reservedSeparator c position)
    else checkFrom (position + 1) next cs

/-- Finds the first fault in the structure of a value. -/
def check (cs : List Char) : Except Fault Unit := checkFrom 0 .initial cs

/-- The segments between top-level separators from a place on: the first one and the others. -/
def segmentsFrom (separator : Char → Bool) (s : State) :
    List Char → List Char × List (List Char)
  | [] => ([], [])
  | c :: cs =>
    if s.isTop && !isStructural c && separator c then
      let (first, others) := segmentsFrom separator s cs
      ([], first :: others)
    else
      let (first, others) := segmentsFrom separator (s.step c) cs
      (c :: first, others)

/-- The segments between top-level separators. -/
def segments (separator : Char → Bool) (cs : List Char) : List (List Char) :=
  let (first, others) := segmentsFrom separator .initial cs
  first :: others

theorem segments_ne_nil (separator : Char → Bool) (cs : List Char) :
    segments separator cs ≠ [] := by simp [segments]

/-- The parts between top-level separators, without blanks at their ends. -/
def parts (separator : Char → Bool) (cs : List Char) : List (List Char) :=
  (segments separator cs).map trim

/-- The parts between top-level commas; some may be empty. -/
def commaParts (cs : List Char) : List (List Char) := parts (· == ',') cs

/-- The top-level words. -/
def topWords (cs : List Char) : List (List Char) := (parts isBlank cs).filter (· ≠ [])

/-- The text up to the parenthesis that closes the present one, and the text after it. -/
def untilClosed (s : State) : List Char → Option (List Char × List Char)
  | [] => none
  | c :: cs =>
    if (s.step c).depth = 0 then some ([], cs)
    else (untilClosed (s.step c) cs).map fun found => (c :: found.1, found.2)

/-- One function call: its lower-case name and its arguments. -/
structure Call where
  /-- The name in lower case. -/
  name : String
  /-- The text between the parentheses. -/
  arguments : List Char
  deriving DecidableEq, Repr

/-- The call that a whole text is, blanks after it apart. -/
def call? (cs : List Char) : Option Call :=
  let name := cs.takeWhile isAsciiNameChar
  match cs.drop name.length with
  | '(' :: rest =>
    if name.head?.any isAsciiLetter then
      match untilClosed ⟨none, 1⟩ rest with
      | some (arguments, after) =>
        if after.all isBlank then some ⟨.ofList (lower name), arguments⟩ else none
      | none => none
    else none
  | _ => none

/-- The call that a whole text is, if its name is among those given. -/
def callOf? (names : List String) (cs : List Char) : Option Call :=
  (call? cs).filter fun call => names.contains call.name

end BracketCss.Scan
