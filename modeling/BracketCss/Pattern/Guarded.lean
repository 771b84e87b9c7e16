import BracketCss.Pattern.Match
import BracketCss.Pattern.Reader
import BracketCss.Text.Quoted

/-!
# Guarded matching

Matching of written patterns on texts of bounded length only, after the shapes on which backtracking
may take exponential time have been refused; each shape is itself a pattern, sought in the written
form. A time budget is advisory: a match that overran it is reported as such, without its
result, after it has ended.

## Main definitions

* `Shape`, `Shape.pattern`, `Shape.description`: the costly shapes
* `Shape.ofSource? s`: the first shape found in a written form
* `Guarded.Guard`: the limits of one evaluation
* `Guarded.Operation`: what is asked of the pattern
* `Guarded.Fault`, `Guarded.Fault.message`: why nothing was matched
* `Guarded.evaluate guard operation source text`: the evaluation
-/

namespace BracketCss

/-- A shape of written forms that may be costly to match. -/
inductive Shape where
  /-- A repeated group that holds a repetition. -/
  | nestedRepetition
  /-- A repeated group that holds alternatives. -/
  | repeatedAlternatives
  /-- The same unbounded wildcard twice in a row. -/
  | adjacentWildcards
  deriving DecidableEq, Repr

namespace Shape

open Pattern

/-- A written group that is repeated and holds a character of a class, without a parenthesis in
between. -/
def repeatedGroup (inside : CharClass) : Pattern :=
  let body := many (.outside (.anyOf "()"))
  sequence
    [char (.one '('), optional true (text "?:"), body, char inside, body, char (.one ')'),
      char (.anyOf "+*\x7b")]

/-- A written wildcard, blanks, and the same wildcard again. -/
def doubled (wildcard : String) : Pattern :=
  sequence [text wildcard, many .blank, text wildcard]

/-- What a shape looks like in a written form. -/
def pattern : Shape → Pattern
  | nestedRepetition => repeatedGroup (.anyOf "+*\x7d")
  | repeatedAlternatives => repeatedGroup (.one '|')
  | adjacentWildcards => choice ([".*", "\\w+", "\\w*", ".+"].map doubled)

/-- What a shape is called. -/
def description : Shape → String
  | nestedRepetition => "nested quantified group"
  | repeatedAlternatives => "alternation with repetition"
  | adjacentWildcards => "adjacent unbounded wildcards"

/-- The shapes in the order in which they are sought. -/
def all : List Shape := [nestedRepetition, repeatedAlternatives, adjacentWildcards]

/-- The first shape found in a written form. -/
def ofSource? (source : String) : Option Shape :=
  all.find? fun shape => shape.pattern.occursIn source.toList

end Shape

namespace Guarded

/-- Why a pattern was not matched. -/
inductive Fault where
  /-- The input is no text. -/
  | notText
  /-- The text is longer than the limit. -/
  | tooLong (length : Nat) (limit : Int)
  /-- The written form is no pattern. -/
  | invalid (fault : PatternFault)
  /-- The pattern has a costly shape. -/
  | refused (shape : Shape) (source : String)
  deriving DecidableEq, Repr

/-- The text of a fault. -/
def Fault.message : Fault → String
  | notText => "input must be a string"
  | tooLong length limit => s!"input length {length} exceeds limit {limit}"
  | invalid fault => "invalid pattern: " ++ fault.message
  | refused shape source =>
    "refusing pattern with " ++ shape.description ++ ": " ++ Text.quoted source

/-- The limits of one evaluation. -/
structure Guard where
  /-- The greatest length of a text. -/
  limit : Int
  /-- The time it should take at most, in milliseconds. -/
  budget : Rat
  /-- Patterns with a costly shape are matched too. -/
  allowCostly : Bool

/-- What is asked of a pattern. -/
inductive Operation where
  /-- The first match anywhere. -/
  | search
  /-- The match of the whole text. -/
  | fullMatch
  /-- The texts of all matches. -/
  | findAll
  /-- The text between the matches. -/
  | split
  deriving DecidableEq, Repr

/-- An entry of a list of results: a text, or the texts of the groups of one match. -/
inductive Entry where
  /-- A text; a group without a match has none. -/
  | text (s : Option String)
  /-- The texts of the groups of one match. -/
  | groups (texts : List String)
  deriving DecidableEq, Repr

/-- The result of an operation. -/
inductive Found where
  /-- At most one match, with the texts of its groups. -/
  | single (found : Option (Pattern.Match × List (Option String)))
  /-- A list of texts. -/
  | several (entries : List Entry)

/-- Something was found. -/
def Found.isFound : Found → Bool
  | single found => found.isSome
  | several entries => !entries.isEmpty

/-- One match as an entry: its own text without groups, the text of the only group, or the texts
of all groups, a group without a match being empty. -/
def entryOf (p : Pattern) (cs : List Char) (m : Pattern.Match) : Entry :=
  match (m.groupTexts p cs).map (·.getD "") with
  | [] => .text (some (m.textIn cs))
  | [group] => .text (some group)
  | groups => .groups groups

/-- The result of an operation without limits. -/
def Operation.result (operation : Operation) (p : Pattern) (cs : List Char) : Found :=
  let withGroups (m : Pattern.Match) := (m, m.groupTexts p cs)
  match operation with
  | search => .single ((p.search cs).map withGroups)
  | fullMatch => .single ((p.fullMatch cs).map withGroups)
  | findAll => .several ((p.findAll cs).map (entryOf p cs))
  | split => .several ((p.splitAt cs).map .text)

/-- The outcome of an evaluation. -/
structure Outcome where
  /-- Something was found in time. -/
  matched : Bool
  /-- The evaluation took longer than its budget. -/
  timedOut : Bool
  /-- The match, if one was asked for and found in time. -/
  single : Option (Pattern.Match × List (Option String))
  /-- The list of results, if one was asked for. -/
  several : Option (List Entry)

/-- The outcome for a result that took no measurable time. -/
def Found.outcome (budget : Rat) (found : Found) : Outcome :=
  let late := budget < 0
  match found with
  | single m => ⟨m.isSome && !late, late, if late then none else m, none⟩
  | several entries => ⟨!entries.isEmpty && !late, late, none, some entries⟩

/-- Matches a written pattern on a text within limits; an input that is no text is `none`. -/
def evaluate (guard : Guard) (operation : Operation) (source : String) (text : Option String) :
    Except Fault Outcome := do
  let some s := text | throw .notText
  let cs := s.toList
  if guard.limit < cs.length then throw (.tooLong cs.length guard.limit)
  let p ← (Pattern.read source).mapError .invalid
  if let some shape := Shape.ofSource? source then
    if !guard.allowCostly then throw (.refused shape source)
  return (operation.result p cs).outcome guard.budget

end Guarded

end BracketCss
