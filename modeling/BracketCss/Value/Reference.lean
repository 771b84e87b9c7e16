import BracketCss.Threat.Report
import BracketCss.Value.Dimension
import BracketCss.Value.Scan

/-!
# References and timing

The functions with arguments of their own kind: references to custom properties, environment
variables and links, counters, and the timing functions.

## Main definitions

* `ReferenceFault`, `ReferenceFault.message`: why a call is refused
* `checkReference cs`: the fault of the arguments of `var()`
* `checkEnvironment`, `checkLink`, `checkCounters`, `checkCurve`, `checkSteps`: the other functions
-/

namespace BracketCss

open Text

/-- Why a reference or a timing function is refused. -/
inductive ReferenceFault where
  /-- A reference to something other than a custom property. -/
  | notCustomProperty (text : String)
  /-- Nothing after the comma of a reference. -/
  | emptyFallback
  /-- Dangerous content after the comma of a reference. -/
  | dangerousFallback
  /-- An environment variable that is no identifier. -/
  | notEnvironmentName (text : String)
  /-- A link that is neither quoted nor plain. -/
  | unquotedLink
  /-- A link with dangerous content. -/
  | dangerousLink
  /-- The wrong number of arguments; the range is given in words. -/
  | wrongCount (name range : String) (given : Nat)
  /-- A counter that is no identifier. -/
  | notCounterName (text : String)
  /-- An argument of a curve that is no number. -/
  | notCurveNumber (text : String)
  /-- A horizontal coordinate of a curve outside zero to one. -/
  | curveOutside (text : String)
  /-- A number of steps that is not a positive integer. -/
  | notStepCount (text : String)
  /-- A step position that is not known. -/
  | unknownStepPosition (text : String)
  deriving DecidableEq, Repr

/-- The text of a fault. -/
def ReferenceFault.message : ReferenceFault → String
  | notCustomProperty text =>
    "var() must start with a --custom-property name, got " ++ quoted text
  | emptyFallback => "var() fallback is empty"
  | dangerousFallback => "var() fallback contains dangerous content"
  | notEnvironmentName text => "env(): " ++ quoted text ++ " is not an environment variable name"
  | unquotedLink => "url() must be quoted or contain no spaces, quotes or parentheses"
  | dangerousLink => "url() target is not allowed"
  | wrongCount name range given => s!"{name}() takes {range} arguments, got {given}"
  | notCounterName text => "counters(): " ++ quoted text ++ " is not an identifier"
  | notCurveNumber text => "cubic-bezier(): " ++ quoted text ++ " is not a number"
  | curveOutside text => "cubic-bezier(): x value " ++ text ++ " is outside 0-1"
  | notStepCount text => "steps(): " ++ quoted text ++ " is not a positive integer"
  | unknownStepPosition text => "steps(): unknown position " ++ quoted text

/-- The arguments of a call, of which there is always a first one. -/
def firstAndRest (cs : List Char) : List Char × List (List Char) :=
  match Scan.commaParts cs with
  | first :: rest => (first, rest)
  | [] => ([], [])

/-- The fault of the arguments of `var()`: the name of a custom property, and perhaps a fallback,
which is all that follows the first comma. -/
def checkReference (cs : List Char) : Except ReferenceFault Unit :=
  let (name, rest) := firstAndRest cs
  if !isCustomProperty name then .error (.notCustomProperty (.ofList name))
  else if rest.isEmpty then .ok ()
  else
    let fallback := String.ofList (trim ([','].intercalate rest))
    if fallback == "" then .error .emptyFallback
    else if isSafe fallback then .ok ()
    else .error .dangerousFallback

/-- The fault of the arguments of `env()`. -/
def checkEnvironment (cs : List Char) : Except ReferenceFault Unit :=
  let name := (firstAndRest cs).1
  if isIdentifier name then .ok () else .error (.notEnvironmentName (.ofList name))

/-- A link in quotes, or one without blanks, quotes, parentheses and backslashes. -/
def isLink (cs : List Char) : Bool :=
  match cs with
  | '"' :: rest => rest.getLast? == some '"' && !rest.dropLast.contains '"'
  | '\'' :: rest => rest.getLast? == some '\'' && !rest.dropLast.contains '\''
  | _ => cs.all fun c => !isBlank c && !Scan.isStructural c && c != '\\'

/-- The fault of the argument of `url()`. -/
def checkLink (cs : List Char) : Except ReferenceFault Unit :=
  let link := trim cs
  if !isLink link then .error .unquotedLink
  else if isSafe (.ofList link) then .ok ()
  else .error .dangerousLink

/-- The fault of the arguments of `counters()`. -/
def checkCounters (cs : List Char) : Except ReferenceFault Unit :=
  let parts := Scan.commaParts cs
  let name := parts.headD []
  if parts.length < 2 ∨ 3 < parts.length then
    .error (.wrongCount "counters" "2-3" parts.length)
  else if isIdentifier name then .ok ()
  else .error (.notCounterName (.ofList name))

/-- The fault of one coordinate of a curve; the horizontal ones lie between zero and one. -/
def checkCoordinate (horizontal : Bool) (cs : List Char) : Except ReferenceFault Unit :=
  match (Dimension.ofChars? cs).filter (·.isUnitless) with
  | none => .error (.notCurveNumber (.ofList cs))
  | some d =>
    if horizontal && !d.number.isWithin (some (.ofNat 0)) (some (.ofNat 1)) then
      .error (.curveOutside (.ofList cs))
    else .ok ()

/-- The fault of the arguments of `cubic-bezier()`: two points. -/
def checkCurve (cs : List Char) : Except ReferenceFault Unit :=
  match Scan.commaParts cs with
  | [x₁, y₁, x₂, y₂] => do
    checkCoordinate true x₁
    checkCoordinate false y₁
    checkCoordinate true x₂
    checkCoordinate false y₂
  | parts => .error (.wrongCount "cubic-bezier" "4" parts.length)

/-- The step positions. -/
def stepPositions : List String :=
  ["jump-start", "jump-end", "jump-none", "jump-both", "start", "end"]

/-- The fault of the number of steps. -/
def checkStepCount (cs : List Char) : Except ReferenceFault Unit :=
  if (Dimension.ofChars? cs).any fun d => d.isInteger && Decimal.le (.ofNat 1) d.number then .ok ()
  else .error (.notStepCount (.ofList cs))

/-- The fault of the arguments of `steps()`: a number, and perhaps a position. -/
def checkSteps (cs : List Char) : Except ReferenceFault Unit :=
  match Scan.commaParts cs with
  | [count] => checkStepCount count
  | [count, position] => do
    checkStepCount count
    if stepPositions.contains (.ofList (lower position)) then .ok ()
    else .error (.unknownStepPosition (.ofList position))
  | parts => .error (.wrongCount "steps" "1-2" parts.length)

end BracketCss
