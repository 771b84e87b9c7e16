import BracketCss.Property.Utility
import BracketCss.Value.Components

/-!
# Validating values

The verdict on a value for a property. Every property takes the global keywords and a reference
to a custom property; beyond that the kind in its rule decides. A property without a rule takes
every value without a threat.

## Main definitions

* `ValueFault`, `ValueFault.message`: why a value is refused
* `expandSides values`: one to four values as the values of the four sides
* `validateWord`, `validateLengths`, `validateKind`: the verdict by the rule of a property
* `validateValue table property s`: the verdict on a value
-/

namespace BracketCss

open Text

/-- Why a value is refused. -/
inductive ValueFault where
  /-- There is nothing. -/
  | empty
  /-- A word that is no length. -/
  | notLength (text : String)
  /-- A number where a length must stand. -/
  | missingUnit (text : String)
  /-- A unit that is no unit of length. -/
  | unknownUnit (unit : String)
  /-- A percentage where none is allowed. -/
  | percentage (property : String)
  /-- A negative number where none is allowed. -/
  | negative (property : String)
  /-- A number outside the bounds. -/
  | outside (text : String) (low high : Option Decimal)
  /-- Several values where one must stand. -/
  | severalValues (property : String)
  /-- More than four values. -/
  | tooManyValues (property : String) (given : Nat)
  /-- A text that is no number. -/
  | notNumber (text : String)
  /-- A number with a unit where none may stand. -/
  | unitOnNumber (property unit : String)
  /-- A text that is no integer. -/
  | notInteger (text : String)
  /-- A text that is no keyword. -/
  | notKeyword (text property : String)
  /-- A text that is neither a keyword nor a number. -/
  | notKeywordOrNumber (text property : String)
  /-- A text that is no function call. -/
  | notCall (text : String)
  /-- A fault of a colour. -/
  | color (fault : ColorFault)
  /-- A fault of a function call. -/
  | function (fault : FunctionFault)
  /-- A fault of a shadow. -/
  | shadow (fault : ShadowFault)
  /-- A text that does not have the syntax of the property. -/
  | otherSyntax (text property : String)
  /-- A text with a threat. -/
  | dangerous
  deriving DecidableEq, Repr

/-- A bound as text, empty if it is not set. -/
def boundText (bound : Option Decimal) : String := (bound.map Decimal.toText).getD ""

/-- The text of a fault. -/
def ValueFault.message : ValueFault → String
  | empty => "value is empty"
  | notLength text => quoted text ++ " is not a valid length"
  | missingUnit text => text ++ " is missing a unit"
  | unknownUnit unit => "unknown length unit " ++ quoted unit
  | percentage property => "percentages are not allowed for " ++ property
  | negative property => "negative values are not allowed for " ++ property
  | outside text low high =>
    text ++ " is outside the allowed range " ++ boundText low ++ ".." ++ boundText high
  | severalValues property => property ++ " takes a single value"
  | tooManyValues property given => s!"{property} shorthand takes 1-4 values, got {given}"
  | notNumber text => quoted text ++ " is not a number"
  | unitOnNumber property unit => property ++ " takes a plain number, not " ++ quoted unit
  | notInteger text => quoted text ++ " is not an integer"
  | notKeyword text property => quoted text ++ " is not a valid " ++ property ++ " keyword"
  | notKeywordOrNumber text property =>
    quoted text ++ " is not a valid " ++ property ++ " keyword or number"
  | notCall text => quoted text ++ " is not a function call"
  | color fault => fault.message
  | function fault => fault.message
  | shadow fault => fault.message
  | otherSyntax text property => quoted text ++ " does not match the " ++ property ++ " syntax"
  | dangerous => "value contains dangerous patterns"

/-- The verdict on a value. -/
abbrev ValueOutcome := Outcome ValueFault

/-- One to four values as the values of top, right, bottom and left; the error is the number of
values. -/
def expandSides {α : Type} : List α → Except Nat (List α)
  | [a] => .ok [a, a, a, a]
  | [a, b] => .ok [a, b, a, b]
  | [a, b, c] => .ok [a, b, c, b]
  | [a, b, c, d] => .ok [a, b, c, d]
  | values => .error values.length

/-- The values of the four sides as a detail. -/
def sidesDetail (values : List String) : Detail :=
  match expandSides values with
  | .ok sides => .sides sides
  | .error _ => .none

/-- The keywords that every property takes. -/
def globalKeywords : List String := ["inherit", "initial", "unset", "revert", "revert-layer"]

section Words

variable (rule : PropertyRule) (property : String)

/-- The verdict on a keyword of the property, if the value is one. -/
def keyword? (value : List Char) : Option ValueOutcome :=
  let lowered := String.ofList (fullLower value)
  if rule.keywords.contains lowered then some (.accepted lowered .keyword .none) else none

/-- The verdict on an arithmetic function, if the value is a call of one. -/
def mathCall? (value : List Char) : Option ValueOutcome :=
  (Scan.callOf? mathFunctions value).map fun _ =>
    (validateFunction (some mathFunctions) value).mapFault .function

/-- The bounds of a dimension: those of the rule, a hundred times as wide for a percentage that
stands for a fraction. -/
def boundsFor (d : Dimension) : Option Decimal × Option Decimal :=
  if d.isPercentage && rule.kind.boundsPercentages then
    (rule.minimum.map Decimal.timesHundred, rule.maximum.map Decimal.timesHundred)
  else (rule.minimum, rule.maximum)

/-- The fault of a dimension that is negative or outside the bounds. A percentage that stands for
no fraction has no bounds. -/
def checkBounds (d : Dimension) : Except ValueFault Unit :=
  if d.isNegative && !rule.allowNegative then .error (.negative property)
  else if d.isPercentage && !rule.kind.boundsPercentages then .ok ()
  else
    let (low, high) := boundsFor rule d
    if d.number.isWithin low high then .ok () else .error (.outside d.written low high)

/-- The verdict on a dimension within the bounds. -/
def dimensionVerdict (type : ValueType) (d : Dimension) : ValueOutcome :=
  match checkBounds rule property d with
  | .ok () => .accepted d.normalized type .none
  | .error fault => .rejected fault [] .none

/-- The keywords like a misspelled value. -/
def nearKeywords (value : List Char) : List String :=
  closest (.ofList value) rule.keywords suggestionDistance

/-- The verdict on a dimension that should be a length. -/
def lengthVerdict (text : String) (d : Dimension) : ValueOutcome :=
  if d.isUnitless then
    if d.isZero then .accepted "0" .length .none
    else if rule.allowUnitless then dimensionVerdict rule property .number d
    else .rejected (.missingUnit text) [text ++ "px", text ++ "rem"] .none
  else if !lengthUnits.contains d.unit then
    .rejected (.unknownUnit d.unit)
      ((closest d.unit lengthUnits 1).map fun unit => .ofList d.numeral ++ unit) .none
  else if d.isPercentage && !rule.allowPercentage then
    .rejected (.percentage property) [] .none
  else dimensionVerdict rule property .length d

/-- The verdict on one word as a length. -/
def validateWord (word : List Char) : ValueOutcome :=
  match keyword? rule word, mathCall? word with
  | some outcome, _ => outcome
  | none, some outcome => outcome
  | none, none =>
    match Dimension.ofChars? word with
    | some d => lengthVerdict rule property (.ofList word) d
    | none => .rejected (.notLength (.ofList word)) (nearKeywords rule word) .none

/-- The verdict on the words of a shorthand: the first refusal, or the values of all words. -/
def validateWords : List (List Char) → Except ValueOutcome (List String)
  | [] => .ok []
  | word :: rest =>
    match validateWord rule property word with
    | .accepted value _ _ => (validateWords rest).map (value :: ·)
    | refusal => .error refusal

/-- The verdict on one to four lengths. -/
def validateLengths (value : List Char) : ValueOutcome :=
  let words := Scan.topWords value
  if 1 < words.length then
    if !rule.shorthand then .rejected (.severalValues property) [] .none
    else if 4 < words.length then .rejected (.tooManyValues property words.length) [] .none
    else
      match validateWords rule property words with
      | .ok values => .accepted (" ".intercalate values) .length (sidesDetail values)
      | .error refusal => refusal
  else
    match validateWord rule property value with
    | .accepted text type detail =>
      .accepted text type (if rule.shorthand then sidesDetail [text] else detail)
    | refusal => refusal

/-- The verdict on a number. -/
def validateNumber (value : List Char) : ValueOutcome :=
  match keyword? rule value, mathCall? value with
  | some outcome, _ => outcome
  | none, some outcome => outcome
  | none, none =>
    match Dimension.ofChars? value with
    | none => .rejected (.notNumber (.ofList value)) [] .none
    | some d =>
      if d.isPercentage && !rule.allowPercentage then
        .rejected (.percentage property) [] .none
      else if !d.isPercentage && !d.isUnitless then
        .rejected (.unitOnNumber property d.unit) [] .none
      else dimensionVerdict rule property .number d

/-- The verdict on an integer. -/
def validateInteger (value : List Char) : ValueOutcome :=
  match keyword? rule value, mathCall? value with
  | some outcome, _ => outcome
  | none, some outcome => outcome
  | none, none =>
    match (Dimension.ofChars? value).filter (·.isInteger) with
    | some d => dimensionVerdict rule property .number d
    | none => .rejected (.notInteger (.ofList value)) (nearKeywords rule value) .none

/-- The verdict on a keyword. -/
def validateKeyword (value : List Char) : ValueOutcome :=
  match keyword? rule value with
  | some outcome => outcome
  | none => .rejected (.notKeyword (.ofList value) property) (nearKeywords rule value) .none

/-- The verdict on a keyword or a plain number. -/
def validateKeywordOrNumber (value : List Char) : ValueOutcome :=
  match keyword? rule value with
  | some outcome => outcome
  | none =>
    match (Dimension.ofChars? value).filter (·.isUnitless) with
    | some d => dimensionVerdict rule property .number d
    | none =>
      .rejected (.notKeywordOrNumber (.ofList value) property) (nearKeywords rule value) .none

/-- The names of the functions that words call, or the first refusal. -/
def calledNames : List (List Char) → Except ValueOutcome (List String)
  | [] => .ok []
  | word :: rest =>
    match Scan.call? word with
    | none => .error (.rejected (.notCall (.ofList word)) (nearKeywords rule word) .none)
    | some call =>
      let allowed := if rule.functions.isEmpty then none else some rule.functions
      match checkFunction allowed word with
      | .error fault => .error (.rejected (.function fault) (rule.functions.take 3) .none)
      | .ok () => (calledNames rest).map (call.name :: ·)

/-- The verdict on function calls. -/
def validateCalls (value : List Char) : ValueOutcome :=
  match keyword? rule value with
  | some outcome => outcome
  | none =>
    match calledNames rule (Scan.topWords value) with
    | .ok names => .accepted (.ofList value) .function (.functions names)
    | .error refusal => refusal

end Words

/-- The verdict on a value that may be anything without a threat. -/
def validateFree (value : List Char) : ValueOutcome :=
  let report := ThreatReport.ofText (.ofList value)
  if report.isDangerous then
    .rejected .dangerous [] (.threats report.risk report.names)
  else .accepted (.ofList value) .complex .none

/-- The first fault among the words that are calls. -/
def checkCalls : List (List Char) → Except FunctionFault Unit
  | [] => .ok ()
  | word :: rest => do
    if (Scan.call? word).isSome then checkFunction (some safeFunctions) word
    checkCalls rest

/-- The verdict on a value with a syntax of its own. -/
def validateComplex (rule : PropertyRule) (property : String) (value : List Char) :
    ValueOutcome :=
  match keyword? rule value with
  | some outcome => outcome
  | none =>
    if property == "box-shadow" then
      match checkShadow 2 4 value with
      | .ok () => .accepted (.ofList value) .complex .none
      | .error fault => .rejected (.shadow fault) [] .none
    else
      match rule.pattern with
      | some pattern =>
        if pattern.matchesAll value then .accepted (.ofList value) .complex .none
        else .rejected (.otherSyntax (.ofList value) property) [] .none
      | none =>
        match checkCalls (Scan.topWords value) with
        | .ok () => validateFree value
        | .error fault => .rejected (.function fault) [] .none

/-- The verdict by the rule of a property. -/
def validateKind (rule : PropertyRule) (property : String) (value : List Char) : ValueOutcome :=
  match rule.kind with
  | .length => validateLengths rule property value
  | .lengthOrNumber => validateWord rule property value
  | .color => (validateColor rule.keywords (.ofList value)).mapFault .color
  | .number => validateNumber rule property value
  | .integer => validateInteger rule property value
  | .keyword => validateKeyword rule property value
  | .keywordOrNumber => validateKeywordOrNumber rule property value
  | .function => validateCalls rule value
  | .complex => validateComplex rule property value

/-- The verdict on a value for a property. -/
def validateValue (table : PropertyTable) (property : String) (s : String) : ValueOutcome :=
  let value := trim s.toList
  let lowered := String.ofList (fullLower value)
  if value.isEmpty then .rejected .empty [] .none
  else if globalKeywords.contains lowered then .accepted lowered .globalKeyword .none
  else if (Scan.callOf? ["var"] value).isSome then
    (validateFunction (some ["var"]) value).mapFault .function
  else
    match table.rule? property with
    | none => validateFree value
    | some rule => validateKind rule property value

end BracketCss
