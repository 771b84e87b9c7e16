import BracketCss.Json.Basic
import BracketCss.Threat.Risk

/-!
# Verdicts on values

What validating a value yields: the value in its normal form with its type, or the reason why it
is refused. The reason is a type parameter, since each part of the validator has its own.

## Main definitions

* `ValueType`: the type of an accepted value
* `Detail`: what is known about a value beyond its verdict
* `Outcome`: the verdict
-/

namespace BracketCss

/-- The type of an accepted value. -/
inductive ValueType where
  /-- A length. -/
  | length
  /-- A colour. -/
  | color
  /-- A plain number. -/
  | number
  /-- A keyword of the property. -/
  | keyword
  /-- One or more function calls. -/
  | function
  /-- A value with a syntax of its own. -/
  | complex
  /-- A reference to a custom property. -/
  | customProperty
  /-- A keyword that every property takes. -/
  | globalKeyword
  deriving DecidableEq, Repr

/-- The name of a type. -/
def ValueType.name : ValueType → String
  | length => "length"
  | color => "color"
  | number => "number"
  | keyword => "keyword"
  | function => "function"
  | complex => "complex"
  | customProperty => "custom-property"
  | globalKeyword => "global-keyword"

/-- What is known about a value beyond its verdict. -/
inductive Detail where
  /-- Nothing. -/
  | none
  /-- The values of the four sides. -/
  | sides (values : List String)
  /-- The notation of a colour. -/
  | color (kind : String)
  /-- The name of the function called. -/
  | function (name : String)
  /-- The names of the functions called, in order. -/
  | functions (names : List String)
  /-- The threats found. -/
  | threats (risk : Risk) (names : List String)
  deriving DecidableEq, Repr

/-- The fields of a detail. -/
def Detail.fields : Detail → List (String × Json)
  | none => []
  | sides values => [("sides", .strings values)]
  | color kind => [("color", .string kind)]
  | function name => [("function", .string name)]
  | functions names => [("functions", .strings names)]
  | threats risk names =>
    [("risk_level", .string risk.name), ("patterns", .strings names)]

/-- The verdict on a value. -/
inductive Outcome (Fault : Type) where
  /-- The value in its normal form, with its type. -/
  | accepted (value : String) (type : ValueType) (detail : Detail)
  /-- Why the value is refused, and what may have been meant. -/
  | rejected (fault : Fault) (suggestions : List String) (detail : Detail)
  deriving DecidableEq, Repr

namespace Outcome

variable {Fault Other : Type}

/-- The value is accepted. -/
def isAccepted : Outcome Fault → Bool
  | accepted .. => true
  | rejected .. => false

/-- The verdict with its fault renamed. -/
def mapFault (f : Fault → Other) : Outcome Fault → Outcome Other
  | accepted value type detail => accepted value type detail
  | rejected fault suggestions detail => rejected (f fault) suggestions detail

/-- The verdict as a JSON value, given the text of its fault. -/
def toJson (message : Fault → String) : Outcome Fault → Json
  | accepted value type detail =>
    .object
      [("valid", .bool true), ("value", .string value), ("type", .string type.name),
        ("reason", .string ""), ("suggestions", .array []), ("details", .object detail.fields)]
  | rejected fault suggestions detail =>
    .object
      [("valid", .bool false), ("value", .null), ("type", .null),
        ("reason", .string (message fault)), ("suggestions", .strings suggestions),
        ("details", .object detail.fields)]

end Outcome

end BracketCss
