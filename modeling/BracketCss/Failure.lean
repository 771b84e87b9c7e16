import BracketCss.Threat.Risk
import BracketCss.Text.Quoted
import BracketCss.Json.Basic

/-!
# Failures

Why a single class is refused. A failure is a value, so that one bad class does not end a batch.

## Main definitions

* `FailureCode`: the categories of failures
* `Rejection`: the causes, with their codes, texts and contexts
* `Failure`: a cause attributed to a class, with what may have been meant
* `Failure.text`: the one-line text of a failure
-/

namespace BracketCss

open Text

/-- The categories of failures. -/
inductive FailureCode where
  /-- No usable class name. -/
  | invalidInput
  /-- A threat. -/
  | dangerousInput
  /-- No utility with a value in brackets. -/
  | invalidForm
  /-- A utility that sets no property. -/
  | propertyNotSupported
  /-- A value that the property does not take. -/
  | invalidValue
  /-- A value that cannot be split. -/
  | parsingFailed
  /-- A class without a rule. -/
  | generationFailed
  deriving DecidableEq, Repr

namespace FailureCode

/-- The categories. -/
def all : List FailureCode :=
  [invalidInput, dangerousInput, invalidForm, propertyNotSupported, invalidValue, parsingFailed,
    generationFailed]

/-- The name of a category. -/
def name : FailureCode → String
  | invalidInput => "INVALID_INPUT"
  | dangerousInput => "DANGEROUS_INPUT"
  | invalidForm => "INVALID_SYNTAX"
  | propertyNotSupported => "PROPERTY_NOT_SUPPORTED"
  | invalidValue => "INVALID_CSS_VALUE"
  | parsingFailed => "PARSING_FAILED"
  | generationFailed => "GENERATION_FAILED"

/-- The category of a name. -/
def ofName? (s : String) : Option FailureCode := all.find? fun code => code.name == s

end FailureCode

/-- What a failure is about, for programs to read. -/
inductive FailureContext where
  /-- Nothing more. -/
  | nothing
  /-- The threats found. -/
  | ofThreats (risk : Risk) (names : List String)
  /-- The unknown utility. -/
  | ofUtility (name : String)
  /-- The value that the property does not take. -/
  | ofValue (property value reason : String)
  /-- The value that cannot be split. -/
  | ofRaw (value reason : String)
  deriving DecidableEq, Repr

/-- The context as a JSON value. -/
def FailureContext.toJson : FailureContext → Json
  | nothing => .object []
  | ofThreats risk names =>
    .object [("risk_level", .string risk.name), ("patterns", .strings names)]
  | ofUtility name => .object [("prefix", .string name)]
  | ofValue property value reason =>
    .object
      [("property", .string property), ("value", .string value), ("reason", .string reason)]
  | ofRaw value reason => .object [("value", .string value), ("reason", .string reason)]

/-- A refusal of a class. -/
structure Failure where
  /-- The category. -/
  code : FailureCode
  /-- What is wrong. -/
  message : String
  /-- The class, if it is known. -/
  className : Option String
  /-- What may have been meant, the likeliest first. -/
  suggestions : List String
  /-- What the failure is about. -/
  context : FailureContext
  deriving DecidableEq, Repr

namespace Failure

/-- The failure attributed to another class. -/
def withClass (failure : Failure) (name : String) : Failure :=
  { failure with className := some name }

/-- The one-line text of a failure: its code, its class, its message, its suggestions. -/
def text (failure : Failure) : String :=
  let place :=
    match failure.className with
    | none => ""
    | some name => if name.isEmpty then "" else " [" ++ name ++ "]"
  let hint :=
    if failure.suggestions.isEmpty then ""
    else " (try: " ++ ", ".intercalate failure.suggestions ++ ")"
  failure.code.name ++ place ++ ": " ++ failure.message ++ hint

/-- The failure as a JSON value. -/
def toJson (failure : Failure) : Json :=
  .object
    [("code", .string failure.code.name), ("message", .string failure.message),
      ("class_name", .stringOrNull failure.className),
      ("suggestions", .strings failure.suggestions),
      ("context", failure.context.toJson)]

end Failure

/-- A part of a class token that is out of place. -/
inductive FormFault where
  /-- A digit at the start. -/
  | startsWithDigit
  /-- Opening and closing brackets differ in number. -/
  | unbalanced
  /-- A space. -/
  | space
  /-- No brackets. -/
  | unbracketed
  /-- No hyphen before the bracket. -/
  | missingHyphen
  /-- Text after the closing bracket. -/
  | trailing
  deriving DecidableEq, Repr

/-- The text of a fault. -/
def FormFault.message : FormFault → String
  | startsWithDigit => "class names must start with a letter"
  | unbalanced => "brackets are not balanced"
  | space => "class names cannot contain spaces outside brackets"
  | unbracketed => "values must be wrapped in brackets"
  | missingHyphen => "a '-' must separate the prefix from '['"
  | trailing => "nothing may follow the closing bracket"

/-- Why a class is refused. -/
inductive Rejection where
  /-- The token is no text. -/
  | notText (kind : String)
  /-- The token is refused when it is cleaned. -/
  | uncleanable
  /-- A blocking threat. -/
  | dangerous (risk : Risk) (names : List String)
  /-- Two variants of one kind. -/
  | conflictingVariant (name : String)
  /-- A variant that does not exist. -/
  | unknownVariant (name : String)
  /-- The token takes too long to match. -/
  | slow
  /-- The token is not a utility with a value in brackets. -/
  | malformed (faults : List FormFault)
  /-- The value is refused when it is cleaned. -/
  | longValue (limit : Int)
  /-- A utility that does not exist. -/
  | unknownUtility (name : String)
  /-- The value cannot be split. -/
  | unsplittable (value reason : String)
  /-- The property does not take the value. -/
  | refusedValue (property value reason : String)
  /-- There is no property or no value. -/
  | noDeclaration
  /-- The value would end its rule. -/
  | breaksOut (value : String)
  deriving DecidableEq, Repr

namespace Rejection

/-- The category of a cause. -/
def code : Rejection → FailureCode
  | notText _ | uncleanable | longValue _ => .invalidInput
  | dangerous _ _ => .dangerousInput
  | conflictingVariant _ | unknownVariant _ | slow | malformed _ => .invalidForm
  | unknownUtility _ => .propertyNotSupported
  | unsplittable _ _ => .parsingFailed
  | refusedValue _ _ _ => .invalidValue
  | noDeclaration | breaksOut _ => .generationFailed

/-- The text of a cause. -/
def message : Rejection → String
  | notText kind => "class name must be a string, got " ++ kind
  | uncleanable => "class name is empty, too long, or lost too much content when cleaned"
  | dangerous _ names =>
    "Potentially dangerous content detected (" ++ ", ".intercalate names ++ ")"
  | conflictingVariant name => "Variant " ++ quoted name ++ " conflicts with another variant"
  | unknownVariant name => "Unknown variant " ++ quoted name
  | slow => "Class name took too long to match"
  | malformed faults =>
    "Invalid class syntax, expected prefix-[value]" ++
      if faults.isEmpty then "" else ": " ++ "; ".intercalate (faults.map (·.message))
  | longValue limit => s!"value is longer than {limit} characters"
  | unknownUtility name => "Unknown property prefix: " ++ quoted name
  | unsplittable value reason => "Could not parse value " ++ quoted value ++ ": " ++ reason
  | refusedValue property value reason =>
    "Invalid value " ++ quoted value ++ " for " ++ property ++ ": " ++ reason
  | noDeclaration => "no usable declaration"
  | breaksOut value => "value " ++ quoted value ++ " would break out of its rule block"

/-- The context of a cause. -/
def context : Rejection → FailureContext
  | dangerous risk names => .ofThreats risk names
  | unknownUtility name => .ofUtility name
  | unsplittable value reason => .ofRaw value reason
  | refusedValue property value reason => .ofValue property value reason
  | _ => .nothing

/-- The failure of a class for a cause. -/
def failure (cause : Rejection) (className : Option String) (suggestions : List String) :
    Failure :=
  ⟨cause.code, cause.message, className, suggestions, cause.context⟩

end Rejection

end BracketCss
