import BracketCss.Value.Dimension
import BracketCss.Value.Math.Reader
import BracketCss.Value.Scan

/-!
# Signatures

Functions whose arguments stand between commas and are all of one type: how many there may be,
and of which type. An argument may also be an arithmetic function.

## Main definitions

* `ArgumentType`, `ArgumentType.holds`: the types, and the dimensions of each
* `Signature`, `signatures`: the functions
* `SignatureFault`, `SignatureFault.message`: why a call is refused
* `checkSignature signature cs`: the fault of the arguments of a call
-/

namespace BracketCss

open Text

/-- The type of the arguments of a function. -/
inductive ArgumentType where
  /-- A length other than a percentage. -/
  | length
  /-- A length. -/
  | lengthPercentage
  /-- An angle. -/
  | angle
  /-- A plain number. -/
  | number
  /-- A plain number or a percentage. -/
  | numberPercentage
  /-- An identifier. -/
  | identifier
  deriving DecidableEq, Repr

/-- The name of a type. -/
def ArgumentType.name : ArgumentType → String
  | length => "length"
  | lengthPercentage => "length-percentage"
  | angle => "angle"
  | number => "number"
  | numberPercentage => "number-percentage"
  | identifier => "ident"

/-- A dimension is of a type. -/
def ArgumentType.holds (type : ArgumentType) (d : Dimension) : Bool :=
  match type with
  | length => d.isLength && !d.isPercentage
  | lengthPercentage => d.isLength
  | angle => d.isAngle
  | number => d.isUnitless
  | numberPercentage => d.isUnitless || d.isPercentage
  | identifier => false

/-- How many arguments a function takes, and of which type. -/
structure Signature where
  /-- The least number of arguments. -/
  least : Nat
  /-- The greatest number of arguments. -/
  greatest : Nat
  /-- The type of every argument. -/
  type : ArgumentType
  /-- Negative arguments are refused. -/
  nonNegative : Bool
  deriving DecidableEq, Repr

/-- The functions with a signature. -/
def signatures : List (String × Signature) :=
  [("translate", ⟨1, 2, .lengthPercentage, false⟩),
    ("translatex", ⟨1, 1, .lengthPercentage, false⟩),
    ("translatey", ⟨1, 1, .lengthPercentage, false⟩),
    ("translatez", ⟨1, 1, .length, false⟩),
    ("translate3d", ⟨3, 3, .lengthPercentage, false⟩),
    ("rotate", ⟨1, 1, .angle, false⟩),
    ("rotatex", ⟨1, 1, .angle, false⟩),
    ("rotatey", ⟨1, 1, .angle, false⟩),
    ("rotatez", ⟨1, 1, .angle, false⟩),
    ("scale", ⟨1, 2, .numberPercentage, false⟩),
    ("scalex", ⟨1, 1, .numberPercentage, false⟩),
    ("scaley", ⟨1, 1, .numberPercentage, false⟩),
    ("skew", ⟨1, 2, .angle, false⟩),
    ("skewx", ⟨1, 1, .angle, false⟩),
    ("skewy", ⟨1, 1, .angle, false⟩),
    ("matrix", ⟨6, 6, .number, false⟩),
    ("matrix3d", ⟨16, 16, .number, false⟩),
    ("perspective", ⟨1, 1, .length, true⟩),
    ("blur", ⟨0, 1, .length, true⟩),
    ("brightness", ⟨0, 1, .numberPercentage, true⟩),
    ("contrast", ⟨0, 1, .numberPercentage, true⟩),
    ("grayscale", ⟨0, 1, .numberPercentage, true⟩),
    ("invert", ⟨0, 1, .numberPercentage, true⟩),
    ("opacity", ⟨0, 1, .numberPercentage, true⟩),
    ("saturate", ⟨0, 1, .numberPercentage, true⟩),
    ("sepia", ⟨0, 1, .numberPercentage, true⟩),
    ("hue-rotate", ⟨0, 1, .angle, false⟩),
    ("attr", ⟨1, 1, .identifier, false⟩),
    ("counter", ⟨1, 2, .identifier, false⟩)]

/-- Why the arguments of a function with a signature are refused. -/
inductive SignatureFault where
  /-- The wrong number of arguments. -/
  | wrongCount (least greatest given : Nat)
  /-- Nothing between two commas. -/
  | emptyArgument
  /-- An arithmetic expression with a fault. -/
  | math (fault : MathFault)
  /-- An argument that is no identifier. -/
  | notIdentifier (text : String)
  /-- An argument of another type. -/
  | wrongType (text : String) (type : ArgumentType)
  /-- An argument below zero. -/
  | negative (text : String)
  deriving DecidableEq, Repr

/-- The text of a fault of the function called `name`. -/
def SignatureFault.message (name : String) : SignatureFault → String
  | wrongCount least greatest given =>
    let expected := if least = greatest then s!"{least}" else s!"{least}-{greatest}"
    s!"{name}() takes {expected} argument(s), got {given}"
  | emptyArgument => name ++ "() has an empty argument"
  | math fault => name ++ "(): " ++ fault.message
  | notIdentifier text => name ++ "(): " ++ quoted text ++ " is not an identifier"
  | wrongType text type => name ++ "(): " ++ quoted text ++ " is not a valid " ++ type.name
  | negative text => name ++ "(): " ++ text ++ " must not be negative"

/-- The fault of one argument. -/
def checkSignatureArgument (signature : Signature) (cs : List Char) :
    Except SignatureFault Unit :=
  let text := String.ofList cs
  match Scan.callOf? mathFunctions cs with
  | some _ => (checkMath cs).mapError .math
  | none =>
    if signature.type = .identifier then
      if isIdentifier cs then .ok () else .error (.notIdentifier text)
    else
      match Dimension.ofChars? cs with
      | none => .error (.wrongType text signature.type)
      | some d =>
        if signature.nonNegative && d.isNegative then .error (.negative text)
        else if signature.type.holds d then .ok ()
        else .error (.wrongType text signature.type)

/-- The first fault among the arguments. -/
def checkSignatureArguments (signature : Signature) :
    List (List Char) → Except SignatureFault Unit
  | [] => .ok ()
  | [] :: _ => .error .emptyArgument
  | cs :: rest => do
    checkSignatureArgument signature cs
    checkSignatureArguments signature rest

/-- The fault of the text between the parentheses of a call. -/
def checkSignature (signature : Signature) (cs : List Char) : Except SignatureFault Unit :=
  let arguments := if trim cs = [] then [] else Scan.commaParts cs
  if arguments.length < signature.least ∨ signature.greatest < arguments.length then
    .error (.wrongCount signature.least signature.greatest arguments.length)
  else checkSignatureArguments signature arguments

end BracketCss
