import BracketCss.Value.Gradient
import BracketCss.Value.Reference
import BracketCss.Value.Shadow
import BracketCss.Value.Signature

/-!
# Function calls

A value may call the listed functions only, and every call obeys the rules of its function.

## Main definitions

* `safeFunctions`: the functions that any value may call
* `FunctionFault`, `FunctionFault.message`: why a call is refused
* `checkFunction allowed cs`: the fault of a call
* `validateFunction allowed cs`: the verdict on a call
-/

namespace BracketCss

open Text

/-- The functions of a transformation. -/
def transformFunctions : List String :=
  ["translate", "translatex", "translatey", "translatez", "translate3d", "rotate", "rotatex",
    "rotatey", "rotatez", "scale", "scalex", "scaley", "skew", "skewx", "skewy", "matrix",
    "matrix3d", "perspective"]

/-- The functions of a filter. -/
def filterFunctions : List String :=
  ["blur", "brightness", "contrast", "drop-shadow", "grayscale", "hue-rotate", "invert",
    "opacity", "saturate", "sepia"]

/-- The functions that any value may call. -/
def safeFunctions : List String :=
  colorFunctionNames ++ gradientFunctions ++
    ["calc", "min", "max", "clamp", "var", "env", "url", "attr", "counter", "counters"] ++
    transformFunctions ++ ["cubic-bezier", "steps"] ++ filterFunctions

/-- Why a function call is refused. -/
inductive FunctionFault where
  /-- The text is no single call. -/
  | notCall (text : String)
  /-- The function may not be called here. -/
  | notAllowed (name : String)
  /-- A fault of an arithmetic expression. -/
  | math (fault : MathFault)
  /-- A fault of a colour. -/
  | color (fault : ColorFault)
  /-- A fault of a shadow. -/
  | shadow (fault : ShadowFault)
  /-- A fault of the gradient called `name`. -/
  | gradient (name : String) (fault : GradientFault)
  /-- A fault of a reference or a timing function. -/
  | reference (fault : ReferenceFault)
  /-- A fault of the function called `name`, which has a signature. -/
  | signature (name : String) (fault : SignatureFault)
  deriving DecidableEq, Repr

/-- The text of a fault. -/
def FunctionFault.message : FunctionFault → String
  | notCall text => quoted text ++ " is not a single function call"
  | notAllowed name => "function " ++ name ++ "() is not allowed here"
  | math fault => fault.message
  | color fault => fault.message
  | shadow fault => fault.message
  | gradient name fault => fault.message name
  | reference fault => fault.message
  | signature name fault => fault.message name

/-- The functions that hold one arithmetic expression. -/
def expressionFunctions : List String := ["calc", "min", "max", "clamp"]

/-- The functions with arguments of their own kind, with their checks. -/
def referenceChecks : List (String × (List Char → Except ReferenceFault Unit)) :=
  [("var", checkReference), ("env", checkEnvironment), ("cubic-bezier", checkCurve),
    ("steps", checkSteps), ("url", checkLink), ("counters", checkCounters)]

/-- The fault of a call that is allowed, of which `whole` is the text. -/
def checkAllowedCall (whole : List Char) (call : Scan.Call) : Except FunctionFault Unit :=
  if expressionFunctions.contains call.name then (checkMath whole).mapError .math
  else if colorFunctionNames.contains call.name then
    (checkColorCall call.name call.arguments).mapError .color
  else if call.name == "drop-shadow" then
    (checkShadow 2 3 call.arguments).mapError .shadow
  else if gradientFunctions.contains call.name then
    (checkGradient call.arguments).mapError (.gradient call.name)
  else
    match referenceChecks.lookup call.name, signatures.lookup call.name with
    | some check, _ => (check call.arguments).mapError .reference
    | none, some signature =>
      (checkSignature signature call.arguments).mapError (.signature call.name)
    | none, none => .ok ()

/-- A function may be called where only those in `allowed` may, if that is given. -/
def isAllowed (allowed : Option (List String)) (name : String) : Bool :=
  safeFunctions.contains name && allowed.all (·.contains name)

/-- The fault of a text as a single call of an allowed function. -/
def checkFunction (allowed : Option (List String)) (cs : List Char) : Except FunctionFault Unit :=
  match Scan.call? (trim cs) with
  | none => .error (.notCall (.ofList cs))
  | some call =>
    if isAllowed allowed call.name then checkAllowedCall cs call
    else .error (.notAllowed call.name)

/-- The verdict on a text as a single call of an allowed function. -/
def validateFunction (allowed : Option (List String)) (cs : List Char) : Outcome FunctionFault :=
  match checkFunction allowed cs with
  | .error fault => .rejected fault [] .none
  | .ok () =>
    let name := ((Scan.call? (trim cs)).map (·.name)).getD ""
    .accepted (.ofList (trim cs)) (if name == "var" then .customProperty else .function)
      (.function name)

end BracketCss
