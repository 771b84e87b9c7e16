import BracketCss.Value.Color

/-!
# Gradients

The arguments of a gradient: perhaps a direction, angle, shape or position, and then colour
stops, each a colour with positions after it.

## Main definitions

* `GradientFault`, `GradientFault.message`: why a gradient is refused
* `gradientFunctions`: the names of the gradients
* `checkGradient cs`: the fault of the arguments of a gradient
-/

namespace BracketCss

open Text

/-- Why a gradient is refused. -/
inductive GradientFault where
  /-- Nothing between two commas. -/
  | emptyArgument
  /-- Fewer than two colour stops. -/
  | tooFewStops
  /-- An argument after the first that starts with no colour. -/
  | notStop (text : String)
  /-- A word that is neither a length nor an angle. -/
  | notPosition (text : String)
  deriving DecidableEq, Repr

/-- The text of a fault of the gradient called `name`. -/
def GradientFault.message (name : String) : GradientFault → String
  | emptyArgument => name ++ "() has an empty argument"
  | tooFewStops => name ++ "() needs at least two color stops"
  | notStop text => name ++ "(): " ++ quoted text ++ " is not a color stop"
  | notPosition text => name ++ "(): " ++ quoted text ++ " is not a position or angle"

/-- The names of the gradients. -/
def gradientFunctions : List String :=
  ["linear-gradient", "radial-gradient", "conic-gradient", "repeating-linear-gradient",
    "repeating-radial-gradient"]

/-- The argument starts with a colour. -/
def isStop (part : List Char) : Bool := (Scan.topWords part).head?.any isColor

/-- The first word that is neither a length nor an angle. -/
def checkPositions (words : List (List Char)) : Except GradientFault Unit :=
  let isPosition (word : List Char) : Bool :=
    (Dimension.ofChars? word).any fun d => d.isLength || d.isAngle
  match words.find? fun word => !isPosition word with
  | some word => .error (.notPosition (.ofList word))
  | none => .ok ()

/-- The fault of an argument that must be a colour stop. -/
def checkStop (part : List Char) : Except GradientFault Unit :=
  if isStop part then checkPositions ((Scan.topWords part).drop 1)
  else .error (.notStop (.ofList part))

/-- The fault of the first argument, which may also be a direction, an angle, a shape or a
position. -/
def checkFirstStop (part : List Char) : Except GradientFault Unit :=
  if isStop part then checkStop part
  else checkPositions ((Scan.topWords part).filter fun word => !isIdentifier word)

/-- The first fault among arguments that must be colour stops. -/
def checkStops : List (List Char) → Except GradientFault Unit
  | [] => .ok ()
  | part :: rest => do
    checkStop part
    checkStops rest

/-- The fault of the arguments of a gradient. -/
def checkGradient (cs : List Char) : Except GradientFault Unit := do
  let parts := Scan.commaParts cs
  if parts.contains [] then throw .emptyArgument
  if parts.countP isStop < 2 then throw .tooFewStops
  match parts with
  | [] => .ok ()
  | first :: rest => do
    checkFirstStop first
    checkStops rest

end BracketCss
