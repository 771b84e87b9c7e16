import BracketCss.Value.Color
import BracketCss.Value.Math.Reader

/-!
# Shadows

A shadow is two to four lengths, the third of which is the blur radius and not negative, with a
colour before or after them and the word `inset` before or after it all.

## Main definitions

* `ShadowFault`, `ShadowFault.message`: why a shadow is refused
* `shadowLengths words`: the words of a shadow without `inset` and colour
* `checkShadow least greatest cs`: the fault of a shadow
-/

namespace BracketCss

open Text

/-- Why a shadow is refused. -/
inductive ShadowFault where
  /-- There is nothing. -/
  | empty
  /-- The wrong number of lengths. -/
  | wrongCount (least greatest : Int) (given : Nat)
  /-- An arithmetic expression with a fault. -/
  | math (fault : MathFault)
  /-- A word that is no length. -/
  | notLength (text : String)
  /-- A blur radius below zero. -/
  | negativeBlur
  deriving DecidableEq, Repr

/-- The text of a fault. -/
def ShadowFault.message : ShadowFault → String
  | empty => "empty shadow"
  | wrongCount least greatest given => s!"shadow needs {least}-{greatest} lengths, got {given}"
  | math fault => fault.message
  | notLength text => quoted text ++ " is not a shadow length"
  | negativeBlur => "shadow blur radius must not be negative"

/-- The word `inset` in any letter case. -/
def isInset (cs : List Char) : Bool := lower cs == "inset".toList

/-- The words without `inset` at the start, or else at the end. -/
def dropInset (words : List (List Char)) : List (List Char) :=
  if words.head?.any isInset then words.drop 1
  else if words.getLast?.any isInset then words.dropLast
  else words

/-- The words without a colour at the end, or else at the start. -/
def dropColor (words : List (List Char)) : List (List Char) :=
  if words.getLast?.any isColor then words.dropLast
  else if words.head?.any isColor then words.drop 1
  else words

/-- The words of a shadow without `inset` and its colour. -/
def shadowLengths (words : List (List Char)) : List (List Char) := dropColor (dropInset words)

/-- A dimension that is a length and no percentage. -/
def Dimension.isPlainLength (d : Dimension) : Bool := d.isLength && !d.isPercentage

/-- The fault of a length of a shadow, given its place. -/
def checkShadowLength (index : Nat) (word : List Char) : Except ShadowFault Unit :=
  match Scan.callOf? mathFunctions word with
  | some _ => (checkMath word).mapError .math
  | none =>
    match Dimension.ofChars? word with
    | some d =>
      if !d.isPlainLength then .error (.notLength (.ofList word))
      else if index = 2 ∧ d.isNegative then .error .negativeBlur
      else .ok ()
    | none => .error (.notLength (.ofList word))

/-- The first fault among the lengths of a shadow from a place on. -/
def checkShadowLengths (index : Nat) : List (List Char) → Except ShadowFault Unit
  | [] => .ok ()
  | word :: rest => do
    checkShadowLength index word
    checkShadowLengths (index + 1) rest

/-- The fault of a shadow with between `least` and `greatest` lengths. -/
def checkShadow (least greatest : Int) (cs : List Char) : Except ShadowFault Unit := do
  let words := Scan.topWords cs
  if words.isEmpty then throw .empty
  let lengths := shadowLengths words
  if lengths.length < least ∨ greatest < lengths.length then
    throw (.wrongCount least greatest lengths.length)
  checkShadowLengths 0 lengths

end BracketCss
