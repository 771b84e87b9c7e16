import BracketCss.Number.Decimal
import BracketCss.Text.Blank
import BracketCss.Text.Case
import BracketCss.Text.Letter

/-!
# Dimensions

Numbers with an optional unit, as they stand in values: `12`, `-1.5rem`, `50%`.

## Main definitions

* `lengthUnits`, `angleUnits`, `timeUnits`: the units of each family
* `Dimension`, `Dimension.ofChars? cs`: a number with its unit
* `Dimension.isLength`, `Dimension.isAngle`, `Dimension.isTime`: the families
* `Dimension.normalized`: the text with its unit in lower case
-/

namespace BracketCss

open Text

/-- The units of length, the percentage and the flexible unit among them. -/
def lengthUnits : List String :=
  ["px", "in", "cm", "mm", "pt", "pc", "q", "em", "rem", "ex", "ch", "lh", "rlh", "cap", "ic",
    "vw", "vh", "vmin", "vmax", "vi", "vb", "svw", "svh", "lvw", "lvh", "dvw", "dvh", "%", "fr"]

/-- The units of angle. -/
def angleUnits : List String := ["deg", "grad", "rad", "turn"]

/-- The units of time. -/
def timeUnits : List String := ["s", "ms"]

/-- A number with an optional unit. -/
structure Dimension where
  /-- The number. -/
  number : Decimal
  /-- The unit in lower case, empty if there is none. -/
  unit : String
  /-- The trimmed text. -/
  text : List Char
  deriving DecidableEq, Repr

namespace Dimension

/-- The unit that a whole text is, in lower case: letters, a percent sign, or nothing. -/
def unitOfChars? (cs : List Char) : Option String :=
  if cs.all isAsciiLetter || cs == ['%'] then some (.ofList (lower cs)) else none

/-- Reads a whole text, blanks at its ends apart, as a dimension. -/
def ofChars? (cs : List Char) : Option Dimension := do
  let text := trim cs
  let (negative, body) := Decimal.splitSign text
  let (size, rest) ← Decimal.ofUnsigned? body
  let unit ← unitOfChars? rest
  return ⟨{ size with negative := negative }, unit, text⟩

/-- The number is zero. -/
def isZero (d : Dimension) : Bool := d.number.isZero

/-- The number is below zero. -/
def isNegative (d : Dimension) : Bool := d.number.isNegative

/-- There is no unit. -/
def isUnitless (d : Dimension) : Bool := d.unit == ""

/-- The unit is the percent sign. -/
def isPercentage (d : Dimension) : Bool := d.unit == "%"

/-- There is neither a unit nor a point. -/
def isInteger (d : Dimension) : Bool := d.isUnitless && !d.text.contains '.'

/-- The text without its unit. -/
def numeral (d : Dimension) : List Char := d.text.take (d.text.length - d.unit.length)

/-- The text as written. -/
def written (d : Dimension) : String := .ofList d.text

/-- The text with its unit in lower case. -/
def normalized (d : Dimension) : String := .ofList d.numeral ++ d.unit

/-- A length: a unit of length, or a zero without unit. -/
def isLength (d : Dimension) : Bool :=
  if d.isUnitless then d.isZero else lengthUnits.contains d.unit

/-- An angle: a unit of angle, or a zero without unit. -/
def isAngle (d : Dimension) : Bool :=
  if d.isUnitless then d.isZero else angleUnits.contains d.unit

/-- A time: a unit of time. -/
def isTime (d : Dimension) : Bool := timeUnits.contains d.unit

end Dimension

end BracketCss
