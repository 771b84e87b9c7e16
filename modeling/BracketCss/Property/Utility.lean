import BracketCss.Property.Rule
import BracketCss.Text.Pieces
import BracketCss.Value.Dimension

/-!
# Utilities

The utility names and the property that each one sets, and the rules of the properties, together
as one table. Sessions may bring a table of their own.

## Main definitions

* `PropertyTable`, `PropertyTable.standard`: the tables
* `PropertyTable.property?`, `PropertyTable.rule?`: looking up a utility and a property
* `PropertyTable.suggestions`: the known utilities like an unknown one
-/

namespace BracketCss

open Text

/-- Padding, margins and gaps. -/
def spacingUtilities : List (String × String) :=
  [("padding", "padding"), ("padding-top", "padding-top"), ("padding-right", "padding-right"),
    ("padding-bottom", "padding-bottom"), ("padding-left", "padding-left"), ("p", "padding"),
    ("pt", "padding-top"), ("pr", "padding-right"), ("pb", "padding-bottom"),
    ("pl", "padding-left"), ("padding-block", "padding-block"),
    ("padding-block-start", "padding-block-start"), ("padding-block-end", "padding-block-end"),
    ("padding-inline", "padding-inline"), ("padding-inline-start", "padding-inline-start"),
    ("padding-inline-end", "padding-inline-end"), ("py", "padding-block"),
    ("py-start", "padding-block-start"), ("py-end", "padding-block-end"), ("px", "padding-inline"),
    ("px-start", "padding-inline-start"), ("px-end", "padding-inline-end"), ("margin", "margin"),
    ("margin-top", "margin-top"), ("margin-right", "margin-right"),
    ("margin-bottom", "margin-bottom"), ("margin-left", "margin-left"), ("m", "margin"),
    ("mt", "margin-top"), ("mr", "margin-right"), ("mb", "margin-bottom"), ("ml", "margin-left"),
    ("margin-block", "margin-block"), ("margin-block-start", "margin-block-start"),
    ("margin-block-end", "margin-block-end"), ("margin-inline", "margin-inline"),
    ("margin-inline-start", "margin-inline-start"), ("margin-inline-end", "margin-inline-end"),
    ("my", "margin-block"), ("my-start", "margin-block-start"), ("my-end", "margin-block-end"),
    ("mx", "margin-inline"), ("mx-start", "margin-inline-start"), ("mx-end", "margin-inline-end"),
    ("gap", "gap"), ("g", "gap"), ("column-gap", "column-gap"), ("col-gap", "column-gap"),
    ("row-gap", "row-gap")]

/-- Fonts and text. -/
def typeUtilities : List (String × String) :=
  [("font", "font"), ("font-family", "font-family"), ("ff", "font-family"),
    ("font-size", "font-size"), ("fs", "font-size"), ("font-weight", "font-weight"),
    ("fw", "font-weight"), ("font-style", "font-style"), ("content", "content"),
    ("line-height", "line-height"), ("lh", "line-height"), ("letter-spacing", "letter-spacing"),
    ("ls", "letter-spacing"), ("text-align", "text-align"), ("ta", "text-align"),
    ("text-decoration", "text-decoration"), ("td", "text-decoration"),
    ("text-transform", "text-transform"), ("tt", "text-transform")]

/-- Colours. The utility `text` also sets the size of a font, by the shape of its value. -/
def colorUtilities : List (String × String) :=
  [("color", "color"), ("c", "color"), ("text", "color"), ("text-color", "color"),
    ("background-color", "background-color"), ("bg-color", "background-color"),
    ("bg", "background-color"), ("background", "background-color"),
    ("border-color", "border-color")]

/-- Display and position. -/
def layoutUtilities : List (String × String) :=
  [("display", "display"), ("d", "display"), ("position", "position"), ("pos", "position"),
    ("top", "top"), ("right", "right"), ("bottom", "bottom"), ("left", "left"), ("float", "float"),
    ("clear", "clear"), ("overflow", "overflow"), ("overflow-x", "overflow-x"),
    ("overflow-y", "overflow-y"), ("z-index", "z-index"), ("z", "z-index")]

/-- Widths and heights. -/
def sizeUtilities : List (String × String) :=
  [("width", "width"), ("w", "width"), ("min-width", "min-width"), ("min-w", "min-width"),
    ("max-width", "max-width"), ("max-w", "max-width"), ("height", "height"), ("h", "height"),
    ("min-height", "min-height"), ("min-h", "min-height"), ("max-height", "max-height"),
    ("max-h", "max-height")]

/-- Borders and corners. -/
def borderUtilities : List (String × String) :=
  [("border-w", "border-width"), ("border-width", "border-width"),
    ("border-t-w", "border-top-width"), ("border-r-w", "border-right-width"),
    ("border-b-w", "border-bottom-width"), ("border-l-w", "border-left-width"),
    ("border-style", "border-style"), ("rounded", "border-radius"),
    ("border-radius", "border-radius"), ("rounded-t", "border-top-left-radius"),
    ("rounded-r", "border-top-right-radius"), ("rounded-b", "border-bottom-right-radius"),
    ("rounded-l", "border-bottom-left-radius")]

/-- Shadows, opacity, transformations and filters. -/
def effectUtilities : List (String × String) :=
  [("box-shadow", "box-shadow"), ("bs", "box-shadow"), ("opacity", "opacity"), ("o", "opacity"),
    ("transform", "transform"), ("t", "transform"), ("filter", "filter"), ("f", "filter")]

/-- The utilities, each with the property that it sets. -/
def standardUtilities : List (String × String) :=
  spacingUtilities ++ typeUtilities ++ colorUtilities ++ layoutUtilities ++ sizeUtilities ++
    borderUtilities ++ effectUtilities

/-- Utilities with their properties, and properties with their rules. -/
structure PropertyTable where
  /-- The property that each utility sets. -/
  utilities : List (String × String)
  /-- The rule of each property. -/
  rules : List (String × PropertyRule)

namespace PropertyTable

/-- The standard table. -/
def standard : PropertyTable := ⟨standardUtilities, standardRules⟩

/-- The property that a utility sets. -/
def property? (table : PropertyTable) (utility : String) : Option String :=
  table.utilities.lookup utility

/-- The rule of a property. -/
def rule? (table : PropertyTable) (property : String) : Option PropertyRule :=
  table.rules.lookup property

/-- Some utility sets the property. -/
def isSupported (table : PropertyTable) (property : String) : Bool :=
  table.utilities.any fun entry => entry.2 == property

/-- The difference of two lengths. -/
def lengthGap (a b : String) : Nat := max a.length b.length - min a.length b.length

/-- The utilities that start with the same letter as an unknown one, those of nearest length
first and equally near ones in the order of their texts; at most `limit` of them. A utility without
a name is like no other; that a search among names fails on it is left out. -/
def suggestions (table : PropertyTable) (utility : String) (limit : Int) : List String :=
  match utility.toList with
  | [] => []
  | first :: _ =>
    let alike := (table.utilities.map (·.1)).filter fun known =>
      (known.toList.take 1) == lowerChar first
    leading limit (alike.mergeSort fun a b =>
      let x := lengthGap a utility
      let y := lengthGap b utility
      decide (x < y) || (x == y && decide (a ≤ b)))

/-- How many utilities are suggested. -/
def suggestionLimit : Int := 5

end PropertyTable

/-- The functions that make a value of the utility `text` a size. -/
def sizeFunctions : List String := ["calc(", "clamp(", "min(", "max("]

/-- The text has the shape of a number with an optional unit. -/
def hasNumberShape (cs : List Char) : Bool := (Dimension.ofChars? cs).isSome

/-- The property that a utility sets for a value: `text` sets the size of a font if the value
looks like a size, and every other utility its own property. -/
def propertyFor (utility : String) (value : List Char) (property : String) : String :=
  let value := trim value
  let isSize := hasNumberShape value ||
    sizeFunctions.any fun start => start.toList.isPrefixOf (lower value)
  if utility == "text" && isSize then "font-size" else property

end BracketCss
