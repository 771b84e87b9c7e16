import BracketCss.Pattern.Basic
import BracketCss.Value.Function

/-!
# Property rules

What values a property takes: the kind of value, bounds on numbers, keywords, functions.

## Main definitions

* `ValueKind`: the kinds of values
* `PropertyRule`: the rule of a property
* `standardRules`: the rules of the standard properties
-/

namespace BracketCss

/-- The kinds of values that a property may take. -/
inductive ValueKind where
  /-- A length, or several for a shorthand. -/
  | length
  /-- A length or a plain number. -/
  | lengthOrNumber
  /-- A colour. -/
  | color
  /-- A number. -/
  | number
  /-- An integer. -/
  | integer
  /-- A keyword. -/
  | keyword
  /-- A keyword or a number. -/
  | keywordOrNumber
  /-- Function calls. -/
  | function
  /-- A value with a syntax of its own. -/
  | complex
  deriving DecidableEq, Repr

namespace ValueKind

/-- The kinds. -/
def all : List ValueKind :=
  [length, lengthOrNumber, color, number, integer, keyword, keywordOrNumber, function, complex]

/-- The name of a kind. -/
def name : ValueKind → String
  | length => "length"
  | lengthOrNumber => "length-or-number"
  | color => "color"
  | number => "number"
  | integer => "integer"
  | keyword => "keyword"
  | keywordOrNumber => "keyword-or-number"
  | function => "function"
  | complex => "complex"

/-- The kind of a name. -/
def ofName? (s : String) : Option ValueKind := all.find? fun kind => kind.name == s

/-- A percentage of this kind stands for a fraction, to which the bounds apply. -/
def boundsPercentages (kind : ValueKind) : Bool := kind == number || kind == integer

end ValueKind

/-- What values a property takes. -/
structure PropertyRule where
  /-- The kind of value. -/
  kind : ValueKind
  /-- The least number. -/
  minimum : Option Decimal
  /-- The greatest number. -/
  maximum : Option Decimal
  /-- Negative numbers are accepted. -/
  allowNegative : Bool
  /-- Percentages are accepted. -/
  allowPercentage : Bool
  /-- A plain number is accepted as a length. -/
  allowUnitless : Bool
  /-- The keywords in lower case. -/
  keywords : List String
  /-- The functions that may be called; any safe one if there are none. -/
  functions : List String
  /-- The syntax of a complex value. -/
  pattern : Option Pattern
  /-- One to four values may stand side by side. -/
  shorthand : Bool
  /-- What joins the parts of a value that are separated by commas. -/
  separator : String

namespace PropertyRule

/-- A rule for a kind of values, without bounds and keywords. -/
def ofKind (kind : ValueKind) : PropertyRule :=
  ⟨kind, none, none, false, true, false, [], [], none, false, " "⟩

/-- Lengths from zero on, and keywords. -/
def lengths (keywords : List String) : PropertyRule :=
  { ofKind .length with minimum := some (.ofNat 0), keywords := keywords }

/-- Lengths of either sign, and keywords. -/
def signedLengths (keywords : List String) : PropertyRule :=
  { ofKind .length with allowNegative := true, keywords := keywords }

/-- The rule with one to four values side by side. -/
def asShorthand (rule : PropertyRule) : PropertyRule := { rule with shorthand := true }

/-- Keywords only. -/
def oneOf (keywords : List String) : PropertyRule :=
  { ofKind .keyword with keywords := keywords }

/-- Colours. -/
def colors : PropertyRule := { ofKind .color with keywords := ["currentcolor", "transparent"] }

/-- Calls of the given functions. -/
def calls (functions : List String) : PropertyRule :=
  { ofKind .function with keywords := ["none"], functions := functions }

end PropertyRule

/-- The keywords of a size. -/
def sizeKeywords : List String := ["auto", "min-content", "max-content", "fit-content"]

/-- The keywords of overflowing content. -/
def overflowKeywords : List String := ["visible", "hidden", "clip", "scroll", "auto"]

/-- The keywords of a border's width. -/
def widthKeywords : List String := ["thin", "medium", "thick"]

open Pattern in
/-- A text in quotes, without that quote inside. -/
def quotedPattern (mark : Char) : Pattern :=
  sequence [char (.one mark), many (.outside (.one mark)), char (.one mark)]

open Pattern in
/-- The names of font families: each in quotes or made of words, with a comma and a space
between two of them. -/
def fontFamilyPattern : Pattern :=
  let word := seq (char .asciiLetter) (many .nameChar)
  let family := choice
    [quotedPattern '"', quotedPattern '\'', seq word (star true (seq (char (.one ' ')) word))]
  seq family (star true (seq (text ", ") family))

open Pattern in
/-- Generated content: a keyword or a text in quotes. -/
def contentPattern : Pattern :=
  choice
    (["none", "normal", "open-quote", "close-quote", "no-open-quote", "no-close-quote"].map
      textIgnoringCase ++ [quotedPattern '"', quotedPattern '\''])

open PropertyRule in
/-- The rules of the standard properties. -/
def standardRules : List (String × PropertyRule) :=
  [("padding", (lengths []).asShorthand),
    ("padding-top", lengths []),
    ("padding-right", lengths []),
    ("padding-bottom", lengths []),
    ("padding-left", lengths []),
    ("padding-block", lengths []),
    ("padding-block-start", lengths []),
    ("padding-block-end", lengths []),
    ("padding-inline", lengths []),
    ("padding-inline-start", lengths []),
    ("padding-inline-end", lengths []),
    ("margin", (signedLengths ["auto"]).asShorthand),
    ("margin-top", signedLengths ["auto"]),
    ("margin-right", signedLengths ["auto"]),
    ("margin-bottom", signedLengths ["auto"]),
    ("margin-left", signedLengths ["auto"]),
    ("margin-block", signedLengths ["auto"]),
    ("margin-block-start", signedLengths ["auto"]),
    ("margin-block-end", signedLengths ["auto"]),
    ("margin-inline", signedLengths ["auto"]),
    ("margin-inline-start", signedLengths ["auto"]),
    ("margin-inline-end", signedLengths ["auto"]),
    ("gap", lengths ["normal"]),
    ("column-gap", lengths ["normal"]),
    ("row-gap", lengths ["normal"]),
    ("width", lengths sizeKeywords),
    ("height", lengths sizeKeywords),
    ("min-width", lengths sizeKeywords),
    ("min-height", lengths sizeKeywords),
    ("max-width", lengths ("none" :: sizeKeywords)),
    ("max-height", lengths ("none" :: sizeKeywords)),
    ("top", signedLengths ["auto"]),
    ("right", signedLengths ["auto"]),
    ("bottom", signedLengths ["auto"]),
    ("left", signedLengths ["auto"]),
    ("display", oneOf
      ["none", "block", "inline", "inline-block", "flex", "inline-flex", "grid", "inline-grid",
        "table", "table-cell", "table-row", "contents", "flow-root", "list-item"]),
    ("position", oneOf ["static", "relative", "absolute", "fixed", "sticky"]),
    ("float", oneOf ["left", "right", "none", "inline-start", "inline-end"]),
    ("clear", oneOf ["left", "right", "both", "none", "inline-start", "inline-end"]),
    ("overflow", oneOf overflowKeywords),
    ("overflow-x", oneOf overflowKeywords),
    ("overflow-y", oneOf overflowKeywords),
    ("z-index", { ofKind .integer with allowNegative := true, keywords := ["auto"] }),
    ("font", { ofKind .complex with separator := ", " }),
    ("font-family",
      { ofKind .complex with pattern := some fontFamilyPattern, separator := ", " }),
    ("font-size", lengths
      ["xx-small", "x-small", "small", "medium", "large", "x-large", "xx-large", "smaller",
        "larger"]),
    ("font-weight",
      { ofKind .keywordOrNumber with
        minimum := some (.ofNat 1)
        maximum := some (.ofNat 1000)
        allowPercentage := false
        keywords := ["normal", "bold", "bolder", "lighter"] }),
    ("font-style", oneOf ["normal", "italic", "oblique"]),
    ("content", { ofKind .complex with pattern := some contentPattern }),
    ("line-height",
      { ofKind .lengthOrNumber with
        minimum := some (.ofNat 0)
        allowUnitless := true
        keywords := ["normal"] }),
    ("letter-spacing", signedLengths ["normal"]),
    ("text-align", oneOf ["left", "right", "center", "justify", "start", "end"]),
    ("text-decoration", oneOf ["none", "underline", "overline", "line-through"]),
    ("text-transform", oneOf ["none", "capitalize", "uppercase", "lowercase", "full-width"]),
    ("color", colors),
    ("background-color", colors),
    ("border-color", colors),
    ("border-width", (lengths widthKeywords).asShorthand),
    ("border-top-width", lengths widthKeywords),
    ("border-right-width", lengths widthKeywords),
    ("border-bottom-width", lengths widthKeywords),
    ("border-left-width", lengths widthKeywords),
    ("border-style", oneOf
      ["none", "hidden", "dotted", "dashed", "solid", "double", "groove", "ridge", "inset",
        "outset"]),
    ("border-radius", (lengths []).asShorthand),
    ("border-top-left-radius", lengths []),
    ("border-top-right-radius", lengths []),
    ("border-bottom-right-radius", lengths []),
    ("border-bottom-left-radius", lengths []),
    ("opacity",
      { ofKind .number with minimum := some (.ofNat 0), maximum := some (.ofNat 1) }),
    ("transform", calls transformFunctions),
    ("filter", calls filterFunctions),
    ("box-shadow", { ofKind .complex with keywords := ["none"] })]

end BracketCss
