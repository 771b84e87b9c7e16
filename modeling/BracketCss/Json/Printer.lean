import BracketCss.Json.Basic

/-!
# Printing JSON

Two layouts, both in ASCII: a compact one with sorted fields, which is the same text for equal
values whatever the order of their fields, and an indented one that keeps the order.

## Main definitions

* `Json.canonical v`: the compact text with sorted fields
* `Json.compact v`: the compact text in the given order
* `Json.indented v`: one item a line, two spaces deeper at every level
-/

namespace BracketCss.Json

/-- A sixteen-bit unit as an escape. -/
def unitEscape (n : Nat) : List Char := '\\' :: 'u' :: Text.hexPadded 4 n

/-- A character between the quotes of a string. -/
def stringChar (c : Char) : List Char :=
  let n := c.toNat
  if c = '"' then ['\\', '"']
  else if c = '\\' then ['\\', '\\']
  else if c = '\n' then ['\\', 'n']
  else if c = '\r' then ['\\', 'r']
  else if c = '\t' then ['\\', 't']
  else if n = 8 then ['\\', 'b']
  else if n = 12 then ['\\', 'f']
  else if 32 ≤ n ∧ n < 127 then [c]
  else if n < 0x10000 then unitEscape n
  else unitEscape (0xD800 + (n - 0x10000) / 0x400) ++ unitEscape (0xDC00 + (n - 0x10000) % 0x400)

/-- A text as a JSON string. -/
def stringText (s : String) : String :=
  .ofList ('"' :: s.toList.flatMap stringChar ++ ['"'])

/-- A number as JSON text. -/
def numberText : Number → String
  | .infinite negative => if negative then "-Infinity" else "Infinity"
  | .undefined => "NaN"
  | n => n.toText

/-- Fields in the order of their names. -/
def sortFields {α : Type} (fields : List (String × α)) : List (String × α) :=
  fields.mergeSort fun a b => decide (a.1 ≤ b.1)

/-- The texts of fields between the braces of an object. -/
def objectText (fields : List (String × String)) : String :=
  "\x7b" ++ ",".intercalate (fields.map fun entry => stringText entry.1 ++ ":" ++ entry.2) ++
    "\x7d"

mutual

/-- The compact text; `arrange` orders the fields of every object. -/
def printWith (arrange : List (String × String) → List (String × String)) : Json → String
  | null => "null"
  | bool b => if b then "true" else "false"
  | number n => numberText n
  | string s => stringText s
  | array items => "[" ++ ",".intercalate (printItems arrange items) ++ "]"
  | object fields => objectText (arrange (printFields arrange fields))

/-- The compact texts of the items of an array. -/
def printItems (arrange : List (String × String) → List (String × String)) :
    List Json → List String
  | [] => []
  | v :: rest => printWith arrange v :: printItems arrange rest

/-- The compact texts of the fields of an object. -/
def printFields (arrange : List (String × String) → List (String × String)) :
    List (String × Json) → List (String × String)
  | [] => []
  | (name, v) :: rest => (name, printWith arrange v) :: printFields arrange rest

end

/-- The compact text with the fields of every object sorted by name. -/
def canonical (v : Json) : String := printWith sortFields v

/-- The compact text with the fields in their own order. -/
def compact (v : Json) : String := printWith id v

/-- Items one a line between brackets, the line before the closing one at depth `depth`. -/
def bracketed (opening closing : String) (depth : Nat) : List String → String
  | [] => opening ++ closing
  | lines =>
    let inner := "\n" ++ "".pushn ' ' (2 * depth + 2)
    opening ++ inner ++ ("," ++ inner).intercalate lines ++ "\n" ++ "".pushn ' ' (2 * depth) ++
      closing

mutual

/-- The indented text of a value at a depth. -/
def indentedAt (depth : Nat) : Json → String
  | array items => bracketed "[" "]" depth (indentedItems (depth + 1) items)
  | object fields => bracketed "\x7b" "\x7d" depth (indentedFields (depth + 1) fields)
  | v => compact v

/-- The indented texts of the items of an array. -/
def indentedItems (depth : Nat) : List Json → List String
  | [] => []
  | v :: rest => indentedAt depth v :: indentedItems depth rest

/-- The indented texts of the fields of an object. -/
def indentedFields (depth : Nat) : List (String × Json) → List String
  | [] => []
  | (name, v) :: rest =>
    (stringText name ++ ": " ++ indentedAt depth v) :: indentedFields depth rest

end

/-- The text with one item a line and two spaces of indentation at every level. -/
def indented (v : Json) : String := indentedAt 0 v

end BracketCss.Json
