import BracketCss.Json.Basic
import BracketCss.Text.Letter
import BracketCss.Text.Utf8

/-!
# Reading JSON

A strict reader that says why a text is refused. Of two fields with one name the later value
stays, at the place of the earlier. Beside the standard's numbers the reader knows `NaN` and the
infinities.

## Main definitions

* `Json.Fault`, `Json.Fault.message`: why a text is refused
* `Json.read s`: the value of a text
-/

namespace BracketCss.Json

open Text

/-- Why a text is no JSON. -/
inductive Fault where
  /-- No value where one must stand. -/
  | expectingValue
  /-- Text after the value. -/
  | extraData
  /-- No field name where one must stand. -/
  | expectingName
  /-- No colon after a field name. -/
  | expectingColon
  /-- No comma or closing bracket after an item. -/
  | expectingComma
  /-- A string without its end. -/
  | unterminatedString
  /-- A control character inside a string. -/
  | controlCharacter
  /-- A backslash before a character that needs none. -/
  | invalidEscape
  /-- A code unit escape without four hexadecimal digits. -/
  | invalidUnitEscape
  /-- A byte order mark at the start. -/
  | byteOrderMark
  deriving DecidableEq, Repr

/-- The text of a fault. -/
def Fault.message : Fault → String
  | expectingValue => "Expecting value"
  | extraData => "Extra data"
  | expectingName => "Expecting property name enclosed in double quotes"
  | expectingColon => "Expecting ':' delimiter"
  | expectingComma => "Expecting ',' delimiter"
  | unterminatedString => "Unterminated string starting at"
  | controlCharacter => "Invalid control character at"
  | invalidEscape => "Invalid \\escape"
  | invalidUnitEscape => "Invalid \\uXXXX escape"
  | byteOrderMark => "Unexpected UTF-8 BOM (decode using utf-8-sig)"

/-- The text without leading white space. -/
def skipSpace (cs : List Char) : List Char :=
  cs.dropWhile fun c => c == ' ' || c == '\t' || c == '\n' || c == '\r'

/-- The code unit written by four hexadecimal digits at the start of a text. -/
def unit? : List Char → Option Nat
  | a :: b :: c :: d :: _ =>
    if [a, b, c, d].all isHexDigit then some (hexNat [a, b, c, d]) else none
  | _ => none

/-- The low half of a pair of code units that a text starts with, as an escape. -/
def lowHalf? : List Char → Option Nat
  | '\\' :: 'u' :: rest => (unit? rest).filter fun n => 0xDC00 ≤ n && n ≤ 0xDFFF
  | _ => none

/-- The character of a short escape. -/
def shortEscape? : Char → Option Char
  | '"' => some '"'
  | '\\' => some '\\'
  | '/' => some '/'
  | 'b' => some '\x08'
  | 'f' => some '\x0c'
  | 'n' => some '\n'
  | 'r' => some '\r'
  | 't' => some '\t'
  | _ => none

/-- Reads a string after its opening quote; `seen` is its text so far, the last character first.
It comes with the text after the closing quote. -/
def readString (seen : List Char) (cs : List Char) : Except Fault (String × List Char) :=
  match cs with
  | [] => .error .unterminatedString
  | '"' :: rest => .ok (.ofList seen.reverse, rest)
  | '\\' :: 'u' :: rest =>
    match unit? rest with
    | none => .error .invalidUnitEscape
    | some n =>
      match lowHalf? (rest.drop 4) with
      | some low =>
        if 0xD800 ≤ n ∧ n ≤ 0xDBFF then
          readString (charOfCode (0x10000 + 0x400 * (n - 0xD800) + (low - 0xDC00)) :: seen)
            (rest.drop 10)
        else readString (charOfCode n :: seen) (rest.drop 4)
      | none => readString (charOfCode n :: seen) (rest.drop 4)
  | '\\' :: c :: rest =>
    match shortEscape? c with
    | some d => readString (d :: seen) rest
    | none => .error .invalidEscape
  | c :: rest =>
    if c = '\\' then .error .unterminatedString
    else if c.toNat < 32 then .error .controlCharacter
    else readString (c :: seen) rest
termination_by cs.length
decreasing_by all_goals simp only [List.length_drop, List.length_cons]; omega

/-- A run of ASCII digits at the start of a text. -/
def digitRun (cs : List Char) : List Char := cs.takeWhile isAsciiDigit

/-- The exponent part that a text starts with: its value and its length. -/
def exponentPart? : List Char → Option (Int × Nat)
  | c :: rest =>
    if c = 'e' ∨ c = 'E' then
      let (negative, body) := Decimal.splitSign rest
      let digits := digitRun body
      let value : Int := decimalNat digits
      if digits.isEmpty then none
      else some (if negative then -value else value,
        1 + (rest.length - body.length) + digits.length)
    else none
  | [] => none

/-- An unsigned number that a text starts with, and the text after it. -/
def readNumber? (negative : Bool) (cs : List Char) : Option (Number × List Char) :=
  let run := digitRun cs
  let whole := if run.head? = some '0' then ['0'] else run
  let rest := cs.drop whole.length
  let fraction := match rest with
    | '.' :: tail => digitRun tail
    | _ => []
  let afterFraction := if fraction.isEmpty then rest else rest.drop (1 + fraction.length)
  if whole.isEmpty then none
  else
    let coefficient := decimalNat (whole ++ fraction)
    match exponentPart? afterFraction with
    | some (power, length) =>
      some (.real ⟨negative, coefficient, power - fraction.length⟩, afterFraction.drop length)
    | none =>
      if fraction.isEmpty then
        some (.whole (if negative then -(coefficient : Int) else coefficient), rest)
      else some (.real ⟨negative, coefficient, -(fraction.length : Int)⟩, afterFraction)

/-- The text after a word that the text starts with. -/
def afterWord? (word : String) (cs : List Char) : Option (List Char) :=
  if word.toList.isPrefixOf cs then some (cs.drop word.length) else none

/-- A value without parts that a text starts with, and the text after it. -/
def readAtom? (cs : List Char) : Option (Json × List Char) :=
  let word (name : String) (v : Json) := (afterWord? name cs).map fun rest => (v, rest)
  word "null" null <|> word "true" (bool true) <|> word "false" (bool false) <|>
    word "NaN" (number .undefined) <|> word "Infinity" (number (.infinite false)) <|>
    word "-Infinity" (number (.infinite true)) <|>
    match cs with
    | '-' :: rest => (readNumber? true rest).map fun read => (number read.1, read.2)
    | _ => (readNumber? false cs).map fun read => (number read.1, read.2)

mutual

/-- Reads a value; `depth` bounds the number of steps. -/
def readValue : (depth : Nat) → List Char → Except Fault (Json × List Char)
  | 0, _ => .error .expectingValue
  | depth + 1, cs =>
    match cs with
    | '"' :: rest => (readString [] rest).map fun read => (string read.1, read.2)
    | '[' :: rest =>
      match skipSpace rest with
      | ']' :: tail => .ok (array [], tail)
      | body => readItems depth [] body
    | '\x7b' :: rest =>
      match skipSpace rest with
      | '\x7d' :: tail => .ok (object [], tail)
      | body => readFields depth [] body
    | _ =>
      match readAtom? cs with
      | some read => .ok read
      | none => .error .expectingValue

/-- Reads the items of an array up to its closing bracket; `seen` holds those before, the last
one first. -/
def readItems : (depth : Nat) → (seen : List Json) → List Char → Except Fault (Json × List Char)
  | 0, _, _ => .error .expectingValue
  | depth + 1, seen, cs => do
    let (v, rest) ← readValue depth cs
    match skipSpace rest with
    | ']' :: tail => .ok (array (v :: seen).reverse, tail)
    | ',' :: tail => readItems depth (v :: seen) (skipSpace tail)
    | _ => .error .expectingComma

/-- Reads the fields of an object up to its closing brace; `seen` holds those before. -/
def readFields : (depth : Nat) → (seen : List (String × Json)) → List Char →
    Except Fault (Json × List Char)
  | 0, _, _ => .error .expectingName
  | depth + 1, seen, cs =>
    match cs with
    | '"' :: rest => do
      let (name, afterName) ← readString [] rest
      match skipSpace afterName with
      | ':' :: body =>
        let (v, afterValue) ← readValue depth (skipSpace body)
        match skipSpace afterValue with
        | '\x7d' :: tail => .ok (object (setField seen name v), tail)
        | ',' :: tail => readFields depth (setField seen name v) (skipSpace tail)
        | _ => .error .expectingComma
      | _ => .error .expectingColon
    | _ => .error .expectingName

end

/-- The value of a text. -/
def read (s : String) : Except Fault Json :=
  match s.toList with
  | '\ufeff' :: _ => .error .byteOrderMark
  | cs => do
    let (v, rest) ← readValue (2 * cs.length + 2) (skipSpace cs)
    if (skipSpace rest).isEmpty then .ok v else .error .extraData

end BracketCss.Json
