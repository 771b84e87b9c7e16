import BracketCss.Text.LetterTable

/-!
# Letters and names

The characters that words and names are made of.

## Main definitions

* `isWordChar c`: a letter or number of any script, or the low line
* `isNameChar c`: a word character or a hyphen
* `isAsciiLetter c`, `isAsciiAlphanumeric c`, `isHexDigit c`: the ASCII classes

## Main results

* `isWordChar_of_isAsciiAlphanumeric`: ASCII letters and digits are word characters
-/

namespace BracketCss.Text

/-- An ASCII letter. -/
def isAsciiLetter (c : Char) : Bool := ('a' ≤ c && c ≤ 'z') || ('A' ≤ c && c ≤ 'Z')

/-- An ASCII letter or digit. -/
def isAsciiAlphanumeric (c : Char) : Bool := isAsciiLetter c || ('0' ≤ c && c ≤ '9')

/-- An ASCII letter, digit or hyphen. -/
def isAsciiNameChar (c : Char) : Bool := isAsciiAlphanumeric c || c == '-'

/-- A hexadecimal digit. -/
def isHexDigit (c : Char) : Bool :=
  ('0' ≤ c && c ≤ '9') || ('a' ≤ c && c ≤ 'f') || ('A' ≤ c && c ≤ 'F')

/-- The value of a hexadecimal digit; any other character counts as zero. -/
def hexValue (c : Char) : Nat :=
  if '0' ≤ c ∧ c ≤ '9' then c.toNat - 48
  else if 'a' ≤ c ∧ c ≤ 'f' then c.toNat - 87
  else if 'A' ≤ c ∧ c ≤ 'F' then c.toNat - 55
  else 0

/-- The number written by a run of hexadecimal digits. -/
def hexNat (digits : List Char) : Nat :=
  digits.foldl (fun total c => 16 * total + hexValue c) 0

/-- A letter or number of any script, or the low line. -/
def isWordChar (c : Char) : Bool :=
  isAsciiAlphanumeric c || c == '_' ||
    (128 ≤ c.toNat && letterOrNumberRanges.any fun r => r.1 ≤ c.toNat && c.toNat ≤ r.2)

/-- A word character or a hyphen. -/
def isNameChar (c : Char) : Bool := isWordChar c || c == '-'

theorem isWordChar_of_isAsciiAlphanumeric {c : Char} (h : isAsciiAlphanumeric c) :
    isWordChar c := by
  simp [isWordChar, h]

/-- An identifier: an optional hyphen, an ASCII letter or low line, then name characters. -/
def isIdentifier (cs : List Char) : Bool :=
  let body := match cs with
    | '-' :: rest => rest
    | _ => cs
  match body with
  | c :: rest => (isAsciiLetter c || c == '_') && rest.all isNameChar
  | [] => false

/-- A custom property name: two hyphens and at least one name character. -/
def isCustomProperty : List Char → Bool
  | '-' :: '-' :: c :: rest => isNameChar c && rest.all isNameChar
  | _ => false

end BracketCss.Text
