import BracketCss.Text.Letter
import BracketCss.Text.ReferenceNames
import BracketCss.Text.Utf8

/-!
# Character references

Decoding of the references of markup: decimal and hexadecimal code points, where the final `;`
may be missing, and names. A name is the longest known one that the text starts with, and only
the names of old markup are known without their `;`.

## Main definitions

* `CharacterReference.decode cs`: the decoded text
* `CharacterReference.names`: the names, with their texts
-/

namespace BracketCss.Text.CharacterReference

/-- The characters that the numbers 128 to 159 stand for: those of the code page of old markup. -/
def codePage : List Nat :=
  [0x20AC, 0x81, 0x201A, 0x0192, 0x201E, 0x2026, 0x2020, 0x2021, 0x02C6, 0x2030, 0x0160, 0x2039,
    0x0152, 0x8D, 0x017D, 0x8F, 0x90, 0x2018, 0x2019, 0x201C, 0x201D, 0x2022, 0x2013, 0x2014,
    0x02DC, 0x2122, 0x0161, 0x203A, 0x0153, 0x9D, 0x017E, 0x0178]

/-- Code points that a reference may name but that leave no character behind. -/
def isDropped (n : Nat) : Bool :=
  (1 ≤ n && n ≤ 8) || n == 0xB || (0xE ≤ n && n ≤ 0x1F) || (0x7F ≤ n && n ≤ 0x9F) ||
    (0xFDD0 ≤ n && n ≤ 0xFDEF) || 0xFFFE ≤ n % 0x10000

/-- The text of a numeric reference. -/
def numeric (n : Nat) : List Char :=
  if n = 0 then [replacementChar]
  else if 0x80 ≤ n ∧ n ≤ 0x9F then
    [charOfCode (codePage.getD (n - 0x80) n)]
  else if 0x10FFFF < n then [replacementChar]
  else if isDropped n then []
  else [charOfCode n]

/-- The known names without their `;`, with the texts they stand for. -/
def names : List (String × List Char) :=
  (legacyNames ++ strictNames).map (fun entry => (entry.1, [charOfCode entry.2])) ++
    pairNames.map fun entry => (entry.1, [charOfCode entry.2.1, charOfCode entry.2.2])

/-- The text of a name as it is written after the `&`: any name with its `;`, and an old one
without it. -/
def named? (name : List Char) : Option (List Char) :=
  if name.getLast? = some ';' then names.lookup (.ofList name.dropLast)
  else (legacyNames.lookup (.ofList name)).map fun code => [charOfCode code]

/-- The longest known name of at least two characters, but shorter than the bound, that a text
starts with: its text and its length. -/
def longestName (name : List Char) : Nat → Option (List Char × Nat)
  | 0 | 1 | 2 => none
  | bound + 1 =>
    match named? (name.take bound) with
    | some text => some (text, bound)
    | none => longestName name bound

/-- A character that a name may hold. -/
def isNamePart (c : Char) : Bool := !"\t\n\x0c <&#;".toList.contains c

/-- The number of characters taken by a `;` that may follow. -/
def semicolon : List Char → Nat
  | ';' :: _ => 1
  | _ => 0

/-- The reference that follows an `&`: its text, and the number of characters it takes. -/
def reference? (cs : List Char) : Option (List Char × Nat) :=
  match cs with
  | '#' :: 'x' :: rest | '#' :: 'X' :: rest =>
    let digits := rest.takeWhile isHexDigit
    if digits.isEmpty then none
    else some (numeric (hexNat digits),
      2 + digits.length + semicolon (rest.drop digits.length))
  | '#' :: rest =>
    let digits := rest.takeWhile fun c => '0' ≤ c && c ≤ '9'
    if digits.isEmpty then none
    else some (numeric (digits.foldl (fun total c => 10 * total + (c.toNat - 48)) 0),
      1 + digits.length + semicolon (rest.drop digits.length))
  | _ =>
    let letters := (cs.take 32).takeWhile isNamePart
    if letters.isEmpty then none
    else
      let name := cs.take (letters.length + semicolon (cs.drop letters.length))
      match named? name with
      | some text => some (text, name.length)
      | none =>
        match longestName name name.length with
        | some (text, length) => some (text ++ name.drop length, name.length)
        | none => some ('&' :: name, name.length)

/-- The text with its character references decoded. -/
def decode : List Char → List Char
  | [] => []
  | c :: rest =>
    if c = '&' then
      match reference? rest with
      | some (text, taken) => text ++ decode (rest.drop taken)
      | none => c :: decode rest
    else c :: decode rest
termination_by cs => cs.length
decreasing_by all_goals simp only [List.length_drop, List.length_cons]; omega

end BracketCss.Text.CharacterReference
