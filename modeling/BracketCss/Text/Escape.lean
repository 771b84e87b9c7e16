import BracketCss.Text.Blank
import BracketCss.Text.Letter
import BracketCss.Text.Utf8

/-!
# Escapes

Decoding of `%XX` and of the backslash escapes of style sheets. Within a run of ASCII text percent
escapes stand for bytes, and the run is read as UTF-8 with replacement; a malformed escape is kept,
and so is all text beyond ASCII. Of backslash escapes, first every code point escape is undone, one
to six hexadecimal digits and one optional blank, and then every backslash before a character on the
same line is dropped.

## Main definitions

* `Percent.decode cs`: the text with its percent escapes decoded
* `CssEscape.decode cs`: the text without backslash escapes
-/

namespace BracketCss.Text

namespace Percent

/-- Decodes after the bytes `pending`, the last one first, of an unfinished ASCII run. -/
def decodeAfter (pending : List UInt8) : List Char → List Char
  | [] => Utf8.decode pending.reverse
  | '%' :: a :: b :: rest =>
    if isHexDigit a && isHexDigit b then
      decodeAfter (.ofNat (16 * hexValue a + hexValue b) :: pending) rest
    else decodeAfter (37 :: pending) (a :: b :: rest)
  | c :: rest =>
    if c.toNat < 128 then decodeAfter (.ofNat c.toNat :: pending) rest
    else Utf8.decode pending.reverse ++ c :: decodeAfter [] rest

/-- The text with its percent escapes decoded. -/
def decode (cs : List Char) : List Char := decodeAfter [] cs

end Percent

namespace CssEscape

/-- The character of an escaped code point; zero is replaced. -/
def escapedChar (n : Nat) : Char := if n = 0 then replacementChar else charOfCode n

/-- The number of characters taken by one blank that may follow. -/
def blankAfter (cs : List Char) : Nat := if cs.head?.any isBlank then 1 else 0

/-- The text with its code point escapes decoded. -/
def decodeCodePoints : List Char → List Char
  | [] => []
  | c :: rest =>
    let digits := (rest.take 6).takeWhile isHexDigit
    if c = '\\' ∧ digits ≠ [] then
      escapedChar (hexNat digits) ::
        decodeCodePoints (rest.drop (digits.length + blankAfter (rest.drop digits.length)))
    else c :: decodeCodePoints rest
termination_by cs => cs.length
decreasing_by all_goals simp only [List.length_drop, List.length_cons]; omega

/-- The text with every backslash dropped that precedes a character on its line. -/
def dropBackslashes : List Char → List Char
  | '\\' :: c :: rest =>
    if c = '\n' then '\\' :: dropBackslashes (c :: rest) else c :: dropBackslashes rest
  | c :: rest => c :: dropBackslashes rest
  | [] => []

/-- The text without escapes. -/
def decode (cs : List Char) : List Char := dropBackslashes (decodeCodePoints cs)

end CssEscape

end BracketCss.Text
