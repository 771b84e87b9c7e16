import BracketCss.Text.Blank

/-!
# Cleaning input

Input is cleaned before it is read: control characters go, runs of blanks become one space, and
blanks at the ends go. Text that is too long, or that loses more than half of its characters, is
refused.

## Main definitions

* `Clean.tidy cs`: the text without control characters and with single spaces
* `Clean.clean? limit s`: the cleaned text, unless it is refused
* `Clean.isUnclean s`: cleaning would change the text

## Main results

* `length_collapse_le`: collapsing never lengthens a text
-/

namespace BracketCss.Clean

open Text

/-- An ASCII control character other than the tab and the line breaks. -/
def isControl (c : Char) : Bool :=
  let n := c.toNat
  n ≤ 8 || n == 11 || n == 12 || (14 ≤ n && n ≤ 31) || n == 127

/-- The text with every run of blanks replaced by one space. -/
def collapse : List Char → List Char
  | [] => []
  | c :: cs =>
    if isBlank c then
      if cs.head?.any isBlank then collapse cs else ' ' :: collapse cs
    else c :: collapse cs

/-- The text without control characters and with single spaces. -/
def tidy (cs : List Char) : List Char := collapse (cs.filter fun c => !isControl c)

/-- A text up to this length may lose any number of characters. -/
def shrinkFreeLength : Nat := 10

/-- The text loses more than half of its characters when tidied. -/
def isShrunk (cs : List Char) : Bool :=
  shrinkFreeLength < cs.length && 2 * (tidy cs).length < cs.length

/-- The greatest length of a class name. -/
def classLimit : Int := 500

/-- The greatest length of a value. -/
def valueLimit : Int := 200

/-- The cleaned text; none if it is too long or loses too much. -/
def clean? (limit : Int) (s : String) : Option String :=
  let cs := s.toList
  if limit < cs.length then none
  else if isShrunk cs then none
  else some (.ofList (trim (tidy cs)))

/-- Cleaning would change the text. -/
def isUnclean (s : String) : Bool := s.toList != trim (tidy s.toList)

theorem length_collapse_le (cs : List Char) : (collapse cs).length ≤ cs.length := by
  fun_induction collapse <;> simp only [List.length_cons, List.length_nil] <;> omega

end BracketCss.Clean
