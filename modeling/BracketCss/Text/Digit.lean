/-!
# Digits

Decimal digits of every script, with their values, and the other characters that stand for a
digit (superscripts, circled digits). A script's ten decimal digits are consecutive code points,
so a digit is its script's zero plus its value.

## Main definitions

* `decimalValue? c`: the value of a decimal digit
* `isDecimal c`, `isDigit c`: the two classes
* `readNat ds`: the number that a list of digit values writes

## Main results

* `decimalValue?_ascii`: an ASCII digit has its own value
-/

namespace BracketCss.Text

/-- The zeros from U+0080 up: the first of each script's ten consecutive decimal digits. -/
def scriptZeros : List Nat :=
  [0x0660, 0x06F0, 0x07C0, 0x0966, 0x09E6, 0x0A66, 0x0AE6, 0x0B66, 0x0BE6, 0x0C66, 0x0CE6, 0x0D66,
    0x0DE6, 0x0E50, 0x0ED0, 0x0F20, 0x1040, 0x1090, 0x17E0, 0x1810, 0x1946, 0x19D0, 0x1A80, 0x1A90,
    0x1B50, 0x1BB0, 0x1C40, 0x1C50, 0xA620, 0xA8D0, 0xA900, 0xA9D0, 0xA9F0, 0xAA50, 0xABF0, 0xFF10,
    0x104A0, 0x10D30, 0x11066, 0x110F0, 0x11136, 0x111D0, 0x112F0, 0x11450, 0x114D0, 0x11650,
    0x116C0, 0x11730, 0x118E0, 0x11950, 0x11C50, 0x11D50, 0x11DA0, 0x16A60, 0x16AC0, 0x16B50,
    0x1D7CE, 0x1D7D8, 0x1D7E2, 0x1D7EC, 0x1D7F6, 0x1E140, 0x1E2F0, 0x1E950, 0x1FBF0]

/-- The value of a decimal digit of any script. -/
def decimalValue? (c : Char) : Option Nat :=
  let n := c.toNat
  if n < 128 then
    if 48 ≤ n ∧ n ≤ 57 then some (n - 48) else none
  else
    (scriptZeros.find? fun first => first ≤ n && n ≤ first + 9).map (n - ·)

/-- A decimal digit of any script. -/
def isDecimal (c : Char) : Bool := (decimalValue? c).isSome

/-- Characters that stand for a digit without being decimal digits: superscripts, subscripts and
enclosed digits. -/
def specialDigitRanges : List (Nat × Nat) :=
  [(0x00B2, 0x00B3), (0x00B9, 0x00B9), (0x1369, 0x1371), (0x19DA, 0x19DA), (0x2070, 0x2070),
    (0x2074, 0x2079), (0x2080, 0x2089), (0x2460, 0x2468), (0x2474, 0x247C), (0x2488, 0x2490),
    (0x24EA, 0x24EA), (0x24F5, 0x24FD), (0x24FF, 0x24FF), (0x2776, 0x277E), (0x2780, 0x2788),
    (0x278A, 0x2792), (0x10A40, 0x10A43), (0x10E60, 0x10E68), (0x11052, 0x1105A),
    (0x1F100, 0x1F10A)]

/-- A decimal digit, or a superscript, subscript or enclosed digit. -/
def isDigit (c : Char) : Bool :=
  isDecimal c || specialDigitRanges.any fun r => r.1 ≤ c.toNat && c.toNat ≤ r.2

/-- An ASCII digit. -/
def isAsciiDigit (c : Char) : Bool := '0' ≤ c && c ≤ '9'

/-- The number written by digit values, most significant first. -/
def readNat (values : List Nat) : Nat :=
  values.foldl (fun total value => 10 * total + value) 0

/-- The number written by a run of decimal digits; any other character counts as zero. -/
def decimalNat (digits : List Char) : Nat :=
  readNat (digits.map fun c => (decimalValue? c).getD 0)

theorem decimalValue?_ascii {c : Char} (low : '0' ≤ c) (high : c ≤ '9') :
    decimalValue? c = some (c.toNat - 48) := by
  have low' : 48 ≤ c.toNat := low
  have high' : c.toNat ≤ 57 := high
  simp [decimalValue?, low', high', show c.toNat < 128 by omega]

end BracketCss.Text
