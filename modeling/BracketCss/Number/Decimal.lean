import BracketCss.Text.Digit

/-!
# Decimal numbers

Exact decimals: a sign, a coefficient and a power of ten. Comparison is exact at any length, and
printing keeps the trailing zeros of the coefficient.

## Main definitions

* `Decimal.signed d`, `Decimal.scaledTo d e`: the coefficient with its sign, and at the power `e`
* `Decimal.le`, `Decimal.lt`: comparison by value
* `Decimal.timesHundred d`: a hundred times the number, rounded to 28 digits
* `Decimal.toText d`: the printed form
* `Decimal.ofText? s`: reading a plain or an exponent form

## Main results

* `Decimal.le_refl`: every decimal is at most itself
-/

namespace BracketCss

open Text

/-- The quotient rounded to the nearest integer, a half going to the even one. -/
def divHalfEven (n d : Nat) : Nat :=
  let q := n / d
  let twice := 2 * (n % d)
  if twice > d ∨ (twice = d ∧ q % 2 = 1) then q + 1 else q

/-- The decimal digits of a number. -/
def natDigits (n : Nat) : List Char := Nat.toDigits 10 n

/-- An exact decimal: `coefficient` times ten to the `exponent`, negated if `negative`. -/
structure Decimal where
  /-- The sign; a zero may carry one. -/
  negative : Bool
  /-- The digits as a number. -/
  coefficient : Nat
  /-- The power of ten. -/
  exponent : Int
  deriving DecidableEq, Repr

namespace Decimal

/-- A natural number. -/
def ofNat (n : Nat) : Decimal := ⟨false, n, 0⟩

/-- The coefficient with its sign. -/
def signed (d : Decimal) : Int := if d.negative then -(d.coefficient : Int) else d.coefficient

/-- The coefficient with its sign at the power `e`, which is at most the number's own. -/
def scaledTo (d : Decimal) (e : Int) : Int := d.signed * Nat.pow 10 (d.exponent - e).toNat

/-- The number is zero, of either sign. -/
def isZero (d : Decimal) : Bool := d.coefficient == 0

/-- The number is below zero. -/
def isNegative (d : Decimal) : Bool := d.negative && !d.isZero

/-- The first number is at most the second. -/
def le (a b : Decimal) : Bool :=
  let e := min a.exponent b.exponent
  a.scaledTo e ≤ b.scaledTo e

/-- The first number is below the second. -/
def lt (a b : Decimal) : Bool := !le b a

/-- The number with its sign changed. -/
def neg (d : Decimal) : Decimal := { d with negative := !d.negative }

/-- The sum of two numbers. -/
def add (a b : Decimal) : Decimal :=
  let e := min a.exponent b.exponent
  let sum := a.scaledTo e + b.scaledTo e
  ⟨sum < 0, sum.natAbs, e⟩

/-- The number as a fraction. -/
def toRat (d : Decimal) : Rat :=
  mkRat (d.signed * Nat.pow 10 d.exponent.toNat) (Nat.pow 10 (-d.exponent).toNat)

/-- The number rounded to at most `digits` significant digits. -/
def roundTo (digits : Nat) (d : Decimal) : Decimal :=
  let excess := (natDigits d.coefficient).length - digits
  if excess = 0 then d
  else
    let rounded := divHalfEven d.coefficient (Nat.pow 10 excess)
    if rounded = Nat.pow 10 digits then
      ⟨d.negative, Nat.pow 10 (digits - 1), d.exponent + excess + 1⟩
    else ⟨d.negative, rounded, d.exponent + excess⟩

/-- A hundred times the number, rounded to 28 significant digits. -/
def timesHundred (d : Decimal) : Decimal := roundTo 28 { d with coefficient := 100 * d.coefficient }

/-- The printed form: positional while the exponent is not positive and at most five zeros follow
the point, and with an exponent otherwise. -/
def toText (d : Decimal) : String :=
  let digits := natDigits d.coefficient
  let ahead : Int := d.exponent + digits.length
  let positional := d.exponent ≤ 0 ∧ -6 < ahead
  let point : Int := if positional then ahead else 1
  let body :=
    if point ≤ 0 then
      '0' :: '.' :: (List.replicate (-point).toNat '0' ++ digits)
    else if digits.length ≤ point then
      digits ++ List.replicate (point.toNat - digits.length) '0'
    else digits.take point.toNat ++ '.' :: digits.drop point.toNat
  let power := ahead - point
  let tail :=
    if power = 0 then []
    else 'E' :: (if power < 0 then '-' else '+') :: natDigits power.natAbs
  .ofList ((if d.negative then ['-'] else []) ++ body ++ tail)

/-- An optional sign in front of a text: whether it is a minus, and what follows. -/
def splitSign : List Char → Bool × List Char
  | '-' :: rest => (true, rest)
  | '+' :: rest => (false, rest)
  | cs => (false, cs)

/-- An unsigned decimal that a text starts with: digits with an optional fraction, or a fraction
alone. It comes with the text that follows. -/
def ofUnsigned? (cs : List Char) : Option (Decimal × List Char) :=
  let whole := cs.takeWhile isDecimal
  let afterWhole := cs.drop whole.length
  let fraction := match afterWhole with
    | '.' :: rest => rest.takeWhile isDecimal
    | _ => []
  if !fraction.isEmpty then
    some (⟨false, decimalNat (whole ++ fraction), -(fraction.length : Int)⟩,
      afterWhole.drop (1 + fraction.length))
  else if !whole.isEmpty then some (⟨false, decimalNat whole, 0⟩, afterWhole)
  else none

/-- An optional power of ten that ends a text. -/
def exponent? : List Char → Option Int
  | [] => some 0
  | c :: rest =>
    if c = 'e' ∨ c = 'E' then
      let (negative, digits) := splitSign rest
      if digits.isEmpty || !digits.all isDecimal then none
      else
        let n : Int := decimalNat digits
        some (if negative then -n else n)
    else none

/-- Reads a whole text as a decimal, with an optional sign and an optional exponent. -/
def ofText? (s : String) : Option Decimal := do
  let (negative, body) := splitSign s.toList
  let (number, rest) ← ofUnsigned? body
  let power ← exponent? rest
  return { number with negative := negative, exponent := number.exponent + power }

/-- The number lies between the bounds that are set, both included. -/
def isWithin (d : Decimal) (low high : Option Decimal) : Bool :=
  low.all (le · d) && high.all (le d ·)

theorem le_refl (d : Decimal) : le d d := by simp [le]

theorem isNegative_ofNat (n : Nat) : isNegative (ofNat n) = false := rfl

end Decimal

end BracketCss
