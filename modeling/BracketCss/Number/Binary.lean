import BracketCss.Number.Decimal

/-!
# Binary numbers of double precision

Rounding of a quotient to 53 binary digits, and the fewest decimal digits that read back as the
same number. Quotients of counts, such as hit rates, are such numbers, and they are rounded to a
fixed number of places, a half going to the even digit.

## Main definitions

* `Binary.nearest n d`: the double nearest to `n / d`, a half going to the even mantissa
* `truncatedProduct n f`: the whole part of the double product of a count and a fraction
* `Binary.shortest b`: the shortest decimal that is nearest to `b`
* `realText d`: how a number with a fraction is written
* `Ratio.value r`, `Ratio.rounded places r`: the quotient of two counts, and the same with a number
  of places
* `Decimal.fixed places d`: the digits of a decimal with a number of places
-/

namespace BracketCss

/-- A binary number: `mantissa` times two to the `exponent`. -/
structure Binary where
  /-- The binary digits as a number. -/
  mantissa : Nat
  /-- The power of two. -/
  exponent : Int
  deriving DecidableEq, Repr

namespace Binary

/-- The number as a quotient of natural numbers. -/
def numerator (b : Binary) : Nat := b.mantissa * Nat.pow 2 b.exponent.toNat

/-- The denominator that belongs to `numerator`. -/
def denominator (b : Binary) : Nat := Nat.pow 2 (-b.exponent).toNat

/-- The number of double precision nearest to a quotient: 53 binary digits, fewer only below the
least power of two, and a half going to the even mantissa. -/
def nearest (n d : Nat) : Binary :=
  if n = 0 ∨ d = 0 then ⟨0, 0⟩
  else
    let guess : Int := (Nat.log2 n : Int) - Nat.log2 d - 53
    let scaled (e : Int) : Nat × Nat := (n * Nat.pow 2 (-e).toNat, d * Nat.pow 2 e.toNat)
    let (high, low) := scaled guess
    let e := max (if Nat.pow 2 53 ≤ high / low then guess + 1 else guess) (-1074)
    let (above, below) := scaled e
    ⟨divHalfEven above below, e⟩

/-- The number of double precision nearest to the size of a decimal. -/
def ofDecimal (d : Decimal) : Binary :=
  nearest (d.coefficient * Nat.pow 10 d.exponent.toNat) (Nat.pow 10 (-d.exponent).toNat)

/-- The two numbers have the same value. -/
def same (a b : Binary) : Bool :=
  a.numerator * b.denominator == b.numerator * a.denominator

/-- The power of ten of the first decimal digit of a positive number. -/
def decimalPower (b : Binary) : Int :=
  let n := b.numerator
  let d := b.denominator
  if d ≤ n then (natDigits (n / d)).length - 1
  else -((natDigits ((d + n - 1) / n - 1)).length : Int)

/-- The decimals with `digits` digits on either side of a positive number, the nearer first, and of
two equally near the one with the even last digit. -/
def neighbours (b : Binary) (digits : Nat) : List Decimal :=
  let unit : Int := b.decimalPower - digits + 1
  let n := b.numerator * Nat.pow 10 (-unit).toNat
  let d := b.denominator * Nat.pow 10 unit.toNat
  let below : Decimal := ⟨false, n / d, unit⟩
  let above : Decimal := ⟨false, n / d + 1, unit⟩
  if divHalfEven n d = n / d then [below, above] else [above, below]

/-- The shortest decimal that is nearest to a positive number. -/
def shortest (b : Binary) : Decimal :=
  ((List.range 17).findSome? fun k =>
    (b.neighbours (k + 1)).find? fun d => same (ofDecimal d) b).getD (Decimal.ofNat 0)

end Binary

/-- The whole part of the double product of a count and a positive fraction. -/
def truncatedProduct (n : Nat) (fraction : Decimal) : Nat :=
  let f := Binary.ofDecimal fraction
  let product := Binary.nearest (n * f.numerator) f.denominator
  product.numerator / product.denominator

/-- The digits of a number without its trailing zeros. -/
def significantDigits (n : Nat) : List Char :=
  ((natDigits n).reverse.dropWhile (· == '0')).reverse

/-- How a positive decimal is written: positional from 0.0001 up to sixteen digits before the
point, with at least one digit after it, and with an exponent of two or more digits otherwise. -/
def positiveRealText (d : Decimal) : List Char :=
  let digits := significantDigits d.coefficient
  let power : Int := d.exponent + (natDigits d.coefficient).length - 1
  if -4 ≤ power ∧ power < 16 then
    let point := power + 1
    if point ≤ 0 then '0' :: '.' :: (List.replicate (-point).toNat '0' ++ digits)
    else if digits.length ≤ point then
      digits ++ List.replicate (point.toNat - digits.length) '0' ++ ['.', '0']
    else digits.take point.toNat ++ '.' :: digits.drop point.toNat
  else
    let fraction := digits.drop 1
    let exponent := natDigits power.natAbs
    digits.take 1 ++ (if fraction.isEmpty then [] else '.' :: fraction) ++
      'e' :: (if power < 0 then '-' else '+') ::
        (List.replicate (2 - exponent.length) '0' ++ exponent)

/-- How a number with a fraction is written: as the shortest decimal that reads back as the same
number of double precision. -/
def realText (d : Decimal) : String :=
  let power : Int := d.exponent + (natDigits d.coefficient).length
  let body :=
    if d.coefficient = 0 ∨ power < -400 then "0.0".toList
    else if 400 < power then "inf".toList
    else
      let b := Binary.ofDecimal d
      if Nat.pow 2 1024 * b.denominator ≤ b.numerator then "inf".toList
      else if b.mantissa = 0 then "0.0".toList
      else positiveRealText b.shortest
  .ofList ((if d.negative then ['-'] else []) ++ body)

/-! ## Ratios -/

/-- A binary number as a decimal. -/
def Binary.toDecimal (b : Binary) : Decimal :=
  if 0 ≤ b.exponent then ⟨false, b.mantissa * Nat.pow 2 b.exponent.toNat, 0⟩
  else ⟨false, b.mantissa * Nat.pow 5 (-b.exponent).toNat, b.exponent⟩

/-- A quotient of two counts; a quotient by zero counts as zero. -/
structure Ratio where
  /-- The count above the line. -/
  part : Nat
  /-- The count below the line. -/
  whole : Nat
  deriving DecidableEq, Repr

namespace Ratio

/-- The number of double precision nearest to the quotient. -/
def binary (r : Ratio) : Binary := .nearest r.part r.whole

/-- The quotient in double precision. -/
def value (r : Ratio) : Decimal := r.binary.toDecimal

/-- The quotient rounded to `places` decimal places. -/
def rounded (places : Nat) (r : Ratio) : Decimal :=
  let scaled := r.binary.numerator * Nat.pow 10 places
  ⟨false, divHalfEven scaled r.binary.denominator, -(places : Int)⟩

end Ratio

namespace Decimal

/-- The decimal with exactly `places` digits after the point, a half going to the even digit. -/
def fixed (places : Nat) (d : Decimal) : String :=
  let scaled :=
    if 0 ≤ d.exponent + places then d.coefficient * Nat.pow 10 (d.exponent + places).toNat
    else divHalfEven d.coefficient (Nat.pow 10 (-(d.exponent + places)).toNat)
  let digits := natDigits scaled
  let padded := List.replicate (places + 1 - digits.length) '0' ++ digits
  let point := padded.length - places
  .ofList ((if d.negative then ['-'] else []) ++ padded.take point ++
    (if places = 0 then [] else '.' :: padded.drop point))

end Decimal

end BracketCss
