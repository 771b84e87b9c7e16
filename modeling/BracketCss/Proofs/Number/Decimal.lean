import BracketCss.Number.Decimal
import Mathlib.Algebra.Order.Field.Power
import Mathlib.Algebra.Order.Ring.Rat
import Mathlib.Tactic.Ring

/-!
# The numbers that decimals stand for

A decimal stands for its coefficient times a power of ten, and decimals are compared as these
numbers, whatever their exponents. Rounding to some digits keeps the number exactly if the
coefficient has no more significant digits, so a hundred times a decimal is exact as long as 28
digits hold the coefficient.

## Main definitions

* `Decimal.FitsIn digits d`: the coefficient has at most so many significant digits

## Main results

* `Decimal.toRat_eq`, `Decimal.toRat_eq_scaledTo`: the number, also on a finer grid
* `Decimal.le_iff_toRat`, `Decimal.isWithin_iff`: comparison is that of the numbers
* `Decimal.toRat_timesHundred_iff`: when a hundred times a decimal is exact
-/

namespace BracketCss.Decimal

variable {d : Decimal}

/-- A power of ten is positive. -/
theorem ten_zpow_pos (e : Int) : (0 : Rat) < 10 ^ e := zpow_pos (by norm_num) e

/-- The number is the signed coefficient times the power of ten. -/
theorem toRat_eq (d : Decimal) : d.toRat = d.signed * 10 ^ d.exponent := by
  have parts : (10 : Rat) ^ d.exponent =
      10 ^ d.exponent.toNat / 10 ^ (-d.exponent).toNat := by
    rw [← zpow_natCast, ← zpow_natCast, ← zpow_sub₀ (by norm_num), Int.toNat_sub_toNat_neg]
  rw [toRat, Rat.mkRat_eq_div, parts, ← mul_div_assoc]
  simp only [Nat.pow_eq]
  push_cast
  rfl

theorem toRat_ofNat (n : Nat) : (ofNat n).toRat = n := by
  rw [toRat_eq, ofNat, zpow_zero, mul_one]
  rfl

/-- On a grid as fine as the own one or finer, the number is the scaled coefficient. -/
theorem toRat_eq_scaledTo {e : Int} (finer : e ≤ d.exponent) :
    d.toRat = d.scaledTo e * 10 ^ e := by
  have grid : (10 : Rat) ^ d.exponent = 10 ^ (d.exponent - e).toNat * 10 ^ e := by
    rw [← zpow_natCast, ← zpow_add₀ (by norm_num), Int.toNat_of_nonneg (by omega), sub_add_cancel]
  rw [toRat_eq, grid, scaledTo, ← mul_assoc]
  simp only [Nat.pow_eq]
  push_cast
  rfl

/-- **Decimals are compared by value**, whatever their exponents. -/
theorem le_iff_toRat (a b : Decimal) : le a b ↔ a.toRat ≤ b.toRat := by
  rw [toRat_eq_scaledTo (min_le_left a.exponent b.exponent),
    toRat_eq_scaledTo (min_le_right a.exponent b.exponent),
    mul_le_mul_iff_left₀ (ten_zpow_pos _), Int.cast_le]
  simp [le]

/-- The bounds that are set hold, both included. -/
theorem isWithin_iff (d : Decimal) (low high : Option Decimal) : d.isWithin low high ↔
    (∀ l ∈ low, l.toRat ≤ d.toRat) ∧ ∀ h ∈ high, d.toRat ≤ h.toRat := by
  simp only [isWithin, Bool.and_eq_true, Option.all_eq_true, le_iff_toRat, Option.mem_def]

theorem isZero_iff : d.isZero ↔ d.toRat = 0 := by
  rw [toRat_eq, mul_eq_zero_iff_right (ten_zpow_pos _).ne', Rat.intCast_eq_zero_iff, isZero,
    beq_iff_eq, signed]
  split <;> omega

theorem isNegative_iff : d.isNegative ↔ d.toRat < 0 := by
  rw [toRat_eq, ← not_le, mul_nonneg_iff_of_pos_right (ten_zpow_pos _), not_le,
    Int.cast_lt_zero, isNegative, isZero,
    signed, Bool.and_eq_true, Bool.not_eq_true', beq_eq_false_iff_ne]
  split
  · next negative => simp [negative, Nat.pos_iff_ne_zero]
  · next positive => simp [positive]

/-! ## Rounding -/

/-- The coefficient has at most so many significant digits; zeros at its end do not count. -/
def FitsIn (digits : Nat) (d : Decimal) : Prop :=
  ∃ m k, d.coefficient = m * 10 ^ k ∧ m < 10 ^ digits

/-- The digits of the coefficient beyond the first `digits`. -/
def excess (digits : Nat) (d : Decimal) : Nat := (natDigits d.coefficient).length - digits

theorem fitsIn_iff_dvd {digits : Nat} (some_ : 0 < digits) :
    d.FitsIn digits ↔ 10 ^ d.excess digits ∣ d.coefficient := by
  have length_le_iff : ∀ {k}, 0 < k → ((natDigits d.coefficient).length ≤ k ↔
      d.coefficient < 10 ^ k) := Nat.length_toDigits_le_iff (by decide)
  constructor
  · rintro ⟨m, k, same, few⟩
    have short : d.excess digits ≤ k := by
      have bound : d.coefficient < 10 ^ (digits + k) := by
        rw [same, pow_add]
        exact Nat.mul_lt_mul_of_pos_right few (Nat.pow_pos (by decide))
      have length := (length_le_iff (by omega)).2 bound
      rw [excess]
      omega
    rw [same]
    exact Dvd.dvd.mul_left (pow_dvd_pow 10 short) m
  · rintro ⟨m, same⟩
    refine ⟨m, d.excess digits, by rw [same, mul_comm], ?_⟩
    have bound : d.coefficient < 10 ^ (digits + d.excess digits) := by
      refine (length_le_iff (by omega)).1 ?_
      rw [excess]
      omega
    rw [same, pow_add, mul_comm (10 ^ digits)] at bound
    exact Nat.lt_of_mul_lt_mul_left bound

/-- A rounded quotient is exact if and only if the division leaves nothing. -/
theorem divHalfEven_mul_eq_iff {n k : Nat} (positive : 0 < k) :
    divHalfEven n k * k = n ↔ k ∣ n := by
  constructor
  · intro exact_
    exact ⟨divHalfEven n k, by rw [mul_comm, exact_]⟩
  · intro divides
    have rest : n % k = 0 := Nat.mod_eq_zero_of_dvd divides
    have down : divHalfEven n k = n / k := by
      simp only [divHalfEven, rest]
      rw [if_neg (by omega)]
    rw [down, Nat.div_mul_cancel divides]

/-- Zeros at the end of the coefficient may be moved to the exponent. -/
theorem toRat_shift (negative : Bool) (m k : Nat) (e : Int) :
    toRat ⟨negative, m * 10 ^ k, e⟩ = toRat ⟨negative, m, e + k⟩ := by
  rw [toRat_eq, toRat_eq, zpow_add₀ (by norm_num), zpow_natCast]
  cases negative <;> simp [signed] <;> ring

/-- With the same sign and exponent, the coefficients tell the numbers apart. -/
theorem toRat_coefficient_inj {negative : Bool} {m n : Nat} {e : Int} :
    toRat ⟨negative, m, e⟩ = toRat ⟨negative, n, e⟩ ↔ m = n := by
  rw [toRat_eq, toRat_eq, mul_left_inj' (ten_zpow_pos e).ne', Rat.intCast_inj]
  cases negative <;> simp [signed]

/-- Rounding drops the digits in excess and keeps the power of ten they stood at. -/
theorem toRat_roundTo {digits : Nat} (some_ : 0 < digits) (d : Decimal) :
    (d.roundTo digits).toRat = toRat ⟨d.negative,
      divHalfEven d.coefficient (10 ^ d.excess digits) * 10 ^ d.excess digits, d.exponent⟩ := by
  rw [roundTo, ← excess]
  simp only [Nat.pow_eq]
  split
  · next fits =>
    have whole := (divHalfEven_mul_eq_iff (n := d.coefficient) (by decide)).2 (one_dvd _)
    rw [fits, pow_zero, whole]
  · split
    -- a coefficient of nines becomes a power of ten, of which one more zero is moved
    · next carried =>
      have zeros : 10 ^ digits * 10 ^ d.excess digits =
          10 ^ (digits - 1) * 10 ^ (d.excess digits + 1) := by
        rw [← pow_add, ← pow_add]
        congr 1
        omega
      rw [carried, zeros, toRat_shift]
      push_cast
      rw [add_assoc]
    · rw [toRat_shift]

/-- **Rounding is exact if and only if the digits hold the coefficient.** -/
theorem toRat_roundTo_eq_iff {digits : Nat} (some_ : 0 < digits) :
    (d.roundTo digits).toRat = d.toRat ↔ d.FitsIn digits := by
  rw [toRat_roundTo some_, toRat_coefficient_inj, divHalfEven_mul_eq_iff (Nat.pow_pos (by decide)),
    fitsIn_iff_dvd some_]

/-- Two zeros more do not make a coefficient longer. -/
theorem fitsIn_hundredfold {digits : Nat} :
    FitsIn digits { d with coefficient := 100 * d.coefficient } ↔ d.FitsIn digits := by
  constructor
  · rintro ⟨m, k, same, few⟩
    dsimp only at same
    obtain small | ⟨k, rfl⟩ : k < 2 ∨ ∃ j, k = j + 2 := by
      rcases Nat.lt_or_ge k 2 with small | large
      · exact .inl small
      · exact .inr ⟨k - 2, by omega⟩
    · refine ⟨d.coefficient, 0, by simp, ?_⟩
      obtain rfl | rfl : k = 0 ∨ k = 1 := by omega
      all_goals omega
    · refine ⟨m, k, ?_, few⟩
      rw [pow_add, ← mul_assoc] at same
      omega
  · rintro ⟨m, k, same, few⟩
    refine ⟨m, k + 2, ?_, few⟩
    dsimp only
    rw [same, pow_add]
    ring

theorem toRat_hundredfold (d : Decimal) :
    toRat { d with coefficient := 100 * d.coefficient } = 100 * d.toRat := by
  rw [toRat_eq, toRat_eq, ← mul_assoc]
  congr 1
  simp only [signed]
  split <;> push_cast <;> ring

/-- **A hundred times a decimal is exact if and only if it has at most 28 significant digits.** -/
theorem toRat_timesHundred_iff : d.timesHundred.toRat = 100 * d.toRat ↔ d.FitsIn 28 := by
  rw [timesHundred, ← toRat_hundredfold, toRat_roundTo_eq_iff (by decide), fitsIn_hundredfold]

end BracketCss.Decimal
