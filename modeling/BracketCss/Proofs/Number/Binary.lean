import BracketCss.Number.Binary
import BracketCss.Proofs.Number.Decimal

/-!
# Rounding keeps bounds

Rounding to double precision takes no number over a whole number that is itself of double
precision. So a share of a count, where the share is at most one, is at most the count as long as
the count has no more than 53 binary digits.

## Main results

* `divHalfEven_le`: rounding to the nearest integer keeps an integer bound
* `Binary.nearest_le`: rounding to double precision keeps a bound of at most 53 binary digits
* `truncatedProduct_le`: a share of a count is at most the count
-/

namespace BracketCss

theorem divHalfEven_le {n d k : Nat} (positive : 0 < d) (h : n ≤ k * d) : divHalfEven n d ≤ k := by
  have whole := Nat.div_add_mod n d
  have below : n / d ≤ k := Nat.div_le_of_le_mul (by rwa [Nat.mul_comm])
  unfold divHalfEven
  dsimp only
  split
  · next up =>
    have rest : 0 < n % d := by omega
    have less : n / d ≠ k := by
      rintro rfl
      rw [Nat.mul_comm] at h
      omega
    omega
  · exact below

namespace Binary

variable {n d m : Nat}

theorem denominator_pos (b : Binary) : 0 < b.denominator := Nat.pow_pos (by decide)

/-- A number is at most a bound if its mantissa is at the power of two. -/
theorem numerator_le_iff_of_nonpos {k e : Nat} :
    (Binary.mk k (-e)).numerator ≤ m * (Binary.mk k (-e)).denominator ↔ k ≤ m * 2 ^ e := by
  simp [numerator, denominator]

/-- The first guess at the exponent of a quotient is at most zero if the quotient is at most two to
the 53. -/
theorem guess_nonpos (nonzero : n ≠ 0) (bounded : n ≤ 2 ^ 53 * d) :
    (Nat.log2 n : Int) - Nat.log2 d - 53 ≤ 0 := by
  have lower : 2 ^ Nat.log2 n ≤ n := Nat.log2_self_le nonzero
  have upper : d < 2 ^ (Nat.log2 d + 1) := Nat.lt_log2_self
  by_contra large
  have power : 2 ^ 53 * 2 ^ (Nat.log2 d + 1) ≤ 2 ^ Nat.log2 n := by
    rw [← Nat.pow_add]
    exact Nat.pow_le_pow_right (by decide) (by omega)
  have above := Nat.mul_lt_mul_of_pos_left upper (show 0 < 2 ^ 53 by decide)
  omega

/-- A quotient of at most two to the 53 is rounded to a fraction of a power of two, and only the
greatest one is rounded to an even number. -/
theorem nearest_cases (nonzero : n ≠ 0) (positive : d ≠ 0) (bounded : n ≤ 2 ^ 53 * d) :
    (∃ k : Nat, nearest n d = ⟨divHalfEven (n * 2 ^ k) d, -(k : Int)⟩) ∨
      n = 2 ^ 53 * d ∧ nearest n d = ⟨divHalfEven n (d * 2), 1⟩ := by
  have nonpos := guess_nonpos nonzero bounded
  have unequal : ¬ (n = 0 ∨ d = 0) := not_or.2 ⟨nonzero, positive⟩
  have fraction : ∀ e : Int, e ≤ 0 →
      (⟨divHalfEven (n * Nat.pow 2 (-e).toNat) (d * Nat.pow 2 e.toNat), e⟩ : Binary) =
        ⟨divHalfEven (n * 2 ^ (-e).toNat) d, -((-e).toNat : Int)⟩ := by
    intro e he
    rw [Int.toNat_of_nonpos he, Int.toNat_of_nonneg (by omega), Int.neg_neg]
    simp
  rw [nearest, if_neg unequal]
  dsimp only
  generalize (Nat.log2 n : Int) - Nat.log2 d - 53 = guess at nonpos
  rcases Int.lt_or_eq_of_le nonpos with below | rfl
  · refine .inl ⟨_, fraction _ ?_⟩
    split <;> omega
  · have unscaled : n * Nat.pow 2 (-0 : Int).toNat / (d * Nat.pow 2 (0 : Int).toNat) = n / d := by
      simp
    rw [unscaled]
    by_cases top : Nat.pow 2 53 ≤ n / d
    · rw [if_pos top]
      refine .inr ⟨Nat.le_antisymm bounded ?_, by simp⟩
      exact (Nat.le_div_iff_mul_le (Nat.pos_of_ne_zero positive)).1 top
    · rw [if_neg top]
      exact .inl ⟨_, fraction _ (by decide)⟩

/-- **Rounding to double precision keeps a bound** of at most 53 binary digits. -/
theorem nearest_le (positive : d ≠ 0) (small : m ≤ 2 ^ 53) (h : n ≤ m * d) :
    (nearest n d).numerator ≤ m * (nearest n d).denominator := by
  by_cases nonzero : n = 0
  · simp [nearest, nonzero, numerator]
  have bounded : n ≤ 2 ^ 53 * d := h.trans (Nat.mul_le_mul_right d small)
  rcases nearest_cases nonzero positive bounded with ⟨k, rounded⟩ | ⟨top, rounded⟩ <;> rw [rounded]
  · rw [numerator_le_iff_of_nonpos]
    refine divHalfEven_le (Nat.pos_of_ne_zero positive) ?_
    rw [Nat.mul_right_comm]
    exact Nat.mul_le_mul_right _ h
  · have least : 2 ^ 53 ≤ m := by
      rw [top] at h
      exact Nat.le_of_mul_le_mul_right h (Nat.pos_of_ne_zero positive)
    have half : divHalfEven n (d * 2) ≤ 2 ^ 52 := by
      refine divHalfEven_le (by omega) ?_
      rw [top]
      omega
    have doubled : (Binary.mk (divHalfEven n (d * 2)) 1).numerator ≤ 2 ^ 53 := by
      show divHalfEven n (d * 2) * 2 ≤ 2 ^ 53
      omega
    simpa [denominator] using doubled.trans least

/-- A decimal of at most one is rounded to at most one. -/
theorem ofDecimal_le_one {share : Decimal} (positive : 0 < share.toRat) (small : share.toRat ≤ 1) :
    (ofDecimal share).numerator ≤ (ofDecimal share).denominator := by
  have bound : share.coefficient * Nat.pow 10 share.exponent.toNat ≤
      1 * Nat.pow 10 (-share.exponent).toNat := by
    have divisor : (0 : Rat) < Nat.pow 10 (-share.exponent).toNat := by
      exact_mod_cast Nat.pow_pos (by decide)
    have sign : share.signed = share.coefficient := by
      have above : ¬ share.isNegative := fun below =>
        (Decimal.isNegative_iff.1 below).not_gt positive
      simp only [Decimal.isNegative, Decimal.isZero, Bool.and_eq_true, Bool.not_eq_true',
        beq_eq_false_iff_ne, not_and, not_not] at above
      rw [Decimal.signed]
      split
      · next negative => rw [above negative]; rfl
      · rfl
    rw [Decimal.toRat, sign, Rat.mkRat_eq_div, div_le_one₀ (by exact_mod_cast divisor)] at small
    rw [Nat.one_mul]
    exact_mod_cast small
  have rounded := nearest_le (Nat.pow_pos (by decide)).ne' (by decide) bound
  rwa [Nat.one_mul] at rounded

end Binary

/-- **A share of a count is at most the count**, as long as the count has no more than 53 binary
digits. -/
theorem truncatedProduct_le {n : Nat} {share : Decimal} (positive : 0 < share.toRat)
    (small : share.toRat ≤ 1) (bounded : n ≤ 2 ^ 53) : truncatedProduct n share ≤ n := by
  have product := Binary.nearest_le (Binary.ofDecimal share).denominator_pos.ne' bounded
    (Nat.mul_le_mul_left n (Binary.ofDecimal_le_one positive small))
  rw [Nat.mul_comm n (Binary.denominator _)] at product
  exact Nat.div_le_of_le_mul product

end BracketCss
