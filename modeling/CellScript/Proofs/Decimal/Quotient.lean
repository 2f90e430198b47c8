import CellScript.Proofs.Library
import CellScript.Value.Arithmetic

/-!
# Quotients of decimals

The quotient of two decimals is the exact quotient of their numbers, rounded to at least 20 fraction
digits, or to as many as the dividend has. A half goes away from zero, for either sign of either
operand. Trailing zeros are dropped as long as the dividend has fewer fraction digits.

* `RoundsAway` — what rounding means, on rational numbers
* `Decimal.roundedQuotient_bounds` — the truncated quotient of integers is corrected as it should be
* `Decimal.quotientAt_rounds` — the same for decimals, whichever side takes the power of ten
* `Value.div_decimals` — the quotient of two decimals
-/

namespace CellScript

/-- The number `y` is the multiple of `step` nearest to `x`; of two equally near ones it is the one
further from zero. -/
structure RoundsAway (step x y : ℚ) : Prop where
  multiple : ∃ n : ℤ, y = n * step
  near : |y - x| ≤ step / 2
  tie : |y - x| = step / 2 → |x| < |y|

/-- Rounding to another step. -/
theorem RoundsAway.scale {x y step : ℚ} (h : RoundsAway 1 x y) (positive : 0 < step) :
    RoundsAway step (x * step) (y * step) := by
  have distance : |y * step - x * step| = |y - x| * step := by
    rw [← sub_mul, abs_mul, abs_of_pos positive]
  refine ⟨?_, ?_, fun half => ?_⟩
  · obtain ⟨n, rfl⟩ := h.multiple
    exact ⟨n, by rw [mul_one]⟩
  · rw [distance]
    calc |y - x| * step ≤ 1 / 2 * step := mul_le_mul_of_nonneg_right h.near positive.le
      _ = step / 2 := by ring
  · rw [distance] at half
    rw [abs_mul, abs_mul, abs_of_pos positive]
    refine mul_lt_mul_of_pos_right (h.tie (mul_right_cancel₀ positive.ne' ?_)) positive
    rw [half]
    ring

namespace Decimal

/-! ## Integers -/

/-- The rounded quotient differs from the exact one by at most a half, and lies beyond it in case of
a half. Everything is multiplied by the divisor. -/
theorem roundedQuotient_bounds (num : Int) {den : Int} (h : den ≠ 0) :
    2 * (roundedQuotient num den * den - num).natAbs ≤ den.natAbs ∧
      (2 * (roundedQuotient num den * den - num).natAbs = den.natAbs →
        num.natAbs < (roundedQuotient num den * den).natAbs) := by
  have exact_ : num.tdiv den * den + num.tmod den = num := by
    rw [Int.mul_comm]
    exact Int.mul_tdiv_add_tmod num den
  have small : (num.tmod den).natAbs < den.natAbs := by
    rw [Int.natAbs_tmod]
    exact Nat.mod_lt _ (Int.natAbs_pos.2 h)
  -- the remainder has the sign of the dividend
  have above : 0 ≤ num → 0 ≤ num.tmod den := Int.tmod_nonneg den
  have below : num ≤ 0 → num.tmod den ≤ 0 := fun le => by
    have := Int.tmod_nonneg den (Int.neg_nonneg.2 le)
    rw [Int.neg_tmod] at this
    omega
  simp only [roundedQuotient]
  split
  · omega
  · split
    · next signs =>
      have signs : num < 0 ↔ den < 0 := by simpa using signs
      rw [Int.add_mul]
      omega
    · next signs =>
      have signs : ¬ (num < 0 ↔ den < 0) := by simpa using signs
      rw [Int.sub_mul]
      omega

/-- The rounded quotient of two integers is their quotient, rounded. -/
theorem roundedQuotient_rounds (num : Int) {den : Int} (h : den ≠ 0) :
    RoundsAway 1 (num / den) (roundedQuotient num den) := by
  obtain ⟨near, tie⟩ := roundedQuotient_bounds num h
  have size : (0 : ℚ) < |(den : ℚ)| := abs_pos.2 (Int.cast_ne_zero.2 h)
  have cast_abs : ∀ n : Int, |(n : ℚ)| = n.natAbs := fun n => by
    rw [Nat.cast_natAbs, Int.cast_abs]
  have distance : |(roundedQuotient num den : ℚ) - num / den| * |(den : ℚ)| =
      (roundedQuotient num den * den - num).natAbs := by
    rw [← abs_mul, sub_mul, div_mul_cancel₀ _ (Int.cast_ne_zero.2 h), ← cast_abs]
    push_cast
    rfl
  refine ⟨⟨_, (mul_one _).symm⟩, ?_, fun half => ?_⟩
  · refine le_of_mul_le_mul_right ?_ size
    rw [distance, cast_abs]
    have : (2 : ℚ) * (roundedQuotient num den * den - num).natAbs ≤ den.natAbs := by
      exact_mod_cast near
    linarith
  · have beyond : num.natAbs < (roundedQuotient num den * den).natAbs := by
      refine tie ?_
      rw [half, cast_abs] at distance
      have : (2 : ℚ) * (roundedQuotient num den * den - num).natAbs = den.natAbs := by
        rw [← distance]
        ring
      exact_mod_cast this
    rw [abs_div, div_lt_iff₀ size, ← abs_mul, ← Int.cast_mul, cast_abs, cast_abs]
    exact_mod_cast beyond

/-! ## Decimals at a scale -/

variable {a b d : Decimal} {scale least : Int}

/-- Within 32 bits the power of ten is the one that is meant. -/
theorem shiftFactor_eq {shift : Int} (fits : shift.natAbs < 2 ^ 32) :
    (shiftFactor shift : ℚ) = 10 ^ (shift.natAbs : Int) := by
  rw [shiftFactor, Nat.mod_eq_of_lt (show shift.natAbs < Nat.pow 2 32 from fits), zpow_natCast]
  exact_mod_cast rfl

theorem wrapScale_of_small {shift : Int} (fits : shift.natAbs < 2 ^ 32) :
    wrapScale shift = shift := by
  refine wrapScale_of_scaleFits (scaleFits_iff.2 ?_)
  have : Int.pow 2 63 = 9223372036854775808 := rfl
  omega

/-- **The quotient at a scale is the exact quotient, rounded to that many fraction digits.** -/
theorem quotientAt_rounds (hb : b.unscaled ≠ 0)
    (fits : (scale - a.scale + b.scale).natAbs < 2 ^ 32) :
    RoundsAway (10 ^ (-scale)) (a.toRat / b.toRat) (a.quotientAt b scale).toRat := by
  set shift := scale - a.scale + b.scale with hshift
  have factor := shiftFactor_eq fits
  have factor_ne : shiftFactor shift ≠ 0 := by
    rw [← Int.cast_ne_zero (α := ℚ), factor]
    exact (ten_zpow_pos _).ne'
  -- the point of the exact quotient stands `shift` places further left than at the wanted scale
  have moved : a.toRat / b.toRat = a.unscaled / b.unscaled * 10 ^ shift * 10 ^ (-scale) := by
    rw [toRat, toRat, mul_div_mul_comm, mul_assoc, ← zpow_sub₀ (by norm_num), ← ten_zpow_add]
    congr 2
    omega
  rw [moved, quotientAt, ← hshift, wrapScale_of_small fits]
  split
  · next nonneg =>
    have numerator : (a.unscaled : ℚ) / b.unscaled * 10 ^ shift =
        (a.unscaled * shiftFactor shift : Int) / b.unscaled := by
      rw [Int.cast_mul, factor, Int.natAbs_of_nonneg nonneg, mul_div_right_comm]
    rw [numerator]
    exact (roundedQuotient_rounds _ hb).scale (ten_zpow_pos (-scale))
  · next negative =>
    have denominator : (a.unscaled : ℚ) / b.unscaled * 10 ^ shift =
        a.unscaled / (b.unscaled * shiftFactor shift : Int) := by
      have opposite : (shift.natAbs : Int) = -shift := by omega
      rw [Int.cast_mul, factor, opposite, zpow_neg, div_mul_eq_div_div, div_inv_eq_mul]
    rw [denominator]
    exact (roundedQuotient_rounds _ (mul_ne_zero hb factor_ne)).scale (ten_zpow_pos (-scale))

/-! ## Quotients -/

section Quotient

variable [Library] [LawfulForms]

theorem least_le_scale_quotient : least ≤ (a.quotient b scale least).scale := by
  unfold quotient
  simp only
  split
  · rw [LawfulForms.scale_withScale]
  · omega

theorem toRat_quotient : (a.quotient b scale least).toRat = (a.quotientAt b scale).toRat := by
  unfold quotient
  simp only
  split
  · next less => rw [LawfulForms.toRat_withScale _ _ less.le, LawfulForms.toRat_normalized]
  · exact LawfulForms.toRat_normalized _

/-- No form of a quotient other than zero that has enough fraction digits has fewer. -/
theorem quotient_shortest (nonzero : (a.quotient b scale least).unscaled ≠ 0)
    (same : d.toRat = (a.quotient b scale least).toRat) (enough : least ≤ d.scale) :
    (a.quotient b scale least).scale ≤ d.scale := by
  have nonzero' : (a.quotientAt b scale).unscaled ≠ 0 := by
    have number : (a.quotient b scale least).toRat = (a.quotientAt b scale).toRat := toRat_quotient
    rwa [Ne, ← toRat_eq_zero_iff, ← number, toRat_eq_zero_iff]
  rw [toRat_quotient] at same
  have shortest := LawfulForms.normalized_shortest _ _ nonzero' same
  unfold quotient
  simp only
  split
  · rwa [LawfulForms.scale_withScale]
  · exact shortest

end Quotient

end Decimal

namespace Value

/-- **The quotient of two decimals is the exact one, rounded** to 20 fraction digits or to as many
as the dividend has; it has no fewer fraction digits than the dividend, and beyond those no trailing
zeros. -/
theorem div_decimals (l r : Decimal) (nonzero : r.unscaled ≠ 0)
    (fits : (max divisionScale l.scale - l.scale + r.scale).natAbs < 2 ^ 32) :
    ∃ q : Decimal, div (decimal l) (decimal r) = .ok (decimal q) ∧
      RoundsAway (10 ^ (-max divisionScale l.scale)) (l.toRat / r.toRat) q.toRat ∧
      l.scale ≤ q.scale ∧
      (q.unscaled ≠ 0 → ∀ d : Decimal, d.toRat = q.toRat → l.scale ≤ d.scale →
        q.scale ≤ d.scale) := by
  have quotient : div (decimal l) (decimal r) =
      .ok (decimal (l.quotient r (max divisionScale l.scale) l.scale)) := by
    have divisor : r.isZero = false := by simpa [Decimal.isZero] using nonzero
    simp [div, operands, exactDecimal?, isNil, isNumeric, divisor, quotientScales]
  refine ⟨_, quotient, ?_, Decimal.least_le_scale_quotient, fun hq d =>
    Decimal.quotient_shortest hq⟩
  rw [Decimal.toRat_quotient]
  exact Decimal.quotientAt_rounds nonzero fits

/-- A negative half: the power of ten goes to the divisor, and the quotient away from zero. -/
theorem div_decimals_half :
    ((1 : Int) ≠ 0 ∧ (max divisionScale 25 - 25 + -1).natAbs < 2 ^ 32) ∧
      ∃ q : Decimal, div (decimal ⟨-5, 25⟩) (decimal ⟨1, -1⟩) = .ok (decimal q) ∧
        RoundsAway (10 ^ (-max divisionScale 25)) (Decimal.toRat ⟨-5, 25⟩ / Decimal.toRat ⟨1, -1⟩)
          q.toRat ∧
        25 ≤ q.scale ∧
        (q.unscaled ≠ 0 → ∀ d : Decimal, d.toRat = q.toRat → 25 ≤ d.scale → q.scale ≤ d.scale) :=
  ⟨⟨by decide, by decide⟩, div_decimals ⟨-5, 25⟩ ⟨1, -1⟩ (by decide) (by decide)⟩

example : div (decimal ⟨-5, 25⟩) (decimal ⟨1, -1⟩) = .ok (decimal ⟨-1, 25⟩) := rfl

end Value

end CellScript
