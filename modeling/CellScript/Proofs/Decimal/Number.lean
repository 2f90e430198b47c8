import CellScript.Decimal.Basic
import Mathlib.Algebra.Order.Field.Power
import Mathlib.Data.Rat.Cast.Order
import Mathlib.Tactic.Linarith
import Mathlib.Tactic.Positivity
import Mathlib.Tactic.Ring

/-!
# The number that a decimal stands for

A decimal is read as a rational number. Moving to a scale with more fraction digits changes nothing
about the number, and the order of decimals, which looks at signs and sizes first, is the order of
the numbers.

* `Decimal.toRat` — the number
* `Decimal.unscaledAt_eq`, `Decimal.toRat_withScale` — more fraction digits
* `Decimal.toRat_add`, `Decimal.toRat_sub`, `Decimal.toRat_mul` — the operations
* `Decimal.magnitude_bounds` — what the order of magnitude says about the number
* `Decimal.cmp_eq` — the order
* `Decimal.normalized_shortest` — no form of a number has fewer fraction digits than the normalized
  one
-/

namespace CellScript.Decimal

/-- The number `unscaled · 10 ^ (-scale)`. -/
def toRat (d : Decimal) : ℚ := d.unscaled * (10 : ℚ) ^ (-d.scale)

variable {a b d : Decimal} {scale : Int}

theorem ten_zpow_pos (n : Int) : (0 : ℚ) < 10 ^ n := zpow_pos (by norm_num) n

theorem ten_zpow_add (m n : Int) : (10 : ℚ) ^ (m + n) = 10 ^ m * 10 ^ n :=
  zpow_add₀ (by norm_num) m n

/-- A power of ten among the integers, as a rational number. -/
theorem ten_pow_toNat {n : Int} (h : 0 ≤ n) : ((Int.pow 10 n.toNat : Int) : ℚ) = 10 ^ n := by
  show (((10 : Int) ^ n.toNat : Int) : ℚ) = 10 ^ n
  rw [Int.cast_pow, ← zpow_natCast, Int.toNat_of_nonneg h]
  norm_num

theorem toRat_ofInt (n : Int) : (ofInt n).toRat = n := by
  simp [toRat, ofInt]

theorem toRat_eq_zero_iff : d.toRat = 0 ↔ d.unscaled = 0 := by
  rw [toRat, mul_eq_zero, Int.cast_eq_zero]
  exact or_iff_left (ten_zpow_pos _).ne'

theorem toRat_pos_iff : 0 < d.toRat ↔ 0 < d.unscaled := by
  rw [toRat, mul_pos_iff_of_pos_right (ten_zpow_pos _), Int.cast_pos]

/-! ## More fraction digits -/

/-- At a scale that is large enough nothing is cut off. -/
theorem unscaledAt_eq (h : d.scale ≤ scale) : (d.unscaledAt scale : ℚ) = d.toRat * 10 ^ scale := by
  rw [unscaledAt, if_pos h, Int.cast_mul, ten_pow_toNat (by omega), toRat, mul_assoc,
    ← ten_zpow_add]
  congr 2
  omega

/-- The integer at a larger scale stands for the same number. -/
theorem toRat_unscaledAt (h : d.scale ≤ scale) : toRat ⟨d.unscaledAt scale, scale⟩ = d.toRat := by
  rw [toRat, unscaledAt_eq h, mul_assoc, ← ten_zpow_add, Int.add_right_neg, zpow_zero, mul_one]

theorem scale_withScale : (d.withScale scale).scale = scale := by
  unfold withScale
  split <;> rfl

/-- A scale with more fraction digits leaves the number as it is. -/
theorem toRat_withScale (h : d.scale ≤ scale) : (d.withScale scale).toRat = d.toRat := by
  unfold withScale
  split
  · next zero => rw [toRat_eq_zero_iff.2 rfl, toRat_eq_zero_iff.2 (by simpa using zero)]
  · exact toRat_unscaledAt h

/-! ## Operations -/

theorem toRat_neg (d : Decimal) : d.neg.toRat = -d.toRat := by
  rw [toRat, toRat, neg, Int.cast_neg, neg_mul]

theorem toRat_add (a b : Decimal) : (a.add b).toRat = a.toRat + b.toRat := by
  rw [← toRat_unscaledAt (Int.le_max_left a.scale b.scale),
    ← toRat_unscaledAt (Int.le_max_right a.scale b.scale), add, toRat, toRat, toRat,
      Int.cast_add, add_mul]

theorem toRat_sub (a b : Decimal) : (a.sub b).toRat = a.toRat - b.toRat := by
  unfold sub
  split
  · next none => rw [toRat_eq_zero_iff.2 (show b.unscaled = 0 by simpa using none), sub_zero]
  · split
    · next none =>
        rw [toRat_neg, toRat_eq_zero_iff.2 (show a.unscaled = 0 by simpa using none), zero_sub]
    · rw [← toRat_unscaledAt (Int.le_max_left a.scale b.scale),
        ← toRat_unscaledAt (Int.le_max_right a.scale b.scale), toRat, toRat, toRat,
          Int.cast_sub, sub_mul]

/-- A factor that counts as one is one. -/
theorem toRat_of_isOne (h : d.isOne = true) : d.toRat = 1 := by
  simp only [isOne, Bool.and_eq_true, decide_eq_true_eq, beq_iff_eq] at h
  rw [toRat, h.2, ten_pow_toNat h.1.1, ← ten_zpow_add, Int.add_right_neg, zpow_zero]

theorem toRat_mul (fits : scaleFits (a.scale + b.scale) = true) :
    (a.mul b).toRat = a.toRat * b.toRat := by
  unfold mul
  split
  · next one => rw [toRat_of_isOne one, one_mul]
  · split
    · next one => rw [toRat_of_isOne one, mul_one]
    · rw [wrapScale_of_scaleFits fits, toRat, toRat, toRat, Int.cast_mul, neg_add, ten_zpow_add,
        mul_mul_mul_comm]

/-! ## Order -/

/-- A number other than zero reaches the power of ten that its first digit stands for. -/
theorem pow_length_repr_le {n : Nat} (h : n ≠ 0) : 10 ^ ((Nat.repr n).length - 1) ≤ n := by
  rcases Nat.eq_or_lt_of_le (Nat.succ_le_of_lt (Nat.length_repr_pos (n := n))) with one | more
  · rw [← one]
    exact Nat.pos_of_ne_zero h
  · by_contra less
    have shorter := (Nat.length_repr_le_iff (by omega)).2 (Nat.lt_of_not_le less)
    omega

theorem digitCount_pos : 0 < d.digitCount := Nat.length_repr_pos

/-- The integer of a decimal has as many digits as are counted. -/
theorem digitCount_bounds (h : d.unscaled ≠ 0) :
    10 ^ (d.digitCount - 1) ≤ d.unscaled.natAbs ∧ d.unscaled.natAbs < 10 ^ d.digitCount :=
  ⟨pow_length_repr_le (Int.natAbs_ne_zero.2 h), (Nat.length_repr_le_iff digitCount_pos).1
    (Nat.le_refl _)⟩

theorem abs_toRat : |d.toRat| = d.unscaled.natAbs * (10 : ℚ) ^ (-d.scale) := by
  rw [toRat, abs_mul, abs_of_pos (ten_zpow_pos _), Nat.cast_natAbs, Int.cast_abs]

/-- A number other than zero lies between the powers of ten that its order of magnitude names. -/
theorem magnitude_bounds (h : d.unscaled ≠ 0) :
    (10 : ℚ) ^ (d.magnitude - 1) ≤ |d.toRat| ∧ |d.toRat| < 10 ^ d.magnitude := by
  obtain ⟨least, most⟩ := digitCount_bounds h
  have split : ∀ n : Int, (10 : ℚ) ^ (n - d.scale) = 10 ^ n * 10 ^ (-d.scale) := fun n =>
    ten_zpow_add n (-d.scale)
  have before : d.magnitude - 1 = ((d.digitCount - 1 : Nat) : Int) - d.scale := by
    have := digitCount_pos (d := d)
    rw [magnitude]
    omega
  rw [abs_toRat, before, split, magnitude, split, zpow_natCast, zpow_natCast]
  have positive := ten_zpow_pos (-d.scale)
  constructor
  · exact mul_le_mul_of_nonneg_right (by exact_mod_cast least) positive.le
  · exact mul_lt_mul_of_pos_right (by exact_mod_cast most) positive

/-- The number with the smaller order of magnitude is smaller in size. -/
theorem abs_toRat_lt (hb : b.unscaled ≠ 0) (h : a.magnitude < b.magnitude) :
    |a.toRat| < |b.toRat| := by
  by_cases ha : a.unscaled = 0
  · rw [toRat_eq_zero_iff.2 ha, abs_zero, abs_pos, Ne, toRat_eq_zero_iff]
    exact hb
  · calc |a.toRat| < 10 ^ a.magnitude := (magnitude_bounds ha).2
      _ ≤ 10 ^ (b.magnitude - 1) := zpow_le_zpow_right₀ (by norm_num) (by omega)
      _ ≤ |b.toRat| := (magnitude_bounds hb).1

/-- At a common scale the integers are ordered as the numbers. -/
theorem compareAligned_eq : a.compareAligned b = compare a.toRat b.toRat := by
  have positive := ten_zpow_pos (max a.scale b.scale)
  rw [compareAligned, ← cmp_eq_compare, ← cmp_eq_compare,
    ← (Int.cast_strictMono (R := ℚ)).cmp_map_eq, unscaledAt_eq (Int.le_max_left ..),
    unscaledAt_eq (Int.le_max_right ..), cmp_mul_pos_right positive]

/-- Numbers of different signs. -/
theorem toRat_lt_of_sign (h : a.unscaled.sign < b.unscaled.sign) : a.toRat < b.toRat := by
  rcases Int.lt_trichotomy b.unscaled 0 with hb | hb | hb
  · rw [Int.sign_eq_neg_one_of_neg hb] at h
    rcases Int.sign_trichotomy a.unscaled with ha | ha | ha <;> omega
  · rw [toRat_eq_zero_iff.2 hb, ← not_le, le_iff_lt_or_eq, toRat_pos_iff, eq_comm,
      toRat_eq_zero_iff]
    rw [hb, Int.sign_zero, Int.sign_neg_iff] at h
    omega
  · refine lt_of_le_of_lt ?_ (toRat_pos_iff.2 hb)
    rw [← not_lt, toRat_pos_iff]
    intro ha
    rw [Int.sign_eq_one_of_pos ha, Int.sign_eq_one_of_pos hb] at h
    exact absurd h (Int.lt_irrefl 1)

/-- Numbers of the same sign and different orders of magnitude. -/
theorem toRat_lt_of_magnitude (same : a.unscaled.sign = b.unscaled.sign) (ha : a.unscaled ≠ 0)
    (h : if 0 < a.unscaled then a.magnitude < b.magnitude else b.magnitude < a.magnitude) :
    a.toRat < b.toRat := by
  have hb : b.unscaled ≠ 0 := by
    rwa [Ne, ← Int.sign_eq_zero_iff_zero, ← same, Int.sign_eq_zero_iff_zero]
  split at h
  · next positive =>
    have size := abs_toRat_lt hb h
    have right : 0 < b.unscaled := by rwa [← Int.sign_pos_iff, ← same, Int.sign_pos_iff]
    rwa [abs_of_pos (toRat_pos_iff.2 positive), abs_of_pos (toRat_pos_iff.2 right)] at size
  · next negative =>
    have size := abs_toRat_lt ha h
    have left : a.toRat ≤ 0 := not_lt.1 (toRat_pos_iff.not.2 negative)
    have right : b.toRat ≤ 0 := by
      refine not_lt.1 (toRat_pos_iff.not.2 fun positive => negative ?_)
      rwa [← Int.sign_pos_iff, same, Int.sign_pos_iff]
    rw [abs_of_nonpos left, abs_of_nonpos right] at size
    exact neg_lt_neg_iff.1 size

/-- **Decimals are ordered as the numbers they stand for.** -/
theorem cmp_eq (a b : Decimal) : a.cmp b = compare a.toRat b.toRat := by
  unfold cmp
  cases signs : compare a.unscaled.sign b.unscaled.sign with
  | lt => exact (compare_lt_iff_lt.2 (toRat_lt_of_sign (compare_lt_iff_lt.1 signs))).symm
  | gt => exact (compare_gt_iff_gt.2 (toRat_lt_of_sign (compare_gt_iff_gt.1 signs))).symm
  | eq =>
    have same := compare_eq_iff_eq.1 signs
    by_cases ha : a.unscaled = 0
    · have hb : b.unscaled = 0 := by
        rwa [← Int.sign_eq_zero_iff_zero, ← same, Int.sign_eq_zero_iff_zero]
      rw [toRat_eq_zero_iff.2 ha, toRat_eq_zero_iff.2 hb]
      simp [ha]
    · have hb : b.unscaled ≠ 0 := by
        rwa [Ne, ← Int.sign_eq_zero_iff_zero, ← same, Int.sign_eq_zero_iff_zero]
      have sides : 0 < a.unscaled ↔ 0 < b.unscaled := by
        rw [← Int.sign_pos_iff, same, Int.sign_pos_iff]
      simp only [beq_iff_eq, ha, if_false]
      cases sizes : compare a.magnitude b.magnitude with
      | eq => exact compareAligned_eq
      | lt =>
        have size := compare_lt_iff_lt.1 sizes
        by_cases positive : 0 < a.unscaled
        · simp only [positive, if_true]
          exact (compare_lt_iff_lt.2
            (toRat_lt_of_magnitude same ha (by rwa [if_pos positive]))).symm
        · simp only [positive, if_false]
          refine (compare_gt_iff_gt.2 (toRat_lt_of_magnitude same.symm hb ?_)).symm
          rwa [if_neg (sides.not.1 positive)]
      | gt =>
        have size := compare_gt_iff_gt.1 sizes
        by_cases positive : 0 < a.unscaled
        · simp only [positive, if_true]
          refine (compare_gt_iff_gt.2 (toRat_lt_of_magnitude same.symm hb ?_)).symm
          rwa [if_pos (sides.1 positive)]
        · simp only [positive, if_false]
          exact (compare_lt_iff_lt.2
            (toRat_lt_of_magnitude same ha (by rwa [if_neg positive]))).symm

/-! ## Trailing zeros -/

/-- Without trailing zeros a number has the fewest fraction digits possible. -/
theorem scale_le_of_mod_ten (h : a.unscaled % 10 ≠ 0) (same : b.toRat = a.toRat) :
    a.scale ≤ b.scale := by
  by_contra less
  have le : b.scale ≤ a.scale := by omega
  have integer : a.unscaled = b.unscaledAt a.scale := by
    rw [← Int.cast_inj (α := ℚ), unscaledAt_eq le, same, ← unscaledAt_eq (Int.le_refl _),
      unscaledAt, if_pos (Int.le_refl _), Int.sub_self]
    simp
  obtain ⟨n, hn⟩ : ∃ n, (a.scale - b.scale).toNat = n + 1 :=
    ⟨(a.scale - b.scale).toNat - 1, by omega⟩
  refine h (Int.emod_eq_zero_of_dvd ?_)
  rw [integer, unscaledAt, if_pos le, hn]
  exact ⟨b.unscaled * 10 ^ n, by show b.unscaled * 10 ^ (n + 1) = _; ring⟩

/-- Dropping a zero leaves the number as it is. -/
theorem toRat_drop (h : d.unscaled % 10 = 0) :
    toRat ⟨d.unscaled.tdiv 10, d.scale - 1⟩ = d.toRat := by
  obtain ⟨n, hn⟩ := Int.dvd_of_emod_eq_zero h
  have : d.unscaled.tdiv 10 = n := by
    rw [hn]
    exact Int.mul_tdiv_cancel_left n (by norm_num)
  have moved : -(d.scale - 1) = 1 + -d.scale := by ring
  rw [toRat, toRat, this, hn, moved, ten_zpow_add]
  push_cast
  ring

theorem toRat_stripZeros (fuel : Nat) (d : Decimal) : (stripZeros fuel d).toRat = d.toRat := by
  induction fuel generalizing d with
  | zero => rfl
  | succ fuel ih =>
    rw [stripZeros]
    split
    · next zero => rw [ih, toRat_drop (by simpa using zero)]
    · rfl

/-- As many zeros as there are digits are never left over. -/
theorem stripZeros_mod_ten (fuel : Nat) (d : Decimal) (nonzero : d.unscaled ≠ 0)
    (enough : d.unscaled.natAbs < 10 ^ fuel) : (stripZeros fuel d).unscaled % 10 ≠ 0 := by
  induction fuel generalizing d with
  | zero =>
    rw [Nat.pow_zero] at enough
    omega
  | succ fuel ih =>
    rw [stripZeros]
    split
    · next zero =>
      obtain ⟨n, hn⟩ := Int.dvd_of_emod_eq_zero (by simpa using zero : d.unscaled % 10 = 0)
      have shorter : d.unscaled.tdiv 10 = n := by
        rw [hn]
        exact Int.mul_tdiv_cancel_left n (by norm_num)
      have := Nat.pow_succ 10 fuel ▸ enough
      refine ih _ ?_ ?_
      all_goals
        simp only [shorter]
        omega
    · next more => simpa using more

theorem toRat_normalized (d : Decimal) : d.normalized.toRat = d.toRat := by
  unfold normalized
  split
  · next none =>
    rw [toRat_eq_zero_iff.2 (show d.unscaled = 0 by simpa using none)]
    exact toRat_eq_zero_iff.2 rfl
  · exact toRat_stripZeros _ _

/-- **No form of a number other than zero has fewer fraction digits than the normalized one.** -/
theorem normalized_shortest (nonzero : d.unscaled ≠ 0) (same : b.toRat = d.toRat) :
    d.normalized.scale ≤ b.scale := by
  refine scale_le_of_mod_ten ?_ (by rw [toRat_normalized, same])
  rw [normalized, if_neg (by simpa using nonzero)]
  exact stripZeros_mod_ten _ d nonzero (digitCount_bounds nonzero).2

end CellScript.Decimal
