import CellScript.Double.Text
import Mathlib.Algebra.Order.Field.Power
import Mathlib.Data.Rat.Cast.Order
import Mathlib.Tactic.FieldSimp
import Mathlib.Tactic.Linarith
import Mathlib.Tactic.Positivity
import Mathlib.Tactic.Ring

/-!
# The numbers that round to a double

The magnitudes of finite doubles are pairs of a mantissa and an exponent. Around each of them lies
the interval of the numbers that are rounded to it, and no number lies in two of these intervals:
where two intervals meet, the end that they share belongs to the one with the even mantissa.

* `Fraction.toRat` — fractions as rational numbers
* `Magnitude` — mantissa and exponent of a finite double
* `Rounds` — the number is rounded to the double, with `Rounds.unique` and `rounds_self`
* `roundingInterval_mem` — the interval that is computed
-/

namespace CellScript.Double

/-! ## Fractions -/

namespace Fraction

/-- The number that a fraction is. -/
def toRat (x : Fraction) : ℚ := x.num / x.den

variable {x y : Fraction} {n base : Nat} {e : Int}

theorem le_iff (hx : 0 < x.den) (hy : 0 < y.den) : x.le y = true ↔ x.toRat ≤ y.toRat := by
  rw [le, decide_eq_true_iff, toRat, toRat, div_le_div_iff₀ (by exact_mod_cast hx)
    (by exact_mod_cast hy)]
  exact_mod_cast Iff.rfl

theorem lt_iff (hx : 0 < x.den) (hy : 0 < y.den) : x.lt y = true ↔ x.toRat < y.toRat := by
  rw [lt, decide_eq_true_iff, toRat, toRat, div_lt_div_iff₀ (by exact_mod_cast hx)
    (by exact_mod_cast hy)]
  exact_mod_cast Iff.rfl

theorem scaled_den_pos (h : 0 < base) : 0 < (scaled n base e).den := by
  unfold scaled
  split
  · exact Nat.one_pos
  · exact Nat.pow_pos h

theorem pow_cast (base n : Nat) : ((Nat.pow base n : Nat) : ℚ) = (base : ℚ) ^ (n : Int) := by
  rw [Nat.pow_eq, Nat.cast_pow, zpow_natCast]

theorem scaled_toRat : (scaled n base e).toRat = n * (base : ℚ) ^ e := by
  unfold scaled toRat
  split
  · next up => rw [Nat.cast_mul, pow_cast, Int.toNat_of_nonneg up, Nat.cast_one, div_one]
  · next down => rw [pow_cast, Int.toNat_of_nonneg (by omega), zpow_neg, div_inv_eq_mul]

/-- The grid point below a number. -/
theorem floorDiv_bounds (hx : 0 < x.den) (num : 0 < y.num) (hy : 0 < y.den) :
    x.floorDiv y * y.toRat ≤ x.toRat ∧ x.toRat < (x.floorDiv y + 1) * y.toRat := by
  have split := Nat.div_mul_le_self (x.num * y.den) (x.den * y.num)
  have rest := Nat.lt_div_mul_add (a := x.num * y.den) (b := x.den * y.num) (Nat.mul_pos hx num)
  rw [toRat, toRat, ← mul_div_assoc, ← mul_div_assoc]
  rw [div_le_div_iff₀ (by exact_mod_cast hy) (by exact_mod_cast hx),
    div_lt_div_iff₀ (by exact_mod_cast hx) (by exact_mod_cast hy)]
  constructor
  · have : x.floorDiv y * y.num * x.den ≤ x.num * y.den := by
      calc x.floorDiv y * y.num * x.den = x.num * y.den / (x.den * y.num) * (x.den * y.num) := by
            rw [floorDiv]; ring
        _ ≤ x.num * y.den := split
    exact_mod_cast this
  · have : x.num * y.den < (x.floorDiv y + 1) * y.num * x.den := by
      calc x.num * y.den < x.num * y.den / (x.den * y.num) * (x.den * y.num) + x.den * y.num := rest
        _ = (x.floorDiv y + 1) * y.num * x.den := by rw [floorDiv]; ring
    exact_mod_cast this

end Fraction

/-! ## Magnitudes -/

/-- Mantissa and exponent of a finite double: all 53 bits of the mantissa are used, unless the
exponent is the least one. -/
structure Magnitude (m : Nat) (e : Int) : Prop where
  fits : m < 2 * hiddenBit
  least : minExponent ≤ e
  full : e = minExponent ∨ hiddenBit ≤ m

/-- The number `m · 2 ^ e`. -/
def number (m : Nat) (e : Int) : ℚ := m * (2 : ℚ) ^ e

/-- How far the interval of a double reaches down, in quarters of its last bit. -/
def down (m : Nat) (e : Int) : Nat := if m == hiddenBit && e != minExponent then 1 else 2

/-- The lower end of the interval of a double. -/
def lowEnd (m : Nat) (e : Int) : ℚ := (m - down m e / 4) * (2 : ℚ) ^ e

/-- The upper end of the interval of a double. -/
def highEnd (m : Nat) (e : Int) : ℚ := (m + 1 / 2) * (2 : ℚ) ^ e

/-- The number is rounded to `m · 2 ^ e`; the ends only if the mantissa is even. -/
structure Rounds (m : Nat) (e : Int) (q : ℚ) : Prop where
  low : lowEnd m e ≤ q
  high : q ≤ highEnd m e
  ends : m % 2 = 1 → lowEnd m e < q ∧ q < highEnd m e

variable {m m' : Nat} {e e' : Int} {q : ℚ}

theorem two_zpow_pos (n : Int) : (0 : ℚ) < 2 ^ n := zpow_pos (by norm_num) n

theorem down_pos : 1 ≤ down m e := by
  unfold down
  split <;> omega

theorem down_le : down m e ≤ 2 := by
  unfold down
  split <;> omega

theorem lowEnd_lt_number : lowEnd m e < number m e := by
  have reach : (1 : ℚ) ≤ down m e := by exact_mod_cast down_pos
  exact mul_lt_mul_of_pos_right (by linarith) (two_zpow_pos e)

theorem number_lt_highEnd : number m e < highEnd m e :=
  mul_lt_mul_of_pos_right (by linarith) (two_zpow_pos e)

theorem Rounds.of_between (low : lowEnd m e < q) (high : q < highEnd m e) : Rounds m e q :=
  ⟨low.le, high.le, fun _ => ⟨low, high⟩⟩

/-- A double is rounded to itself. -/
theorem rounds_self : Rounds m e (number m e) := .of_between lowEnd_lt_number number_lt_highEnd

/-- Where the interval of the first double with an exponent begins. -/
theorem first_le_lowEnd (full : hiddenBit ≤ m) (more : e ≠ minExponent) :
    (hiddenBit - 1 / 4) * (2 : ℚ) ^ e ≤ lowEnd m e := by
  refine mul_le_mul_of_nonneg_right ?_ (two_zpow_pos e).le
  by_cases first : m = hiddenBit
  · have one : down m e = 1 := by rw [down, if_pos (by simp [first, more])]
    rw [one, first, Nat.cast_one]
  · have above : (hiddenBit : ℚ) + 1 ≤ m := by
      exact_mod_cast Nat.lt_of_le_of_ne full (Ne.symm first)
    have reach : (down m e : ℚ) ≤ 2 := by exact_mod_cast down_le
    linarith

/-- The interval of a double with a smaller exponent ends where that of the other begins, or
before. -/
theorem highEnd_le_of_exponent (h : Magnitude m e) (h' : Magnitude m' e') (less : e < e') :
    highEnd m e ≤ lowEnd m' e' ∧ (m % 2 = 0 → highEnd m e < lowEnd m' e') := by
  have more : e' ≠ minExponent := fun least => by have := h.least; omega
  have start : (2 * hiddenBit - 1 / 2) * (2 : ℚ) ^ e ≤ lowEnd m' e' := by
    have power : 2 * (2 : ℚ) ^ e ≤ 2 ^ e' := by
      rw [← zpow_one_add₀ (by norm_num)]
      exact zpow_le_zpow_right₀ (by norm_num) (by omega)
    have bits : (0 : ℚ) ≤ hiddenBit - 1 / 4 := by norm_num [hiddenBit]
    calc (2 * hiddenBit - 1 / 2) * (2 : ℚ) ^ e = (hiddenBit - 1 / 4) * (2 * 2 ^ e) := by ring
      _ ≤ (hiddenBit - 1 / 4) * 2 ^ e' := mul_le_mul_of_nonneg_left power bits
      _ ≤ lowEnd m' e' := first_le_lowEnd (h'.full.resolve_left more) more
  constructor
  · have most : (m : ℚ) + 1 ≤ 2 * hiddenBit := by exact_mod_cast h.fits
    exact le_trans (mul_le_mul_of_nonneg_right (by linarith) (two_zpow_pos e).le) start
  · intro even
    have most : (m : ℚ) + 2 ≤ 2 * hiddenBit := by
      have := h.fits
      have : m + 2 ≤ 2 * hiddenBit := by omega
      exact_mod_cast this
    exact lt_of_lt_of_le (mul_lt_mul_of_pos_right (by linarith) (two_zpow_pos e)) start

/-- With the same exponent the interval of the smaller mantissa ends where the other begins, or
before. -/
theorem highEnd_le_of_mantissa (less : m < m') :
    highEnd m e ≤ lowEnd m' e ∧ (m % 2 = 0 → m' % 2 = 0 → highEnd m e < lowEnd m' e) := by
  have reach : (down m' e : ℚ) ≤ 2 := by exact_mod_cast down_le
  constructor
  · have : (m : ℚ) + 1 ≤ m' := by exact_mod_cast less
    exact mul_le_mul_of_nonneg_right (by linarith) (two_zpow_pos e).le
  · intro even even'
    have : (m : ℚ) + 2 ≤ m' := by
      have : m + 2 ≤ m' := by omega
      exact_mod_cast this
    exact mul_lt_mul_of_pos_right (by linarith) (two_zpow_pos e)

/-- No number is rounded to a double and to one after it. -/
theorem Rounds.not_after (h : Magnitude m e) (h' : Magnitude m' e') (r : Rounds m e q)
    (r' : Rounds m' e' q) :
    ¬ (e < e' ∨ e = e' ∧ m < m') := by
  have apart : m % 2 = 1 ∨ m' % 2 = 1 → ¬ highEnd m e ≤ lowEnd m' e' := by
    rintro (odd | odd) order
    · exact absurd (lt_of_lt_of_le (r.ends odd).2 order) (not_lt.2 r'.low)
    · exact absurd (lt_of_le_of_lt order (r'.ends odd).1) (not_lt.2 r.high)
  have strict : ¬ highEnd m e < lowEnd m' e' := fun order =>
    absurd (lt_of_le_of_lt r.high order) (not_lt.2 r'.low)
  rintro (less | ⟨rfl, less⟩)
  · have order := highEnd_le_of_exponent h h' less
    rcases Nat.mod_two_eq_zero_or_one m with even | odd
    · exact strict (order.2 even)
    · exact apart (.inl odd) order.1
  · have order := highEnd_le_of_mantissa (e := e) less
    rcases Nat.mod_two_eq_zero_or_one m with even | odd
    · rcases Nat.mod_two_eq_zero_or_one m' with even' | odd'
      · exact strict (order.2 even even')
      · exact apart (.inr odd') order.1
    · exact apart (.inl odd) order.1

/-- **A number is rounded to one double only.** -/
theorem Rounds.unique (h : Magnitude m e) (h' : Magnitude m' e') (r : Rounds m e q)
    (r' : Rounds m' e' q) :
    m = m' ∧ e = e' := by
  have first := r.not_after h h' r'
  have second := r'.not_after h' h r
  omega

/-- A number that is rounded to a double other than zero is positive. -/
theorem Rounds.pos (positive : 0 < m) (r : Rounds m e q) : 0 < q := by
  refine lt_of_lt_of_le ?_ r.low
  have mantissa : (1 : ℚ) ≤ m := by exact_mod_cast positive
  have reach : (down m e : ℚ) ≤ 2 := by exact_mod_cast down_le
  exact mul_pos (by linarith) (two_zpow_pos _)

/-- The ends of the interval that is computed are given in quarters of the last bit. -/
theorem roundingInterval_ends (positive : 0 < m) : (roundingInterval m e).low.toRat = lowEnd m e ∧
    (roundingInterval m e).high.toRat = highEnd m e := by
  have quarter : (2 : ℚ) ^ e = 4 * 2 ^ (e - 2) := by
    rw [zpow_sub₀ (by norm_num)]
    ring
  constructor
  · have reach : down m e ≤ 4 * m := le_trans down_le (by omega)
    show (Fraction.scaled (4 * m - down m e) 2 (e - 2)).toRat = _
    rw [Fraction.scaled_toRat, Nat.cast_sub reach, lowEnd, quarter]
    push_cast
    ring
  · show (Fraction.scaled (4 * m + 2) 2 (e - 2)).toRat = _
    rw [Fraction.scaled_toRat, highEnd, quarter]
    push_cast
    ring

/-- **The interval that is computed holds the numbers that are rounded to the double.** -/
theorem roundingInterval_mem {x : Fraction} (positive : 0 < m) (hx : 0 < x.den) :
    (roundingInterval m e).mem x = true ↔ Rounds m e x.toRat := by
  obtain ⟨low, high⟩ := roundingInterval_ends (e := e) positive
  have lowDen : 0 < (roundingInterval m e).low.den := Fraction.scaled_den_pos Nat.two_pos
  have highDen : 0 < (roundingInterval m e).high.den := Fraction.scaled_den_pos Nat.two_pos
  have closed : (roundingInterval m e).closed = (m % 2 == 0) := rfl
  unfold Interval.mem
  rw [closed]
  rcases Nat.mod_two_eq_zero_or_one m with even | odd
  · rw [even, if_pos (by decide), Bool.and_eq_true, Fraction.le_iff lowDen hx,
      Fraction.le_iff hx highDen, low, high]
    exact ⟨fun h => ⟨h.1, h.2, fun odd => by omega⟩, fun r => ⟨r.low, r.high⟩⟩
  · rw [odd, if_neg (by decide), Bool.and_eq_true, Fraction.lt_iff lowDen hx,
      Fraction.lt_iff hx highDen, low, high]
    exact ⟨fun h => ⟨h.1.le, h.2.le, fun _ => h⟩, fun r => r.ends odd⟩

end CellScript.Double
