import CellScript.Double.Parts

/-!
# Decimals

A decimal is an integer together with a scale: `⟨150, 2⟩` is 1.50. The scale is part of a decimal
but not of its value, so `1.5` and `1.50` compare equal and print differently. A negative scale
counts zeros before the point.

An integer and a decimal with fraction digits become the nearest double. A decimal with zeros before
the point is rounded more than once: its integer becomes a double first, which is then multiplied by
a power of ten computed in doubles. Integers much longer than the mantissa of a double first lose
groups of their last digits, and the scale shrinks with them.
-/

namespace CellScript

/-- The number `unscaled · 10 ^ (-scale)`. -/
structure Decimal where
  unscaled : Int
  scale : Int
  deriving DecidableEq, Repr, Inhabited

namespace Decimal

def zero : Decimal := ⟨0, 0⟩

def ofInt (n : Int) : Decimal := ⟨n, 0⟩

def isZero (d : Decimal) : Bool := d.unscaled == 0

/-- Scales are 64-bit integers. -/
def scaleFits (scale : Int) : Bool := -Int.pow 2 63 ≤ scale && scale < Int.pow 2 63

/-- A computed scale wraps around at the ends of the 64-bit integers. -/
def wrapScale (scale : Int) : Int := scale.bmod (Nat.pow 2 64)

theorem scaleFits_iff {scale : Int} :
    scaleFits scale = true ↔ -Int.pow 2 63 ≤ scale ∧ scale < Int.pow 2 63 := by
  rw [scaleFits, Bool.and_eq_true]
  exact and_congr decide_eq_true_iff decide_eq_true_iff

/-- Wrapping around always gives a scale. -/
theorem scaleFits_wrapScale (scale : Int) : scaleFits (wrapScale scale) = true :=
  scaleFits_iff.2 ⟨Int.le_bmod (by decide), Int.bmod_lt (by decide)⟩

/-- A number that is a scale already stays as it is. -/
theorem wrapScale_of_scaleFits {scale : Int} (h : scaleFits scale = true) :
    wrapScale scale = scale :=
  Int.bmod_eq_of_le (scaleFits_iff.1 h).1 (scaleFits_iff.1 h).2

/-- The integer `u` with `d = u · 10 ^ (-scale)`, cut toward zero if `scale` is too small. -/
def unscaledAt (d : Decimal) (scale : Int) : Int :=
  if d.scale ≤ scale then d.unscaled * Int.pow 10 (scale - d.scale).toNat
  else d.unscaled.tdiv (Int.pow 10 (d.scale - scale).toNat)

/-- The decimal at another scale; digits that do not fit are cut off. Zero takes any scale. -/
def withScale (d : Decimal) (scale : Int) : Decimal :=
  if d.unscaled == 0 then ⟨0, scale⟩ else ⟨d.unscaledAt scale, scale⟩

/-- Number of decimal digits of the unscaled integer; zero has one. -/
def digitCount (d : Decimal) : Nat := (Nat.repr d.unscaled.natAbs).length

/-- Strips at most `fuel` trailing zeros. -/
def stripZeros : Nat → Decimal → Decimal
  | 0, d => d
  | fuel + 1, d =>
    if d.unscaled % 10 == 0 then stripZeros fuel ⟨d.unscaled.tdiv 10, d.scale - 1⟩ else d

/-- The form without trailing zeros; zero has scale zero. -/
def normalized (d : Decimal) : Decimal :=
  if d.unscaled == 0 then zero else stripZeros d.digitCount d

/-! ## Arithmetic -/

def neg (d : Decimal) : Decimal := ⟨-d.unscaled, d.scale⟩

/-- The sum at the larger scale. -/
def add (a b : Decimal) : Decimal :=
  let scale := max a.scale b.scale
  ⟨a.unscaledAt scale + b.unscaledAt scale, scale⟩

/-- The difference at the larger scale, except that a zero operand leaves the other one at its own
scale. -/
def sub (a b : Decimal) : Decimal :=
  if b.unscaled == 0 then a
  else if a.unscaled == 0 then b.neg
  else
    let scale := max a.scale b.scale
    ⟨a.unscaledAt scale - b.unscaledAt scale, scale⟩

/-- The greatest scale at which a factor of one is noticed: beyond it the unscaled integer has more
than 128 bits. -/
def oneScaleLimit : Int := 38

/-- The decimal is exactly one, written at a scale from zero up to the limit. -/
def isOne (d : Decimal) : Bool :=
  0 ≤ d.scale && d.scale ≤ oneScaleLimit && d.unscaled == Int.pow 10 d.scale.toNat

/-- The product; scales add up, but a factor of one leaves the other factor as it is. -/
def mul (a b : Decimal) : Decimal :=
  if a.isOne then b
  else if b.isOne then a
  else ⟨a.unscaled * b.unscaled, wrapScale (a.scale + b.scale)⟩

/-- Remainder of the truncated quotient at the larger scale. The divisor must not be zero. -/
def rem (a b : Decimal) : Decimal :=
  let scale := max a.scale b.scale
  ⟨(a.unscaledAt scale).tmod (b.unscaledAt scale), scale⟩

/-! ## Order -/

/-- Order of magnitude: `10 ^ (magnitude - 1) ≤ |d| < 10 ^ magnitude` for `d ≠ 0`. -/
def magnitude (d : Decimal) : Int := d.digitCount - d.scale

/-- Order of two decimals of the same sign by value, given their sizes. -/
def compareAligned (a b : Decimal) : Ordering :=
  let scale := max a.scale b.scale
  compare (a.unscaledAt scale) (b.unscaledAt scale)

/-- Order by value. Signs and orders of magnitude settle most pairs without aligning scales. -/
def cmp (a b : Decimal) : Ordering :=
  match compare a.unscaled.sign b.unscaled.sign with
  | .lt => .lt
  | .gt => .gt
  | .eq =>
    if a.unscaled == 0 then .eq
    else match compare a.magnitude b.magnitude with
      | .eq => compareAligned a b
      | .lt => if 0 < a.unscaled then .lt else .gt
      | .gt => if 0 < a.unscaled then .gt else .lt

theorem swap_compareAligned (a b : Decimal) :
    (a.compareAligned b).swap = b.compareAligned a := by
  simp only [compareAligned, Int.max_comm b.scale a.scale]
  exact Std.OrientedOrd.eq_swap.symm

/-- Exchanging the two decimals reverses their order. -/
theorem swap_cmp (a b : Decimal) : (a.cmp b).swap = b.cmp a := by
  have signs : compare b.unscaled.sign a.unscaled.sign =
      (compare a.unscaled.sign b.unscaled.sign).swap := Std.OrientedOrd.eq_swap
  have sizes : compare b.magnitude a.magnitude = (compare a.magnitude b.magnitude).swap :=
    Std.OrientedOrd.eq_swap
  simp only [cmp, signs, sizes]
  cases h : compare a.unscaled.sign b.unscaled.sign with
  | lt => rfl
  | gt => rfl
  | eq =>
    have same : a.unscaled.sign = b.unscaled.sign := Std.LawfulEqOrd.compare_eq_iff_eq.1 h
    have zero : a.unscaled = 0 ↔ b.unscaled = 0 := by
      rw [← Int.sign_eq_zero_iff_zero, same, Int.sign_eq_zero_iff_zero]
    have pos : 0 < a.unscaled ↔ 0 < b.unscaled := by
      rw [← Int.sign_pos_iff, same, Int.sign_pos_iff]
    by_cases hz : b.unscaled = 0
    · simp [hz, zero.2 hz]
    · have ha : a.unscaled ≠ 0 := fun h0 => hz (zero.1 h0)
      cases compare a.magnitude b.magnitude <;>
        simp [hz, ha, pos, swap_compareAligned] <;> split <;> rfl

/-- A decimal is neither less nor greater than itself. -/
theorem cmp_self (a : Decimal) : a.cmp a = .eq := by
  cases h : a.cmp a <;> have := swap_cmp a a <;> simp_all

/-! ## Conversions -/

/-- The long inside a decimal after cutting the fraction; none if it does not fit. -/
def toLong? (d : Decimal) : Option Int64 :=
  if 19 < d.magnitude && d.unscaled != 0 then none
  else
    let n := if d.magnitude ≤ 0 then 0 else d.unscaledAt 0
    if -Int.pow 2 63 ≤ n && n < Int.pow 2 63 then some (Int64.ofInt n) else none

/-! ## Decimals as doubles -/

/-- Number of decimal digits, judged by the bits alone: the greatest `k` with `10 ^ k ≤ 2 ^ (b + 1)`
for an integer of `b` bits. For a positive integer this is its number of digits or one less. -/
def estimatedDigits (n : Nat) : Nat :=
  let bits := if n == 0 then 0 else n.log2 + 1
  (Nat.repr (Nat.pow 2 (bits + 1))).length - 1

/-- An integer keeps at least this many digits on its way to a double. -/
def keptDigits : Nat := 25

/-- Digits are cut off in groups of this size. -/
def cutGroup : Nat := 19

/-- How many last digits an integer loses on its way to a double. -/
def cutDigits (n : Nat) : Nat := (estimatedDigits n - keptDigits) / cutGroup * cutGroup

/-- `product * base ^ n` by repeated squaring, each step rounded to a double. -/
def timesPower (product base : Float) (n : Nat) : Float :=
  if n = 0 then product
  else timesPower (if n % 2 = 1 then product * base else product) (base * base) (n / 2)
termination_by n

/-- `10 ^ n` by repeated squaring, exact up to `10 ^ 22`. -/
def tenBySquaring (n : Nat) : Float := timesPower 1.0 10.0 n

/-- The double of `digits · 10 ^ (-scale)`. A positive scale that does not fit 32 bits makes it
infinite. -/
def scaledDouble (negative : Bool) (digits : Nat) (scale : Int) : Float :=
  if scale ≤ 0 then Double.ofRatio negative digits 1 * tenBySquaring (-scale).toNat
  else if scale < Int.pow 2 31 then Double.ofDecimal negative digits (-scale)
  else Double.infinity negative

/-- The double of a decimal; zero is positive at every scale. -/
def toDouble (d : Decimal) : Float :=
  let negative : Bool := d.unscaled < 0
  let digits := d.unscaled.natAbs
  if digits == 0 || d.scale == 0 then Double.ofRatio negative digits 1
  else
    let cut := cutDigits digits
    scaledDouble negative (digits / Nat.pow 10 cut) (d.scale - cut)

end Decimal

end CellScript
