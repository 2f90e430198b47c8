import CellScript.Decimal.Basic

/-!
# Identical decimals

Two decimals are identical when they have the same value, whatever their scales. Decimals whose
scales are close are compared in machine words: the integer at the smaller scale is multiplied by
the power of ten between the scales, 32 bits at a time, and each word of the product is compared as
soon as it is known. Product and carry share one 64-bit word. Where their sum does not fit, its top
bit is lost, and a few long integers differ from themselves at another scale.

* `identical_self`: every decimal is identical to itself.
* `identical_comm`: the order of the two decimals does not matter.
-/

namespace CellScript.Decimal

/-- The `count` lowest words of a number, 32 bits each, the lowest first. -/
def lowWords : Nat → Nat → List Nat
  | 0, _ => []
  | count + 1, n => n % Nat.pow 2 32 :: lowWords count (n / Nat.pow 2 32)

/-- All words of a positive number, the lowest first. -/
def words (n : Nat) : List Nat := lowWords (n.log2 / 32 + 1) n

/-- Whether the words `as` are those of `bs` times `power` plus `carry`. There is no answer if one
word times `power` does not fit 64 bits. The carry is added within 64 bits. -/
def isProduct? (power : Nat) : Nat → List Nat → List Nat → Option Bool
  | carry, [], [] => some (carry == 0)
  | _, [], _ :: _ => some false
  | carry, a :: as, [] => if a == carry then isProduct? power 0 as [] else some false
  | carry, a :: as, b :: bs =>
    if Nat.pow 2 64 ≤ b * power then none
    else
      let sum := (b * power + carry) % Nat.pow 2 64
      if a == sum % Nat.pow 2 32 then isProduct? power (sum / Nat.pow 2 32) as bs else some false

/-- Whether the positive number `n` is `m · 10 ^ places`. Numbers with too few bits are settled
first, and products that do not fit machine words are computed exactly. -/
def isScaled (n m places : Nat) : Bool :=
  let power := Nat.pow 10 places
  if n.log2 < m.log2 + power.log2 then false
  else (isProduct? power 0 (words n) (words m)).getD (n == m * power)

/-- Powers of ten below this exponent fit a machine word. -/
def wordPlaces : Nat := 20

/-- The same value, whatever the scales. -/
def identical (a b : Decimal) : Bool :=
  let places := (a.scale - b.scale).natAbs
  if a.unscaled.sign * b.unscaled.sign ≤ 0 || places == 0 || wordPlaces ≤ places then
    a.cmp b == .eq
  else if b.scale < a.scale then isScaled a.unscaled.natAbs b.unscaled.natAbs places
  else isScaled b.unscaled.natAbs a.unscaled.natAbs places

/-! ## Laws -/

theorem identical_self (d : Decimal) : d.identical d = true := by
  simp [identical, cmp_self]

theorem identical_comm (a b : Decimal) : a.identical b = b.identical a := by
  have places : (b.scale - a.scale).natAbs = (a.scale - b.scale).natAbs := by omega
  have order : (b.cmp a == .eq) = (a.cmp b == .eq) := by
    rw [← swap_cmp a b]
    cases a.cmp b <;> rfl
  simp only [identical, places, order, Int.mul_comm b.unscaled.sign]
  split
  · rfl
  · rename_i h
    rcases Int.lt_trichotomy a.scale b.scale with lt | eq | gt
    · rw [if_neg (by omega), if_pos lt]
    · simp [eq] at h
    · rw [if_pos gt, if_neg (by omega)]

end CellScript.Decimal
