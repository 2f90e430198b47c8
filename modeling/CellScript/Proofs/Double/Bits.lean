import CellScript.Proofs.Double.Rounding
import Mathlib

/-!
# The bits of a double

Behind the sign the bits of a finite double are its place among the magnitudes, so that a finite
double is determined by its parts, and two finite doubles are equal when their numbers are.

* `partsOfBits_iff` — which bits are those of a finite double
* `parts_ofBits` — bits that are made into a double are read back
* `eq_of_parts`, `beq_iff` — equality of finite doubles
-/

namespace CellScript.Double

open Float.Model (UnpackedFloat Format)

variable {x y : Float} {m m' : Nat} {e e' : Int} {bits : Nat} {s s' : Bool} {q q' : ℚ}

/-! ## Sign, exponent and fraction -/

/-- The 64 bits with the given sign, exponent bits and fraction. -/
def bitsOf (negative : Bool) (biased fraction : Nat) : Nat :=
  (if negative then Nat.pow 2 63 else 0) + (biased * hiddenBit + fraction)

theorem partsOfBits_bitsOf {biased fraction : Nat} (hb : biased < 2048)
    (hf : fraction < hiddenBit) :
    partsOfBits (bitsOf s biased fraction) =
      if biased = 2047 then if fraction = 0 then .infinite s else .nan
      else if biased = 0 then .finite s fraction minExponent
      else .finite s (hiddenBit + fraction) (biased - 1075) := by
  have half : hiddenBit = 4503599627370496 := by decide
  have high : Nat.pow 2 63 = 9223372036854775808 := by decide
  have sign : (bitsOf s biased fraction / Nat.pow 2 63 % 2 == 1) = s := by
    rw [bitsOf, high, half]
    cases s
    · rw [beq_eq_false_iff_ne, if_neg (by decide)]
      omega
    · rw [beq_iff_eq, if_pos rfl]
      omega
  have exponent : bitsOf s biased fraction / hiddenBit % 2048 = biased := by
    rw [bitsOf, high, half]
    split <;> omega
  have rest : bitsOf s biased fraction % hiddenBit = fraction := by
    rw [bitsOf, high, half]
    split <;> omega
  simp only [partsOfBits, sign, exponent, rest, beq_iff_eq]

theorem exists_bitsOf (small : bits < 2 ^ 64) :
    ∃ s biased fraction, biased < 2048 ∧ fraction < hiddenBit ∧
      bits = bitsOf s biased fraction := by
  have half : hiddenBit = 4503599627370496 := by decide
  have high : Nat.pow 2 63 = 9223372036854775808 := by decide
  refine ⟨decide (Nat.pow 2 63 ≤ bits), bits / hiddenBit % 2048, bits % hiddenBit,
    Nat.mod_lt _ (by decide), Nat.mod_lt _ (by decide), ?_⟩
  simp only [bitsOf, high, half, decide_eq_true_iff]
  split <;> omega

/-- The bits of `± m · 2 ^ e`: behind the sign its place among the magnitudes. -/
def finiteBits (negative : Bool) (m : Nat) (e : Int) : Nat :=
  (if negative then Nat.pow 2 63 else 0) + ((e - minExponent).toNat * hiddenBit + m)

theorem finiteBits_eq (h : Magnitude m e) : finiteBits s m e =
    if m < hiddenBit then bitsOf s 0 m else bitsOf s (e + 1075).toNat (m - hiddenBit) := by
  have half : hiddenBit = 4503599627370496 := by decide
  have least : minExponent = -1074 := rfl
  have bottom := h.least
  have full := h.full
  split
  · next small =>
    have place : (e - minExponent).toNat = 0 := by omega
    rw [finiteBits, bitsOf, place]
  · next large =>
    have place : (e - minExponent).toNat * hiddenBit + m = (e + 1075).toNat * hiddenBit +
        (m - hiddenBit) := by
      rw [half, least] at *
      omega
    rw [finiteBits, bitsOf, place]

/-- **The bits of finite doubles.** -/
theorem partsOfBits_iff (small : bits < 2 ^ 64) : partsOfBits bits = .finite s m e ↔
    Magnitude m e ∧ e ≤ 971 ∧ bits = finiteBits s m e := by
  have half : hiddenBit = 4503599627370496 := by decide
  have least : minExponent = -1074 := rfl
  constructor
  · obtain ⟨t, biased, fraction, hb, hf, rfl⟩ := exists_bitsOf small
    rw [partsOfBits_bitsOf hb hf]
    intro h
    split at h
    · split at h <;> cases h
    · split at h
      · next subnormal =>
        cases h
        have magnitude : Magnitude m minExponent := ⟨by omega, Int.le_refl _, .inl rfl⟩
        rw [finiteBits_eq magnitude, if_pos hf, subnormal]
        exact ⟨magnitude, by decide, rfl⟩
      · cases h
        have magnitude : Magnitude (hiddenBit + fraction) (biased - 1075) :=
          ⟨by omega, by omega, .inr (by omega)⟩
        rw [finiteBits_eq magnitude, if_neg (by omega), Int.sub_add_cancel, Int.toNat_natCast,
          Nat.add_sub_cancel_left]
        exact ⟨magnitude, by omega, rfl⟩
  · rintro ⟨h, top, rfl⟩
    have bottom := h.least
    have full := h.full
    have fits := h.fits
    rw [finiteBits_eq h]
    split
    · next small =>
      rw [partsOfBits_bitsOf (by decide) small, if_neg (by decide), if_pos rfl,
        ← full.resolve_right (by omega)]
    · next large =>
      have mantissa : hiddenBit + (m - hiddenBit) = m := by omega
      have exponent : ((e + 1075).toNat : Int) - 1075 = e := by omega
      rw [partsOfBits_bitsOf (by omega) (by omega), if_neg (by omega), if_neg (by omega),
        mantissa, exponent]

/-! ## Doubles -/

/-- Bits that are no NaN are kept. -/
theorem toBits_ofBits {bits : UInt64} (h : partsOfBits bits.toNat ≠ .nan) :
    (Float.ofBits bits).toBits = bits := by
  have packed : (Float.ofBits bits).toBits.toBitVec =
      (UnpackedFloat.unpack Format.binary64 bits.toBitVec).pack Format.binary64 := rfl
  have number : @UnpackedFloat.isNaNBits Format.binary64 bits.toBitVec = false := by
    rw [UnpackedFloat.isNaNBits, decide_eq_false_iff_not]
    rintro ⟨exponent, mantissa⟩
    have exponent := congrArg BitVec.toNat exponent
    have mantissa := mt BitVec.eq_of_toNat_eq mantissa
    rw [UnpackedFloat.unpackExponent_def] at exponent
    rw [UnpackedFloat.unpackMantissa_def] at mantissa
    have half : hiddenBit = 4503599627370496 := by decide
    have biased : bits.toNat / hiddenBit % 2048 = 2047 := by
      simpa [Format.binary64, Nat.shiftRight_eq_div_pow, half] using exponent
    have fraction : bits.toNat % hiddenBit ≠ 0 := by
      simpa [Format.binary64, half] using mantissa
    exact h (by simp [partsOfBits, biased, fraction])
  rw [← UInt64.toBitVec_inj, packed, UnpackedFloat.pack_unpack _ (by decide), number]
  rfl

/-- Bits that are made into a double are read back. -/
theorem parts_ofBits (small : bits < 2 ^ 64) (h : partsOfBits bits ≠ .nan) :
    parts (Float.ofBits (UInt64.ofNat bits)) = partsOfBits bits := by
  have toNat : (UInt64.ofNat bits).toNat = bits := UInt64.toNat_ofNat_of_lt' small
  rw [parts, toBits_ofBits (by rwa [toNat]), toNat]

theorem parts_magnitude (h : parts x = .finite s m e) : Magnitude m e :=
  ((partsOfBits_iff x.toBits.toNat_lt).1 h).1

/-- A finite double is determined by its parts. -/
theorem eq_of_parts (hx : parts x = .finite s m e) (hy : parts y = .finite s m e) : x = y := by
  have left := ((partsOfBits_iff x.toBits.toNat_lt).1 hx).2.2
  have right := ((partsOfBits_iff y.toBits.toNat_lt).1 hy).2.2
  rw [← Float.toBits_inj, ← UInt64.toNat_inj, left, right]

/-- Equal doubles are not in order. -/
theorem not_lt_of_beq (h : (x == y) = true) : ¬ x < y := by
  intro less
  have equal : x.toModel.unpack.compare y.toModel.unpack = some .eq := beq_iff_eq.1 h
  have below : x.toModel.unpack.compare y.toModel.unpack = some .lt :=
    beq_iff_eq.1 (of_decide_eq_true less)
  rw [equal] at below
  cases below

theorem ne_nan_of_parts (h : parts x = .finite s m e) : x ≠ Float.nan := by
  rintro rfl
  have nan : parts Float.nan = .nan := by decide
  rw [nan] at h
  cases h

/-- **A double is equal to a finite one when it has the same mantissa and exponent, and the same
sign unless both are zero.** -/
theorem beq_iff (hx : parts x = .finite s m e) :
    (x == y) = true ↔ ∃ s', parts y = .finite s' m e ∧ (s = s' ∨ m = 0) := by
  have zero : parts 0 = .finite false 0 minExponent := by decide
  have negative : parts (-0) = .finite true 0 minExponent := by decide
  rw [Float.beq_iff_ne_nan_and_eq]
  constructor
  · rintro ⟨-, -, rfl | ⟨rfl, rfl⟩ | ⟨rfl, rfl⟩⟩
    · exact ⟨s, hx, .inl rfl⟩
    · rw [zero] at hx
      cases hx
      exact ⟨_, negative, .inr rfl⟩
    · rw [negative] at hx
      cases hx
      exact ⟨_, zero, .inr rfl⟩
  · rintro ⟨s', hy, same⟩
    refine ⟨ne_nan_of_parts hx, ne_nan_of_parts hy, ?_⟩
    by_cases sign : s = s'
    · subst sign
      exact .inl (eq_of_parts hx hy)
    · obtain rfl := same.resolve_left sign
      obtain rfl : e = minExponent := (parts_magnitude hx).full.resolve_right (by decide)
      cases s <;> cases s'
      · exact absurd rfl sign
      · exact .inr (.inl ⟨eq_of_parts hx zero, eq_of_parts hy negative⟩)
      · exact .inr (.inr ⟨eq_of_parts hx negative, eq_of_parts hy zero⟩)
      · exact absurd rfl sign

end CellScript.Double
