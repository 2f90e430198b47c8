import CellScript.Proofs.Double.Bits

/-!
# Rounding to the nearest double

`ofRatio` chooses the exponent at which the mantissa has 53 bits, and rounds the mantissa at that
exponent. A mantissa that is rounded up to 54 bits is the first one with the next exponent, and the
bits show just that. The double it gives is the one whose interval the fraction lies in.

* `roundHalfEven_nearest` — rounding to a whole number
* `exponentFor_bounds` — the exponent
* `parts_ofRatio`, `parts_ofInt` — the double nearest to a fraction, and to a whole number
-/

namespace CellScript.Double

variable {num den m n : Nat} {e : Int} {s : Bool} {x : ℚ}

/-! ## Whole numbers -/

/-- The whole number is nearest to `x`, and even if another one is as near. -/
structure Nearest (n : Nat) (x : ℚ) : Prop where
  low : n - 1 / 2 ≤ x
  high : x ≤ n + 1 / 2
  ends : n % 2 = 1 → n - 1 / 2 < x ∧ x < n + 1 / 2

theorem roundHalfEven_bounds (num : Nat) (h : 0 < den) :
    2 * (roundHalfEven num den * den) ≤ 2 * num + den ∧
      2 * num ≤ 2 * (roundHalfEven num den * den) + den ∧ (roundHalfEven num den % 2 = 1 →
        2 * (roundHalfEven num den * den) < 2 * num + den ∧
          2 * num < 2 * (roundHalfEven num den * den) + den) := by
  have split := Nat.div_add_mod' num den
  have rest := Nat.mod_lt num h
  unfold roundHalfEven
  generalize num / den = q at *
  generalize num % den = r at *
  have up : (q + 1) * den = q * den + den := Nat.succ_mul q den
  simp only
  split
  · omega
  · split
    · omega
    · -- a tie
      rcases Nat.mod_two_eq_zero_or_one q with even | odd
      · rw [even, Nat.add_zero]
        omega
      · rw [odd, up]
        omega

theorem roundHalfEven_nearest (num : Nat) (h : 0 < den) :
    Nearest (roundHalfEven num den) (num / den) := by
  have positive : (0 : ℚ) < den := by exact_mod_cast h
  obtain ⟨low, high, ends⟩ := roundHalfEven_bounds num h
  generalize roundHalfEven num den = n at *
  have low : 2 * ((n : ℚ) * den) ≤ 2 * num + den := by exact_mod_cast low
  have high : 2 * (num : ℚ) ≤ 2 * (n * den) + den := by exact_mod_cast high
  refine ⟨?_, ?_, fun odd => ?_⟩
  · rw [le_div_iff₀ positive]
    linarith
  · rw [div_le_iff₀ positive]
    linarith
  · have low : 2 * ((n : ℚ) * den) < 2 * num + den := by exact_mod_cast (ends odd).1
    have high : 2 * (num : ℚ) < 2 * (n * den) + den := by exact_mod_cast (ends odd).2
    rw [lt_div_iff₀ positive, div_lt_iff₀ positive]
    constructor <;> linarith

/-- The mantissa is the whole number nearest to the fraction in units of its last bit. -/
theorem mantissaAt_nearest (num : Nat) (h : 0 < den) (e : Int) :
    Nearest (mantissaAt num den e) (num / den / 2 ^ e) := by
  unfold mantissaAt
  split
  · next up =>
    have nearest :=
      roundHalfEven_nearest num (Nat.mul_pos h (Nat.pow_pos Nat.two_pos) : 0 <
        den * Nat.pow 2 e.toNat)
    rwa [Nat.cast_mul, Fraction.pow_cast, Int.toNat_of_nonneg up, ← div_div] at nearest
  · next down =>
    have nearest := roundHalfEven_nearest (num * Nat.pow 2 (-e).toNat) h
    rwa [Nat.cast_mul, Fraction.pow_cast, Int.toNat_of_nonneg (by omega), zpow_neg, Nat.cast_ofNat,
      mul_div_right_comm, ← div_eq_mul_inv] at nearest

/-! ## The exponent -/

/-- The first guess is off by at most one. -/
theorem guess_bounds (hn : 0 < num) (hd : 0 < den) :
    (2 : ℚ) ^ ((num.log2 : Int) - den.log2 - 1) < num / den ∧
      (num / den : ℚ) < 2 ^ ((num.log2 : Int) - den.log2 + 1) := by
  have two : (2 : ℚ) ≠ 0 := by norm_num
  have positive : (0 : ℚ) < den := by exact_mod_cast hd
  have numLow : (2 : ℚ) ^ (num.log2 : Int) ≤ num := by exact_mod_cast Nat.log2_self_le hn.ne'
  have numHigh : (num : ℚ) < 2 ^ ((num.log2 : Int) + 1) := by
    exact_mod_cast Nat.lt_log2_self (n := num)
  have denLow : (2 : ℚ) ^ (den.log2 : Int) ≤ den := by exact_mod_cast Nat.log2_self_le hd.ne'
  have denHigh : (den : ℚ) < 2 ^ ((den.log2 : Int) + 1) := by
    exact_mod_cast Nat.lt_log2_self (n := den)
  rw [lt_div_iff₀ positive, div_lt_iff₀ positive]
  constructor
  · calc (2 : ℚ) ^ ((num.log2 : Int) - den.log2 - 1) * den
        < 2 ^ ((num.log2 : Int) - den.log2 - 1) * 2 ^ ((den.log2 : Int) + 1) :=
          mul_lt_mul_of_pos_left denHigh (two_zpow_pos _)
      _ = 2 ^ (num.log2 : Int) := by
          rw [← zpow_add₀ two]
          congr 1
          omega
      _ ≤ num := numLow
  · calc (num : ℚ) < 2 ^ ((num.log2 : Int) + 1) := numHigh
      _ = 2 ^ ((num.log2 : Int) - den.log2 + 1) * 2 ^ (den.log2 : Int) := by
          rw [← zpow_add₀ two]
          congr 1
          omega
      _ ≤ 2 ^ ((num.log2 : Int) - den.log2 + 1) * den :=
        mul_le_mul_of_nonneg_left denLow (two_zpow_pos _).le

theorem hidden_zpow (e : Int) : (hiddenBit : ℚ) * 2 ^ e = 2 ^ (e + 52) := by
  rw [zpow_add₀ (by norm_num), mul_comm]
  norm_num [hiddenBit]

theorem fits_iff (hd : 0 < den) (guess : Int) :
    (if 0 ≤ guess then den * hiddenBit * Nat.pow 2 guess.toNat ≤ num
      else den * hiddenBit ≤ num * Nat.pow 2 (-guess).toNat) ↔
      (hiddenBit : ℚ) * 2 ^ guess ≤ num / den := by
  have positive : (0 : ℚ) < den := by exact_mod_cast hd
  rw [le_div_iff₀ positive]
  split
  · next up =>
    rw [← Nat.cast_le (α := ℚ), Nat.cast_mul, Nat.cast_mul, Fraction.pow_cast,
      Int.toNat_of_nonneg up, Nat.cast_ofNat, mul_comm (den : ℚ), mul_right_comm]
  · next down =>
    rw [← Nat.cast_le (α := ℚ), Nat.cast_mul, Nat.cast_mul, Fraction.pow_cast,
      Int.toNat_of_nonneg (by omega), Nat.cast_ofNat, zpow_neg, ← div_eq_mul_inv,
        le_div_iff₀ (two_zpow_pos _), mul_comm (den : ℚ), mul_right_comm]

/-- The exponent leaves the mantissa at most 53 bits, and not fewer unless it is the least one. -/
theorem exponentFor_bounds (hn : 0 < num) (hd : 0 < den) : minExponent ≤ exponentFor num den ∧
    (num / den : ℚ) < 2 * hiddenBit * 2 ^ exponentFor num den ∧
      (exponentFor num den = minExponent ∨ hiddenBit * 2 ^ exponentFor num den ≤
      (num / den : ℚ)) := by
  obtain ⟨low, high⟩ := guess_bounds hn hd
  have twice : ∀ e : Int, 2 * hiddenBit * (2 : ℚ) ^ e = 2 ^ (e + 53) := fun e => by
    rw [mul_assoc, hidden_zpow, ← zpow_one_add₀ (by norm_num)]
    congr 1
    omega
  have full : ∃ e : Int, exponentFor num den = max e minExponent ∧ (num / den : ℚ) < 2 * hiddenBit *
      2 ^ e ∧ hiddenBit * (2 : ℚ) ^ e ≤ num / den := by
    refine ⟨_, rfl, ?_⟩
    simp only [fits_iff hd]
    generalize guess_eq : (num.log2 : Int) - den.log2 - 52 = guess
    by_cases fits : (hiddenBit : ℚ) * 2 ^ guess ≤ num / den
    · have last : guess + 53 = num.log2 - den.log2 + 1 := by omega
      rw [if_pos fits, twice, last]
      exact ⟨high, fits⟩
    · have first : guess - 1 + 53 = guess + 52 := by omega
      have last : guess - 1 + 52 = num.log2 - den.log2 - 1 := by omega
      rw [if_neg fits, twice, first, ← hidden_zpow, hidden_zpow (guess - 1), last]
      exact ⟨not_le.1 fits, low.le⟩
  obtain ⟨e, eq, upper, lower⟩ := full
  rw [eq]
  refine ⟨le_max_right .., lt_of_lt_of_le upper ?_, ?_⟩
  · rw [twice, twice]
    exact zpow_le_zpow_right₀ (by norm_num) (by omega)
  · rcases le_total e minExponent with small | large
    · exact .inl (max_eq_right small)
    · exact .inr (by rwa [max_eq_left large])

/-! ## The nearest double -/

/-- A mantissa of at most 53 bits that is nearest makes the double that the number is rounded to. -/
theorem rounds_of_nearest (nearest : Nearest n x) (full : e = minExponent ∨ hiddenBit ≤ x) :
    Rounds n e (x * 2 ^ e) := by
  have unit := two_zpow_pos e
  have lower : n - down n e / 4 ≤ x ∧ (n % 2 = 1 → n - down n e / 4 < x) := by
    unfold down
    split
    · next first =>
      rw [Bool.and_eq_true, beq_iff_eq, bne_iff_ne] at first
      have reached := full.resolve_left first.2
      rw [first.1]
      refine ⟨by linarith, fun _ => by linarith⟩
    · refine ⟨le_trans (by norm_num) nearest.low, fun odd => lt_of_le_of_lt (by norm_num)
        (nearest.ends odd).1⟩
  exact ⟨mul_le_mul_of_nonneg_right lower.1 unit.le, mul_le_mul_of_nonneg_right nearest.high
    unit.le, fun odd =>
    ⟨mul_lt_mul_of_pos_right (lower.2 odd) unit, mul_lt_mul_of_pos_right (nearest.ends odd).2 unit⟩⟩

/-- A number that is rounded up to a mantissa of 54 bits is rounded to the first double with the
next exponent. -/
theorem rounds_next (nearest : Nearest (2 * hiddenBit) x) (fits : x < 2 * hiddenBit)
    (least : minExponent ≤ e) :
    Rounds hiddenBit (e + 1) (x * 2 ^ e) := by
  have unit := two_zpow_pos e
  have step : (2 : ℚ) ^ (e + 1) = 2 * 2 ^ e := by rw [zpow_add_one₀ (by norm_num), mul_comm]
  have first : down hiddenBit (e + 1) = 1 := by
    have : e + 1 ≠ minExponent := by omega
    rw [down, if_pos (by simpa using this)]
  have low := nearest.low
  push_cast at low
  refine ⟨?_, ?_, fun odd => absurd odd (by decide)⟩
  · rw [lowEnd, step, first, ← mul_assoc]
    refine mul_le_mul_of_nonneg_right ?_ unit.le
    push_cast
    linarith
  · rw [highEnd, step, ← mul_assoc]
    refine mul_le_mul_of_nonneg_right ?_ unit.le
    linarith

/-- The bits of a fraction are those of the double it is rounded to, or of an infinite one. -/
theorem magnitudeBits_rounds (hn : 0 < num) (hd : 0 < den) :
    ∃ m e, Magnitude m e ∧ Rounds m e (num / den) ∧
    magnitudeBits num den = min (finiteBits false m e) (2047 * hiddenBit) := by
  obtain ⟨least, fits, full⟩ := exponentFor_bounds hn hd
  have nearest := mantissaAt_nearest num hd (exponentFor num den)
  have bits : magnitudeBits num den = min
      ((exponentFor num den - minExponent).toNat * hiddenBit + mantissaAt num den
        (exponentFor num den))
      (2047 * hiddenBit) := by
    have nonzero : ¬ (num == 0) = true := by
      rw [beq_iff_eq]
      omega
    simp only [magnitudeBits, if_neg nonzero]
  rw [bits]
  generalize exponentFor num den = e at *
  generalize mantissaAt num den e = n at *
  have unit := two_zpow_pos e
  obtain ⟨x, value⟩ : ∃ x : ℚ, (num : ℚ) / den = x * 2 ^ e := ⟨_, (div_mul_cancel₀ _ unit.ne').symm⟩
  rw [value, mul_div_cancel_right₀ x unit.ne'] at nearest
  rw [value, mul_lt_mul_iff_left₀ unit] at fits
  rw [value, mul_le_mul_iff_left₀ unit] at full
  rw [value]
  have low := nearest.low
  have high := nearest.high
  have atMost : n ≤ 2 * hiddenBit := by
    have : (n : ℚ) < 2 * hiddenBit + 1 := by linarith
    have : n < 2 * hiddenBit + 1 := by exact_mod_cast this
    omega
  rcases Nat.lt_or_eq_of_le atMost with less | rfl
  · have atLeast : e = minExponent ∨ hiddenBit ≤ n := full.imp_right fun full => by
      have : (hiddenBit : ℚ) < n + 1 := by linarith
      have : hiddenBit < n + 1 := by exact_mod_cast this
      omega
    refine ⟨n, e, ⟨less, least, atLeast⟩, rounds_of_nearest nearest full, ?_⟩
    rw [finiteBits, if_neg (by decide), Nat.zero_add]
  · have place : (e - minExponent).toNat * hiddenBit + 2 * hiddenBit =
        finiteBits false hiddenBit (e + 1) := by
      have next : (e + 1 - minExponent).toNat = (e - minExponent).toNat + 1 := by omega
      rw [finiteBits, if_neg (by decide), next]
      ring
    exact ⟨hiddenBit, e + 1, ⟨by decide, by omega, .inr (Nat.le_refl _)⟩,
      rounds_next nearest fits least, by
      rw [place]⟩

/-- **A fraction becomes the double it is rounded to**, an infinite one beyond the greatest
double. -/
theorem parts_ofRatio (s : Bool) (hn : 0 < num) (hd : 0 < den) : ∃ m e, Magnitude m e ∧
    Rounds m e (num / den) ∧ parts (ofRatio s num den) = if e ≤
      971 then .finite s m e else .infinite s := by
  obtain ⟨m, e, magnitude, rounds, bits⟩ := magnitudeBits_rounds hn hd
  refine ⟨m, e, magnitude, rounds, ?_⟩
  have half : hiddenBit = 4503599627370496 := by decide
  have high : Nat.pow 2 63 = 9223372036854775808 := by decide
  have least : minExponent = -1074 := rfl
  have bottom := magnitude.least
  have fits := magnitude.fits
  have full := magnitude.full
  by_cases top : e ≤ 971
  · have finite :
        min (finiteBits false m e) (2047 * hiddenBit) =
          (e - minExponent).toNat * hiddenBit + m := by
      rw [finiteBits, if_neg (by decide), Nat.zero_add, Nat.min_eq_left]
      rw [half] at *
      omega
    have small : finiteBits s m e < 2 ^ 64 := by
      rw [finiteBits, high]
      rw [half] at *
      split <;> omega
    have read := (partsOfBits_iff small).2 ⟨magnitude, top, rfl⟩
    rw [ofRatio, bits, finite, ← finiteBits, parts_ofBits small (by rw [read]; intro h; cases h),
      read, if_pos top]
  · have infinite : min (finiteBits false m e) (2047 * hiddenBit) = 2047 * hiddenBit + 0 := by
      rw [finiteBits, if_neg (by decide), Nat.zero_add, Nat.min_eq_right, Nat.add_zero]
      rw [half] at *
      omega
    have small : bitsOf s 2047 0 < 2 ^ 64 := by cases s <;> decide
    have read : partsOfBits (bitsOf s 2047 0) = .infinite s :=
      partsOfBits_bitsOf (by decide) (by decide)
    rw [ofRatio, bits, infinite, ← bitsOf, parts_ofBits small (by rw [read]; intro h; cases h),
      read, if_neg top]

/-- **A whole number below `2 ^ 64` becomes the double it is rounded to.** -/
theorem parts_ofInt {k : Int} (small : k.natAbs < 2 ^ 64) :
    ∃ m e, Magnitude m e ∧ Rounds m e k.natAbs ∧ parts (ofInt k) = .finite (k < 0) m e := by
  rcases Nat.eq_zero_or_pos k.natAbs with zero | positive
  · obtain rfl := Int.natAbs_eq_zero.1 zero
    have read : parts (ofInt 0) = .finite false 0 minExponent := by decide
    refine ⟨0, minExponent, ⟨by decide, Int.le_refl _, .inl rfl⟩, ?_, read⟩
    have value : number 0 minExponent = (0 : Int).natAbs := by simp [number]
    exact value ▸ rounds_self
  · obtain ⟨m, e, magnitude, rounds, read⟩ := parts_ofRatio (k < 0) positive Nat.one_pos
    rw [Nat.cast_one, div_one] at rounds
    have finite : e ≤ 971 := by
      by_contra beyond
      have least : minExponent = -1074 := rfl
      have full : hiddenBit ≤ m := magnitude.full.resolve_left (by omega)
      have mantissa : (hiddenBit : ℚ) ≤ m := by exact_mod_cast full
      have reach : (down m e : ℚ) ≤ 2 := by exact_mod_cast down_le
      have unit : (2 : ℚ) ^ (64 : Int) ≤ 2 ^ e := zpow_le_zpow_right₀ (by norm_num) (by omega)
      have low : (1 : ℚ) * 2 ^ e ≤ k.natAbs := by
        refine le_trans (mul_le_mul_of_nonneg_right ?_ (two_zpow_pos e).le) rounds.low
        have : (hiddenBit : ℚ) = 4503599627370496 := by norm_num [hiddenBit]
        linarith
      have less : (k.natAbs : ℚ) < 18446744073709551616 := by exact_mod_cast small
      norm_num at unit
      linarith
    rw [if_pos finite] at read
    exact ⟨m, e, magnitude, rounds, read⟩

/-! ## Signed numbers -/

/-- The double is the one that a number of either sign is rounded to. Zero is zero with both
signs. -/
def RoundsTo (d : Float) (x : ℚ) : Prop :=
  ∃ s m e, parts d = .finite s m e ∧ Rounds m e |x| ∧ (s = decide (x < 0) ∨ m = 0)

/-- The doubles that a number is rounded to are equal, and no other double is equal to them. -/
theorem RoundsTo.beq_iff {c d : Float} (h : RoundsTo c x) : (c == d) = true ↔ RoundsTo d x := by
  obtain ⟨s, m, e, hc, rounds, sign⟩ := h
  rw [Double.beq_iff hc]
  constructor
  · rintro ⟨s', hd, same⟩
    refine ⟨s', m, e, hd, rounds, ?_⟩
    rcases same with rfl | zero
    · exact sign
    · exact .inr zero
  · rintro ⟨s', m', e', hd, rounds', sign'⟩
    obtain ⟨rfl, rfl⟩ := rounds.unique (parts_magnitude hc) (parts_magnitude hd) rounds'
    refine ⟨s', hd, ?_⟩
    rcases sign with sign | zero
    · exact sign'.imp_left fun sign' => sign.trans sign'.symm
    · exact .inr zero

/-- An integer becomes the double it is rounded to. -/
theorem roundsTo_ofInt {k : Int} (small : k.natAbs < 2 ^ 64) : RoundsTo (ofInt k) k := by
  obtain ⟨m, e, -, rounds, read⟩ := parts_ofInt small
  refine ⟨_, m, e, read, ?_, .inl ?_⟩
  · rwa [Nat.cast_natAbs, Int.cast_abs] at rounds
  · rw [decide_eq_decide, Int.cast_lt_zero]

end CellScript.Double
