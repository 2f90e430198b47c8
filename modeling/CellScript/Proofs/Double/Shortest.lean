import CellScript.Decimal.Text
import CellScript.Proofs.Decimal.Number
import CellScript.Proofs.Double.Nearest

/-!
# The shortest decimal of a double

With 17 digits the decimal grid is finer than the doubles around the number, so that one of the two
grid points next to it is rounded to the double again: the search always ends with a decimal. Every
decimal it can end with is rounded to the double, and for a whole number of at most 2 ^ 53 it is the
number itself.

* `Candidate` — what the search takes at one number of digits
* `shortest_rounds` — the shortest decimal is rounded to its double
* `shortest_whole` — whole numbers are written in full
-/

namespace CellScript.Double

open Decimal (ten_zpow_pos ten_zpow_add pow_length_repr_le)

/-- The number `digits · 10 ^ exponent`. -/
def Scientific.toRat (s : Scientific) : ℚ := s.digits * (10 : ℚ) ^ s.exponent

variable {tie : Tie} {m n : Nat} {e top grid : Int} {count fuel : Nat} {s : Scientific}
  {value : Fraction} {interval : Interval}

/-- Trailing zeros do not matter. -/
theorem strip_toRat (fuel : Nat) (s : Scientific) : (s.strip fuel).toRat = s.toRat := by
  induction fuel generalizing s with
  | zero => rfl
  | succ fuel ih =>
    unfold Scientific.strip
    split
    · next trailing =>
      rw [Bool.and_eq_true, beq_iff_eq] at trailing
      have digits : s.digits / 10 * 10 = s.digits :=
        Nat.div_mul_cancel (Nat.dvd_of_mod_eq_zero trailing.2)
      rw [ih, Scientific.toRat, Scientific.toRat, Int.add_comm, ten_zpow_add, ← mul_assoc, zpow_one]
      congr 1
      exact_mod_cast digits
    · rfl

/-! ## One number of digits -/

/-- The point of the decimal grid below a value. -/
def below (value : Fraction) (grid : Int) : Nat := value.floorDiv (.scaled 1 10 grid)

/-- The decimal of a grid that is taken: one of the two grid points next to the value, and in the
interval. The one above is not taken when the value is nearer to the one below and that one is in
the interval. -/
structure Candidate (value : Fraction) (interval : Interval) (grid : Int)
    (s : Scientific) : Prop where
  exponent : s.exponent = grid
  hit : interval.mem (.scaled s.digits 10 grid) = true
  side : s.digits = below value grid ∨
    (interval.mem (.scaled (below value grid) 10 grid) = true →
      value.lt (.scaled (10 * below value grid + 5) 10 (grid - 1)) = false)

theorem withDigits?_candidate (h : withDigits? tie value interval top count = some s) :
    Candidate value interval (top - count + 1) s := by
  cases lower : interval.mem (.scaled (below value (top - count + 1)) 10 (top - count + 1)) <;>
    cases upper : interval.mem (.scaled (below value (top - count + 1) + 1) 10
      (top - count + 1)) <;>
    simp only [withDigits?, ← below.eq_1, lower, upper] at h
  · cases h
  · cases h
    exact ⟨rfl, upper, .inr fun hit => by rw [lower] at hit; cases hit⟩
  · cases h
    exact ⟨rfl, lower, .inl rfl⟩
  · split at h
    · cases h
      exact ⟨rfl, lower, .inl rfl⟩
    · next notNearer =>
      rw [Bool.not_eq_true] at notNearer
      have taken : s = ⟨below value (top - count + 1), top - count + 1⟩ ∨
          s = ⟨below value (top - count + 1) + 1, top - count + 1⟩ := by
        split at h
        · cases h
          exact .inr rfl
        · cases tie with
          | up =>
            cases h
            exact .inr rfl
          | even =>
            cases h
            rcases Nat.mod_two_eq_zero_or_one (below value (top - count + 1)) with even | odd
            · rw [even]
              exact .inl rfl
            · rw [odd]
              exact .inr rfl
      rcases taken with rfl | rfl
      · exact ⟨rfl, lower, .inl rfl⟩
      · exact ⟨rfl, upper, .inr fun _ => notNearer⟩

/-- Nothing is taken only when neither grid point next to the value is in the interval. -/
theorem withDigits?_eq_none (h : withDigits? tie value interval top count = none) :
    interval.mem (.scaled (below value (top - count + 1)) 10 (top - count + 1)) = false ∧
      interval.mem (.scaled (below value (top - count + 1) + 1) 10 (top - count + 1)) = false := by
  cases lower : interval.mem (.scaled (below value (top - count + 1)) 10 (top - count + 1)) <;>
    cases upper : interval.mem (.scaled (below value (top - count + 1) + 1) 10
      (top - count + 1)) <;>
    simp only [withDigits?, ← below.eq_1, lower, upper] at h
  · exact ⟨rfl, rfl⟩
  · cases h
  · cases h
  · split at h
    · cases h
    · split at h
      · cases h
      · cases tie <;> cases h

/-! ## The grid of a number -/

theorem scaled_ten_toRat : (Fraction.scaled n 10 grid).toRat = n * (10 : ℚ) ^ grid :=
  Fraction.scaled_toRat

/-- The value lies between the grid point below it and the next one. -/
theorem below_bounds (h : 0 < value.den) (grid : Int) :
    below value grid * (10 : ℚ) ^ grid ≤ value.toRat ∧
      value.toRat < (below value grid + 1) * (10 : ℚ) ^ grid := by
  have num : 0 < (Fraction.scaled 1 10 grid).num := by
    unfold Fraction.scaled
    split
    · exact Nat.mul_pos Nat.one_pos (Nat.pow_pos (by decide))
    · exact Nat.one_pos
  have bounds := Fraction.floorDiv_bounds h num (Fraction.scaled_den_pos (by decide))
  rwa [scaled_ten_toRat, Nat.cast_one, one_mul] at bounds

/-- A value on the grid is its own grid point below. -/
theorem below_eq (h : 0 < value.den) (on : value.toRat = n * (10 : ℚ) ^ grid) :
    below value grid = n := by
  have bounds := below_bounds h grid
  have positive := ten_zpow_pos grid
  rw [on, mul_le_mul_iff_left₀ positive, mul_lt_mul_iff_left₀ positive] at bounds
  have upper : n < below value grid + 1 := by exact_mod_cast bounds.2
  have lower : below value grid ≤ n := by exact_mod_cast bounds.1
  omega

/-- A value on the grid is taken as it is. -/
theorem Candidate.exact (c : Candidate value interval grid s) (h : 0 < value.den)
    (self : interval.mem (.scaled n 10 grid) = true) (on : value.toRat = n * (10 : ℚ) ^ grid) :
    s.toRat = value.toRat := by
  have lower := below_eq h on
  have digits : s.digits = n := by
    rcases c.side with side | side
    · exact side.trans lower
    · have notNearer := side (by rwa [lower])
      have nearer : value.lt (.scaled (10 * below value grid + 5) 10 (grid - 1)) = true := by
        have step : (10 : ℚ) ^ grid = 10 * 10 ^ (grid - 1) := by
          rw [← zpow_one_add₀ (by norm_num), add_sub_cancel]
        rw [Fraction.lt_iff h (Fraction.scaled_den_pos (by decide)), scaled_ten_toRat,
          on, lower, step]
        have positive := ten_zpow_pos (grid - 1)
        push_cast
        linarith
      rw [nearer] at notNearer
      cases notNearer
  rw [Scientific.toRat, c.exponent, digits, on]

/-- A value that is not below `10 ^ -400` reaches the power of ten that its order names. -/
theorem order_le (den : 0 < value.den) (h : value.den ≤ value.num * Nat.pow 10 400) :
    (10 : ℚ) ^ order value ≤ value.toRat := by
  unfold order
  generalize places_eq : 400 = places at *
  have whole : value.num * Nat.pow 10 places / value.den ≠ 0 := (Nat.div_pos h den).ne'
  have digits := Nat.mul_le_of_le_div _ _ _ (pow_length_repr_le whole)
  have some_ : 0 < (Nat.repr (value.num * Nat.pow 10 places / value.den)).length :=
    Nat.length_repr_pos
  generalize (Nat.repr (value.num * Nat.pow 10 places / value.den)).length = length at *
  have split : (length : Int) - 401 = ((length - 1 : Nat) : Int) - places := by omega
  rw [split, zpow_sub₀ (by norm_num), zpow_natCast, zpow_natCast, Fraction.toRat,
    div_le_div_iff₀ (by positivity) (by exact_mod_cast den)]
  exact_mod_cast digits

/-! ## Seventeen digits -/

theorem value_toRat : (Fraction.scaled m 2 e).toRat = number m e := Fraction.scaled_toRat

/-- Doubles other than zero are not below `10 ^ -400`. -/
theorem scaled_two_large (positive : 0 < m) (h : Magnitude m e) :
    (Fraction.scaled m 2 e).den ≤ (Fraction.scaled m 2 e).num * Nat.pow 10 400 := by
  have least : -1074 ≤ e := h.least
  generalize places_eq : 400 = places
  unfold Fraction.scaled
  split
  · exact Nat.mul_pos (Nat.mul_pos positive (Nat.pow_pos Nat.two_pos)) (Nat.pow_pos (by decide))
  · have tens : Nat.pow 2 (3 * places) ≤ Nat.pow 10 places := by
      rw [Nat.pow_eq, Nat.pow_mul]
      exact Nat.pow_le_pow_left (by decide) places
    calc Nat.pow 2 (-e).toNat ≤ Nat.pow 2 (3 * places) :=
        Nat.pow_le_pow_right Nat.two_pos (by omega)
      _ ≤ Nat.pow 10 places := tens
      _ ≤ m * Nat.pow 10 places := Nat.le_mul_of_pos_left _ positive

/-- With 17 digits the grid has a point that is rounded to the double. -/
theorem withDigits?_seventeen (positive : 0 < m) (h : Magnitude m e) :
    withDigits? tie (.scaled m 2 e) (roundingInterval m e) (order (.scaled m 2 e)) 17 ≠ none := by
  intro none_
  have den : 0 < (Fraction.scaled m 2 e).den := Fraction.scaled_den_pos Nat.two_pos
  obtain ⟨lower, upper⟩ := withDigits?_eq_none none_
  generalize grid_eq : order (.scaled m 2 e) - ((17 : Nat) : Int) + 1 = grid at lower upper
  have bounds := below_bounds den grid
  rw [value_toRat] at bounds
  rw [← Bool.not_eq_true, roundingInterval_mem positive (Fraction.scaled_den_pos (by decide)),
    scaled_ten_toRat] at lower upper
  push_cast at upper
  -- both points lie outside the interval
  have left : below (.scaled m 2 e) grid * (10 : ℚ) ^ grid ≤ lowEnd m e := by
    by_contra inside
    exact lower (.of_between (not_le.1 inside) (lt_of_le_of_lt bounds.1 number_lt_highEnd))
  have right : highEnd m e ≤ (below (.scaled m 2 e) grid + 1) * (10 : ℚ) ^ grid := by
    by_contra inside
    exact upper (.of_between (lowEnd_lt_number.trans bounds.2) (not_le.1 inside))
  -- but the unit of the grid is small next to the double
  have unit : 10 ^ 16 * (10 : ℚ) ^ grid ≤ m * 2 ^ e := by
    have least := order_le den (scaled_two_large positive h)
    have split : order (.scaled m 2 e) = 16 + grid := by omega
    rwa [value_toRat, number, split, ten_zpow_add] at least
  have wide : 10 ^ 16 * (2 + down m e) ≤ 4 * m := by
    have scaled : (10 ^ 16 * (2 + down m e)) * (2 : ℚ) ^ e ≤ 4 * m * 2 ^ e := by
      rw [lowEnd] at left
      rw [highEnd] at right
      linarith
    exact_mod_cast le_of_mul_le_mul_right scaled (two_zpow_pos _)
  have fits := h.fits
  have bits : hiddenBit = 4503599627370496 := by decide
  unfold down at wide
  split at wide
  · next bottom =>
    rw [Bool.and_eq_true, beq_iff_eq] at bottom
    omega
  · omega

/-! ## The search -/

theorem shortest_zero : (shortest tie 0 e).toRat = 0 := by
  rw [shortest, if_pos (by decide), Scientific.toRat, Nat.cast_zero, zero_mul]

/-- The search ends with a candidate of one of the grids. -/
theorem shortest_candidate (tie : Tie) (positive : 0 < m) (h : Magnitude m e) :
    ∃ grid s, Candidate (.scaled m 2 e) (roundingInterval m e) grid s ∧
      (shortest tie m e).toRat = s.toRat := by
  have nonzero : ¬ (m == 0) = true := by
    rw [beq_iff_eq]
    omega
  rw [shortest, if_neg nonzero]
  cases found : (List.range 17).findSome? fun i => withDigits? tie (.scaled m 2 e)
      (roundingInterval m e) (order (.scaled m 2 e)) (i + 1) with
  | none =>
    rw [List.findSome?_eq_none_iff] at found
    exact absurd (found 16 (by decide)) (withDigits?_seventeen positive h)
  | some s =>
    obtain ⟨i, -, taken⟩ := List.exists_of_findSome?_eq_some found
    refine ⟨_, s, withDigits?_candidate taken, ?_⟩
    simp only [found]
    exact strip_toRat 17 s

theorem Candidate.rounds (c : Candidate value (roundingInterval m e) grid s) (positive : 0 < m) :
    Rounds m e s.toRat := by
  have hit := (roundingInterval_mem positive (Fraction.scaled_den_pos (by decide))).1 c.hit
  rwa [scaled_ten_toRat, ← c.exponent] at hit

/-- **The shortest decimal of a double is rounded to it.** -/
theorem shortest_rounds (tie : Tie) (h : Magnitude m e) : Rounds m e (shortest tie m e).toRat := by
  rcases Nat.eq_zero_or_pos m with rfl | positive
  · have zero : number 0 e = (shortest tie 0 e).toRat := by
      rw [shortest_zero, number, Nat.cast_zero, zero_mul]
    exact zero ▸ rounds_self
  · obtain ⟨grid, s, c, eq⟩ := shortest_candidate tie positive h
    exact eq ▸ c.rounds positive

/-- A double with an exponent of at most zero is a whole number that no other whole number is
rounded to. -/
theorem Rounds.eq_of_fine {k : Nat} (whole : number m e = n) (fine : e ≤ 0)
    (r : Rounds m e k) : k = n := by
  have reach : (down m e : ℚ) ≤ 2 := by exact_mod_cast down_le
  have unit : (2 : ℚ) ^ e ≤ 1 := zpow_le_one_of_nonpos₀ (by norm_num) fine
  have below : down m e / 4 * (2 : ℚ) ^ e ≤ 2 / 4 * 2 ^ e :=
    mul_le_mul_of_nonneg_right (by linarith) (two_zpow_pos e).le
  have low := r.low
  have high := r.high
  rw [number] at whole
  rw [lowEnd, sub_mul, whole] at low
  rw [highEnd, add_mul, whole] at high
  have lower : (n : ℚ) < k + 1 := by linarith
  have upper : (k : ℚ) < n + 1 := by linarith
  have lower : n < k + 1 := by exact_mod_cast lower
  have upper : k < n + 1 := by exact_mod_cast upper
  omega

/-- Of the whole numbers up to `2 ^ 53` only the last one has an exponent above zero. -/
theorem Magnitude.eq_of_coarse (h : Magnitude m e) (whole : number m e = n) (small : n ≤ 2 ^ 53)
    (coarse : 0 < e) : m = hiddenBit ∧ e = 1 := by
  have bits : hiddenBit = 4503599627370496 := by decide
  have least : minExponent = -1074 := rfl
  have full : hiddenBit ≤ m := h.full.resolve_left (by omega)
  rw [number] at whole
  obtain rfl : e = 1 := by
    by_contra other
    have unit : (2 : ℚ) ^ (2 : Int) ≤ 2 ^ e := zpow_le_zpow_right₀ (by norm_num) (by omega)
    norm_num at unit
    have large : (m : ℚ) * 4 ≤ n := by
      rw [← whole]
      exact mul_le_mul_of_nonneg_left unit (Nat.cast_nonneg m)
    have large : m * 4 ≤ n := by exact_mod_cast large
    omega
  rw [zpow_one] at whole
  have double : m * 2 = n := by exact_mod_cast whole
  exact ⟨by omega, rfl⟩

/-- Next to `2 ^ 53` only one more whole number is rounded to it. -/
theorem Rounds.last_bounds {k : Nat} (r : Rounds hiddenBit 1 k) :
    k = 2 * hiddenBit ∨ k = 2 * hiddenBit + 1 := by
  have first : down hiddenBit 1 = 1 := by decide
  have low := r.low
  have high := r.high
  rw [lowEnd, first, zpow_one, Nat.cast_one] at low
  rw [highEnd, zpow_one] at high
  have lower : 2 * (hiddenBit : ℚ) < k + 1 := by linarith
  have upper : (k : ℚ) ≤ 2 * hiddenBit + 1 := by linarith
  have lower : 2 * hiddenBit < k + 1 := by exact_mod_cast lower
  have upper : k ≤ 2 * hiddenBit + 1 := by exact_mod_cast upper
  omega

/-- Among the whole numbers up to `2 ^ 53` a multiple of ten is rounded to no other whole number. -/
theorem Rounds.eq_of_whole {k : Nat} (h : Magnitude m e) (whole : number m e = n)
    (small : n ≤ 2 ^ 53) (ten : k % 10 = 0) (r : Rounds m e k) : k = n := by
  rcases le_or_gt e 0 with fine | coarse
  · exact r.eq_of_fine whole fine
  · obtain ⟨rfl, rfl⟩ := h.eq_of_coarse whole small coarse
    -- neither `2 ^ 53` nor the number after it ends in zero
    have bits : hiddenBit = 4503599627370496 := by decide
    have near := r.last_bounds
    omega

/-- **A whole number of at most `2 ^ 53` is its own shortest decimal.** -/
theorem shortest_whole (tie : Tie) (h : Magnitude m e) (whole : number m e = n)
    (small : n ≤ 2 ^ 53) :
    (shortest tie m e).toRat = n := by
  rcases Nat.eq_zero_or_pos m with rfl | positive
  · rw [shortest_zero, ← whole, number, Nat.cast_zero, zero_mul]
  · obtain ⟨grid, s, c, eq⟩ := shortest_candidate tie positive h
    have den : 0 < (Fraction.scaled m 2 e).den := Fraction.scaled_den_pos Nat.two_pos
    rw [eq, ← whole]
    by_cases fine : grid ≤ 0
    · -- the number is on the grid
      have on : (Fraction.scaled m 2 e).toRat = (n * 10 ^ (-grid).toNat : Nat) *
          (10 : ℚ) ^ grid := by
        rw [value_toRat, whole]
        push_cast
        rw [← zpow_natCast, Int.toNat_of_nonneg (by omega), mul_assoc, ← ten_zpow_add,
          Int.add_left_neg, zpow_zero, mul_one]
      refine (c.exact den ?_ on).trans value_toRat
      rw [roundingInterval_mem positive (Fraction.scaled_den_pos (by decide)), scaled_ten_toRat,
        ← on, value_toRat]
      exact rounds_self
    · -- the grid has multiples of ten only
      have multiple : s.toRat = (s.digits * 10 ^ grid.toNat : Nat) := by
        push_cast
        rw [Scientific.toRat, c.exponent, ← zpow_natCast, Int.toNat_of_nonneg (by omega)]
      have ten : s.digits * 10 ^ grid.toNat % 10 = 0 := by
        obtain ⟨k, hk⟩ : ∃ k, grid.toNat = k + 1 := ⟨grid.toNat - 1, by omega⟩
        rw [hk, Nat.pow_succ, ← Nat.mul_assoc, Nat.mul_mod_left]
      rw [multiple, whole, (multiple ▸ c.rounds positive : Rounds m e _).eq_of_whole h
        whole small ten]

/-! ## Doubles as decimals -/

/-- Whole numbers of at most `2 ^ 53` are doubles. -/
theorem exists_number (small : n ≤ 2 ^ 53) : ∃ m e, Magnitude m e ∧ number m e = n := by
  have half : hiddenBit = 2 ^ 52 := rfl
  rcases Nat.eq_zero_or_pos n with rfl | positive
  · exact ⟨0, minExponent,
      ⟨by decide, Int.le_refl _, .inl rfl⟩, by rw [number, Nat.cast_zero, zero_mul]⟩
  · have low := Nat.log2_self_le positive.ne'
    have high := Nat.lt_log2_self (n := n)
    generalize n.log2 = k at low high
    rcases Nat.lt_or_ge 52 k with large | fits
    · obtain rfl : n = 2 ^ 53 :=
        Nat.le_antisymm small ((Nat.pow_le_pow_right Nat.two_pos large).trans low)
      refine ⟨hiddenBit, 1, ⟨by decide, by decide, .inr (Nat.le_refl _)⟩, ?_⟩
      rw [number, half]
      norm_num
    · have full : 2 ^ 52 = 2 ^ k * 2 ^ (52 - k) := by rw [← Nat.pow_add, Nat.add_sub_cancel' fits]
      have most : 2 * 2 ^ 52 = 2 ^ (k + 1) * 2 ^ (52 - k) := by rw [full, Nat.pow_succ]; ring
      refine ⟨n * 2 ^ (52 - k), k - 52, ⟨?_, by rw [minExponent]; omega, .inr ?_⟩, ?_⟩
      · rw [half, most]
        exact Nat.mul_lt_mul_of_pos_right high (Nat.pow_pos Nat.two_pos)
      · rw [half, full]
        exact Nat.mul_le_mul_right _ low
      · rw [number, Nat.cast_mul, Nat.cast_pow, ← zpow_natCast, mul_assoc, Nat.cast_ofNat,
          ← zpow_add₀ (by norm_num)]
        have cancel : ((52 - k : Nat) : Int) + (k - 52) = 0 := by omega
        rw [cancel, zpow_zero, mul_one]

theorem shortest_nonneg : 0 ≤ (shortest tie m e).toRat :=
  mul_nonneg (Nat.cast_nonneg _) (ten_zpow_pos _).le

/-- The decimal of a double is its shortest one with its sign. -/
theorem toDecimal?_eq {x : Float} {negative : Bool} (h : parts x = .finite negative m e) :
    ∃ d, toDecimal? x = some d ∧
      d.toRat = if negative then -(shortest .up m e).toRat else (shortest .up m e).toRat := by
  refine ⟨_, by simp only [toDecimal?, h]; rfl, ?_⟩
  generalize shortest .up m e = s
  have filled :
      ((s.digits * Int.pow 10 s.exponent.toNat : Int) : ℚ) * 10 ^
        (-max 0 (-s.exponent)) = s.toRat := by
    rw [Scientific.toRat, Int.cast_mul, Int.cast_natCast, mul_assoc]
    rcases le_total 0 s.exponent with up | down
    · rw [Decimal.ten_pow_toNat up, max_eq_left (by omega), ← ten_zpow_add, neg_zero, add_zero]
    · have one : s.exponent.toNat = 0 := by omega
      rw [one, max_eq_right (by omega), neg_neg]
      exact congrArg _ (one_mul _)
  rw [Decimal.toRat]
  cases negative
  · exact filled
  · rw [if_pos rfl, if_pos rfl, Int.cast_neg, neg_mul, filled]

/-- **A double is the one that its decimal is rounded to.** -/
theorem roundsTo_toDecimal? {x : Float} {d : Decimal} (h : toDecimal? x = some d) :
    RoundsTo x d.toRat := by
  cases read : parts x with
  | nan => simp [toDecimal?, read] at h
  | infinite => simp [toDecimal?, read] at h
  | finite negative m e =>
    obtain ⟨d', decimal, value⟩ := toDecimal?_eq read
    obtain rfl : d' = d := Option.some_inj.1 (decimal.symm.trans h)
    have magnitude := parts_magnitude read
    have rounds := shortest_rounds .up magnitude
    refine ⟨negative, m, e, read, ?_, ?_⟩
    · have size : |d'.toRat| = (shortest .up m e).toRat := by
        rw [value]
        split
        · rw [abs_neg, abs_of_nonneg shortest_nonneg]
        · exact abs_of_nonneg shortest_nonneg
      rwa [size]
    · rcases Nat.eq_zero_or_pos m with zero | positive
      · exact .inr zero
      · have above := rounds.pos positive
        left
        rw [value]
        cases negative
        · simpa using above.le
        · simpa using above

/-- **The decimal of a double that a whole number of at most `2 ^ 53` is rounded to is that
number.** -/
theorem toDecimal?_of_roundsTo {x : Float} {d : Decimal} {k : Int} (h : toDecimal? x = some d)
    (r : RoundsTo x k) (small : k.natAbs ≤ 2 ^ 53) : d.toRat = k := by
  obtain ⟨negative, m, e, read, rounds, sign⟩ := r
  obtain ⟨d', decimal, value⟩ := toDecimal?_eq read
  obtain rfl : d' = d := Option.some_inj.1 (decimal.symm.trans h)
  have magnitude := parts_magnitude read
  have whole : number m e = k.natAbs := by
    obtain ⟨m', e', magnitude', exact_⟩ := exists_number small
    have self : Rounds m' e' |(k : ℚ)| := by
      rw [← Int.cast_abs, ← Nat.cast_natAbs, ← exact_]
      exact rounds_self
    obtain ⟨rfl, rfl⟩ := rounds.unique magnitude magnitude' self
    exact exact_
  rw [value, shortest_whole .up magnitude whole small, Nat.cast_natAbs, Int.cast_abs]
  rcases sign with rfl | rfl
  · by_cases below : (k : ℚ) < 0
    · rw [if_pos (by simpa using below), abs_of_neg below, neg_neg]
    · rw [if_neg (by simpa using below), abs_of_nonneg (not_lt.1 below)]
  · have zero : k = 0 := by
      rw [number, Nat.cast_zero, zero_mul] at whole
      exact Int.natAbs_eq_zero.1 (by exact_mod_cast whole.symm)
    rw [zero]
    simp

/-- Equal doubles have the same decimal. -/
theorem toDecimal?_of_beq {x y : Float} {c d : Decimal} (hx : toDecimal? x = some c)
    (hy : toDecimal? y = some d) (h : (x == y) = true) : c.toRat = d.toRat := by
  obtain ⟨negative, m, e, read, -, -⟩ := roundsTo_toDecimal? hx
  obtain ⟨negative', read', same⟩ := (beq_iff read).1 h
  obtain ⟨c', left, value⟩ := toDecimal?_eq read
  obtain ⟨d', right, value'⟩ := toDecimal?_eq read'
  obtain rfl : c' = c := Option.some_inj.1 (left.symm.trans hx)
  obtain rfl : d' = d := Option.some_inj.1 (right.symm.trans hy)
  rw [value, value']
  rcases same with rfl | rfl
  · rfl
  · simp [shortest_zero]

end CellScript.Double
