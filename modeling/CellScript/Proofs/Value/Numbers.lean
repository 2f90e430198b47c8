import CellScript.Proofs.Double.Shortest
import CellScript.Proofs.Value.Equality

/-!
# Equality of numbers across kinds

Every number is exactly one decimal: a double its shortest one. Next to each other numbers are equal
when these decimals are, with one exception: a long next to a double is rounded first. Up to 2 ^ 53
the rounding changes nothing, beyond it `==` is not transitive.

* `long_equals_double` — a long next to a double
* `equals_iff_exact` — all other pairs, and longs up to 2 ^ 53
* `numbers_equal_trans` — transitivity
* `equals_not_transitive` — where it ends
-/

namespace CellScript.Value

open Double (RoundsTo)

variable {a b c : Value} {x y z : ℚ}

/-- The number that a long, a finite double or a decimal stands for. -/
def rational? (v : Value) : Option ℚ := (exactDecimal? v).map Decimal.toRat

/-- A long beyond `2 ^ 53` next to a double: it is rounded. -/
def Rounded : Value → Value → Prop
  | long n, double _ | double _, long n => 2 ^ 53 < n.toInt.natAbs
  | _, _ => False

/-- What the three kinds of numbers stand for. -/
inductive StandsFor : Value → Decimal → Prop
  | long (n : Int64) : StandsFor (long n) (.ofInt n.toInt)
  | double {d : Float} {e : Decimal} (h : Double.toDecimal? d = some e) : StandsFor (double d) e
  | decimal (e : Decimal) : StandsFor (decimal e) e

theorem standsFor_of_rational? (h : a.rational? = some x) : ∃ d, StandsFor a d ∧ d.toRat = x := by
  obtain ⟨d, decimal, rfl⟩ := Option.map_eq_some_iff.1 h
  refine ⟨d, ?_, rfl⟩
  cases a with
  | long n =>
    cases decimal
    exact .long n
  | double => exact .double decimal
  | decimal =>
    cases decimal
    exact .decimal d
  | _ => cases decimal

theorem natAbs_toInt_lt (n : Int64) : n.toInt.natAbs < 2 ^ 64 := by
  have := n.le_toInt
  have := n.toInt_lt
  omega

theorem compareDoubles?_eq_iff (x y : Float) : compareDoubles? x y = some .eq ↔
    (x == y) = true := by
  unfold compareDoubles?
  constructor
  · intro h
    split at h
    · cases h
    · split at h
      · assumption
      · split at h <;> cases h
  · intro h
    rw [if_neg (Double.not_lt_of_beq h), if_pos h]

/-- **A long is equal to the doubles that it is rounded to.** -/
theorem long_equals_double (n : Int64) (d : Float) :
    (long n).equals (double d) = true ↔ RoundsTo d n.toInt := by
  have compared :
      (long n).equals (double d) = (compareDoubles? (Double.ofInt n.toInt) d == some .eq) := rfl
  rw [compared, beq_iff_eq, compareDoubles?_eq_iff,
    (Double.roundsTo_ofInt (natAbs_toInt_lt n)).beq_iff]

theorem double_equals_long (n : Int64) (d : Float) :
    (double d).equals (long n) = true ↔ RoundsTo d n.toInt := by
  have compared :
      (double d).equals (long n) = (compareDoubles? d (Double.ofInt n.toInt) == some .eq) := rfl
  rw [compared, beq_iff_eq, compareDoubles?_eq_iff, BEq.comm,
    (Double.roundsTo_ofInt (natAbs_toInt_lt n)).beq_iff]

theorem double_equals_double (c d : Float) : (double c).equals (double d) = true ↔
    (c == d) = true := by
  have compared : (double c).equals (double d) = (compareDoubles? c d == some .eq) := rfl
  rw [compared, beq_iff_eq, compareDoubles?_eq_iff]

/-- A double that a number is rounded to is its own decimal when the number is a long up to
`2 ^ 53`. -/
theorem roundsTo_iff_exact {n : Int64} {d : Float} {e : Decimal} (h : Double.toDecimal? d = some e)
    (small : n.toInt.natAbs ≤ 2 ^ 53) : RoundsTo d n.toInt ↔ (n.toInt : ℚ) = e.toRat := by
  constructor
  · intro rounds
    exact (Double.toDecimal?_of_roundsTo h rounds small).symm
  · intro same
    exact same ▸ Double.roundsTo_toDecimal? h

/-- Next to a decimal numbers are compared as decimals. -/
theorem equals_decimal {d e : Decimal} (ha : StandsFor a d) (hb : StandsFor b e)
    (h : a.ty = .decimal ∨ b.ty = .decimal) : a.equals b = true ↔ d.toRat = e.toRat := by
  have compared : a.equals b = (compareNumbers? a b == some .eq) := by cases ha <;> cases hb <;> rfl
  have decimals : compareNumbers? a b = some (Decimal.Library.cmp d e) := by
    cases ha <;> cases hb <;> simp_all [compareNumbers?, exactDecimal?, ty]
  rw [compared, decimals, beq_iff_eq, Option.some_inj, Decimal.LawfulOrder.cmp_eq_eq_iff]

/-- **Numbers are equal when they are the same number**, unless a long is rounded. -/
theorem equals_iff_exact (ha : a.rational? = some x) (hb : b.rational? = some y)
    (h : ¬ Rounded a b) :
    a.equals b = true ↔ x = y := by
  obtain ⟨d, left, rfl⟩ := standsFor_of_rational? ha
  obtain ⟨e, right, rfl⟩ := standsFor_of_rational? hb
  cases left with
  | decimal => exact equals_decimal (.decimal d) right (.inl rfl)
  | long n =>
    cases right with
    | decimal => exact equals_decimal (.long n) (.decimal e) (.inr rfl)
    | double decimal =>
      rw [long_equals_double, roundsTo_iff_exact decimal (Nat.le_of_not_lt h), Decimal.toRat_ofInt]
    | long k =>
      have compared : (long n).equals (long k) = (some (compare n.toInt k.toInt) == some .eq) := rfl
      rw [compared, beq_iff_eq, Option.some_inj, compare_eq_iff_eq, Decimal.toRat_ofInt,
        Decimal.toRat_ofInt, Int.cast_inj]
  | double decimal =>
    cases right with
    | decimal => exact equals_decimal (.double decimal) (.decimal e) (.inr rfl)
    | long k =>
      rw [double_equals_long, roundsTo_iff_exact decimal (Nat.le_of_not_lt h),
        Decimal.toRat_ofInt, eq_comm]
    | double decimal' =>
      rw [double_equals_double]
      refine ⟨Double.toDecimal?_of_beq decimal decimal', fun same => ?_⟩
      rw [(Double.roundsTo_toDecimal? decimal).beq_iff, same]
      exact Double.roundsTo_toDecimal? decimal'

/-- The same numbers are equal, rounded or not. -/
theorem equals_of_exact (ha : a.rational? = some x) (hb : b.rational? = some x) :
    a.equals b = true := by
  by_cases h : Rounded a b
  · obtain ⟨d, left, rfl⟩ := standsFor_of_rational? ha
    obtain ⟨e, right, same⟩ := standsFor_of_rational? hb
    cases left with
    | decimal => cases right <;> exact h.elim
    | long n =>
      cases right with
      | double decimal =>
        rw [Decimal.toRat_ofInt] at same
        exact (long_equals_double ..).2 (same ▸ Double.roundsTo_toDecimal? decimal)
      | _ => exact h.elim
    | double decimal =>
      cases right with
      | long n =>
        rw [Decimal.toRat_ofInt] at same
        exact (double_equals_long ..).2 (same ▸ Double.roundsTo_toDecimal? decimal)
      | _ => exact h.elim
  · exact (equals_iff_exact ha hb h).2 rfl

/-- **Equality of numbers is transitive**, unless a long is rounded on the way. -/
theorem numbers_equal_trans (ha : a.rational? = some x) (hb : b.rational? = some y)
    (hc : c.rational? = some z) (h : ¬ Rounded a b) (h' : ¬ Rounded b c) (first : a.equals b = true)
    (second : b.equals c = true) :
    a.equals c = true := by
  obtain rfl := (equals_iff_exact ha hb h).1 first
  obtain rfl := (equals_iff_exact hb hc h').1 second
  exact equals_of_exact ha hc

/-- At the limit: `2 ^ 53` as a long, over the double, to the decimal with one digit after the
point. -/
theorem numbers_equal_trans_limit :
    (long 9007199254740992).equals (decimal ⟨90071992547409920, 1⟩) = true := by
  have first : (long 9007199254740992).equals (double (.ofBits 0x4340000000000000)) = true := by
    decide
  have read : Double.parts (.ofBits 0x4340000000000000) = .finite false 4503599627370496 1 := by
    decide
  obtain ⟨d, limit, -⟩ := Double.toDecimal?_eq read
  have rounds := (long_equals_double ..).1 first
  have value := Double.toDecimal?_of_roundsTo limit rounds (by decide)
  have toInt : (9007199254740992 : Int64).toInt = 9007199254740992 := by decide
  rw [toInt, Int.cast_ofNat] at value
  have middle : (double (.ofBits 0x4340000000000000)).rational? = some 9007199254740992 := by
    rw [rational?, exactDecimal?, limit, Option.map_some, value]
  have last : (decimal ⟨90071992547409920, 1⟩).rational? = some 9007199254740992 := by
    norm_num [rational?, exactDecimal?, Decimal.toRat]
  exact numbers_equal_trans rfl middle last (Nat.not_lt.2 (by decide)) id
    first (equals_of_exact middle last)

/-- A long next to a double is rounded, a long next to a long is not: with doubles `==` is not
transitive, here from 2^53 + 1 as a long, over 2^53 as a double, to 2^53 as a long. -/
theorem equals_not_transitive : ¬ ∀ a b c : Value, a.isNumeric = true → b.isNumeric = true →
    c.isNumeric = true → a.equals b = true → b.equals c = true → a.equals c = true := by
  intro trans
  have first : (long 9007199254740993).equals (double (.ofBits 0x4340000000000000)) = true := by
    decide
  have second : (double (.ofBits 0x4340000000000000)).equals (long 9007199254740992) = true := by
    decide
  have third : (long 9007199254740993).equals (long 9007199254740992) = false := by decide
  rw [trans _ _ _ rfl rfl rfl first second] at third
  cases third

end CellScript.Value
