import CellScript.Eval.Binary
import CellScript.Proofs.Decimal.Quotient

/-!
# Longs next to decimals

A long next to a decimal is computed with as the decimal of the same number. Division looks at the
kinds of its operands once more, to choose how many fraction digits a quotient has: with a decimal
divisor at least as many as the dividend, with a long divisor always 20. As long as the dividend has
no more than 20 fraction digits this makes no difference either.

* `Value.operands_long_right` — a long is brought to the operand that its decimal is
* `Value.div_long` — the quotient by a long
* `Value.binary_promotes` — what the operators make of a long next to a decimal
* `Value.div_long_forgets` — a dividend with more than 20 fraction digits
-/

namespace CellScript.Value

section Operands

variable (verb : String) (c d : Decimal) (n : Int64)

theorem operands_long_right :
    operands verb (decimal d) (long n) = .ok (.decimals d (.ofInt n.toInt)) :=
  rfl

theorem operands_decimals : operands verb (decimal c) (decimal d) = .ok (.decimals c d) :=
  rfl

end Operands

variable (d : Decimal) (n : Int64)

/-- A divisor that is a long leaves the dividend 20 fraction digits. -/
theorem quotientScales_long : quotientScales (decimal d) (long n) d = (divisionScale, d.scale) := by
  rw [quotientScales]
  intro c h
  cases h

/-- A divisor that is a decimal leaves the dividend all its fraction digits. -/
theorem quotientScales_decimal (c : Decimal) :
    quotientScales (decimal d) (decimal c) d = (max divisionScale d.scale, d.scale) := by
  rw [quotientScales]

/-- The decimal of a long is zero for the long zero only. -/
theorem isZero_ofInt (h : n ≠ 0) : (Decimal.ofInt n.toInt).isZero = false := by
  have : n.toInt ≠ 0 := fun zero => h (Int64.toInt_inj.1 (by rw [zero]; rfl))
  simpa [Decimal.isZero, Decimal.ofInt] using this

/-- The quotient by a long is the exact one rounded to 20 fraction digits, however many the dividend
has. -/
theorem div_long (h : n ≠ 0) (fits : (divisionScale - d.scale).natAbs < 2 ^ 32) :
    ∃ q : Decimal, div (decimal d) (long n) = .ok (decimal q) ∧
      RoundsAway (10 ^ (-divisionScale)) (d.toRat / n.toInt) q.toRat ∧ d.scale ≤ q.scale := by
  have divisor := isZero_ofInt n h
  have quotient : div (decimal d) (long n) =
      .ok (decimal (d.quotient (.ofInt n.toInt) divisionScale d.scale)) := by
    simp only [div, operands_long_right, divisor, quotientScales_long]
    rfl
  refine ⟨_, quotient, ?_, Decimal.least_le_scale_quotient⟩
  rw [Decimal.toRat_quotient, ← Decimal.toRat_ofInt]
  refine Decimal.quotientAt_rounds (by simpa [Decimal.isZero] using divisor) ?_
  rwa [show (Decimal.ofInt n.toInt).scale = 0 from rfl, Int.add_zero]

/-- **A long next to a decimal counts as the decimal of the same number**: the outcome is the same,
with one exception. A quotient by a long has 20 fraction digits, and is only filled up with zeros if
the dividend has more. -/
theorem binary_promotes {op : BinaryOp} (arithmetic : op ∈ [.add, .sub, .mul, .div, .mod]) :
    binary op (long n) (decimal d) = binary op (decimal (.ofInt n.toInt)) (decimal d) ∧
    (op ≠ .div ∨ d.scale ≤ divisionScale →
      binary op (decimal d) (long n) = binary op (decimal d) (decimal (.ofInt n.toInt))) ∧
    (n ≠ 0 → (divisionScale - d.scale).natAbs < 2 ^ 32 →
      ∃ q : Decimal, binary .div (decimal d) (long n) = .ok (decimal q) ∧
        RoundsAway (10 ^ (-divisionScale)) (d.toRat / n.toInt) q.toRat ∧ d.scale ≤ q.scale) := by
  simp only [List.mem_cons, List.not_mem_nil, or_false] at arithmetic
  refine ⟨?_, fun exact_ => ?_, div_long d n⟩
  · rcases arithmetic with rfl | rfl | rfl | rfl | rfl <;> rfl
  · rcases arithmetic with rfl | rfl | rfl | rfl | rfl
    case inr.inr.inr.inl =>
      have short : d.scale ≤ divisionScale := exact_.resolve_left fun other => other rfl
      simp only [binary, div, operands_long_right, operands_decimals, quotientScales_long,
        quotientScales_decimal, max_eq_left short]
    all_goals rfl

/-- Twelve and a half, divided by three and taken modulo three. -/
theorem binary_promotes_mod :
    BinaryOp.mod ∈ [BinaryOp.add, .sub, .mul, .div, .mod] ∧
      (BinaryOp.mod ≠ .div ∨ Decimal.scale ⟨125, 1⟩ ≤ divisionScale) ∧
      (3 : Int64) ≠ 0 ∧ (divisionScale - Decimal.scale ⟨125, 1⟩).natAbs < 2 ^ 32 ∧
      binary .mod (decimal ⟨125, 1⟩) (long 3) =
        binary .mod (decimal ⟨125, 1⟩) (decimal (.ofInt (3 : Int64).toInt)) ∧
      ∃ q : Decimal, binary .div (decimal ⟨125, 1⟩) (long 3) = .ok (decimal q) ∧
        RoundsAway (10 ^ (-divisionScale)) (Decimal.toRat ⟨125, 1⟩ / (3 : Int64).toInt) q.toRat ∧
        Decimal.scale ⟨125, 1⟩ ≤ q.scale :=
  have promotes := @binary_promotes ⟨125, 1⟩ 3 .mod (by decide)
  ⟨by decide, by decide, by decide, by decide, promotes.2.1 (by decide),
    promotes.2.2 (by decide) (by decide)⟩

/-- A decimal with 30 fraction digits divided by the long one is zero; divided by the decimal one it
stays as it is. -/
theorem div_long_forgets :
    binary .div (decimal ⟨1, 30⟩) (long 1) = .ok (decimal ⟨0, 30⟩) ∧
      binary .div (decimal ⟨1, 30⟩) (decimal (.ofInt (1 : Int64).toInt)) = .ok (decimal ⟨1, 30⟩) ∧
      Decimal.toRat ⟨0, 30⟩ ≠ Decimal.toRat ⟨1, 30⟩ := by
  refine ⟨rfl, rfl, fun same => ?_⟩
  rw [Decimal.toRat_eq_zero_iff.2 rfl, eq_comm, Decimal.toRat_eq_zero_iff] at same
  cases same

end CellScript.Value
