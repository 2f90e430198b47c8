import CellScript.Eval.Lemmas
import CellScript.Eval.Op
import CellScript.Proofs.Value.Kinds
import Mathlib.Tactic.Ring

/-!
# Division of longs

`//` and `%` are computed by two operations, which wrap around on their own. They fit together over
the whole range of longs: quotient and remainder give back the dividend, and the quotient is the
exact one, truncated towards zero. Only the least long divided by minus one has a quotient that is
no long; it wraps around to the least long again, and the remainder is zero.

* `Truncates`, `LongDivision` — what a quotient and a remainder are, and the outcomes of `//` and
  `%`
* `Value.intDiv_longs`, `Value.mod_longs` — the two operations on longs
* `Value.longs_divide` — the outcomes, also of operations in every mode
-/

namespace CellScript

open Code (Op Action NumericMode)

/-- A quotient and a remainder of longs. -/
structure Truncates (l r q m : Int64) : Prop where
  /-- Up to wrapping around, they give back the dividend. -/
  recombines : 2 ^ 64 ∣ (q.toInt * r.toInt + m.toInt) - l.toInt
  small : m.toInt.natAbs < r.toInt.natAbs
  sign : m.toInt = 0 ∨ m.toInt.sign = l.toInt.sign
  /-- The quotient is the exact one, truncated towards zero. -/
  exact : ¬(l = Int64.minValue ∧ r = -1) → q.toInt = l.toInt.tdiv r.toInt
  /-- The exact quotient of the least long by minus one is too large for a long. -/
  limit : l = Int64.minValue ∧ r = -1 → q = Int64.minValue ∧ m = 0

/-- Outcomes of `//` and of `%` for two longs. -/
inductive LongDivision (l r : Int64) : Except Exception Value → Except Exception Value → Prop where
  | byZero (zero : r = 0) : LongDivision l r (.error .divisionByZero) (.error .divisionByZero)
  | divided {q m : Int64} (nonzero : r ≠ 0) (truncates : Truncates l r q m) :
    LongDivision l r (.ok (.long q)) (.ok (.long m))

namespace Truncates

variable {l r : Int64}

/-- The remainder of the machine is the exact one. -/
theorem toInt_rem : (l % r).toInt = l.toInt - l.toInt.tdiv r.toInt * r.toInt := by
  have whole := Int.tdiv_mul_add_tmod l.toInt r.toInt
  rw [Int64.toInt_mod]
  omega

/-- The quotient of the machine is the exact one, up to wrapping around. -/
theorem dvd_sub_tdiv : 2 ^ 64 ∣ (l / r).toInt - l.toInt.tdiv r.toInt := by
  rw [Int64.toInt_div]
  exact Int.dvd_bmod_sub_self

theorem recombines_machine : 2 ^ 64 ∣ ((l / r).toInt * r.toInt + (l % r).toInt) - l.toInt := by
  have wraps := Dvd.dvd.mul_right (dvd_sub_tdiv (l := l) (r := r)) r.toInt
  have same : (l / r).toInt * r.toInt + (l % r).toInt - l.toInt =
      ((l / r).toInt - l.toInt.tdiv r.toInt) * r.toInt := by
    rw [toInt_rem]
    ring
  rwa [same]

theorem exact_machine (h : ¬(l = Int64.minValue ∧ r = -1)) :
    (l / r).toInt = l.toInt.tdiv r.toInt := by
  by_cases least : l = Int64.minValue
  · exact Int64.toInt_div_of_ne_right l r fun minus => h ⟨least, minus⟩
  · exact Int64.toInt_div_of_ne_left l r least

theorem small_machine (nonzero : r ≠ 0) : (l % r).toInt.natAbs < r.toInt.natAbs := by
  have pos : 0 < r.toInt.natAbs := Int.natAbs_pos.2 fun zero => nonzero (Int64.toInt_inj.1 zero)
  rw [Int64.toInt_mod, Int.natAbs_tmod]
  exact Nat.mod_lt _ pos

theorem sign_machine : (l % r).toInt = 0 ∨ (l % r).toInt.sign = l.toInt.sign := by
  rw [Int64.toInt_mod]
  by_cases whole : r.toInt ∣ l.toInt
  · exact .inl (Int.tmod_eq_zero_of_dvd whole)
  · exact .inr (by rw [Int.sign_tmod, if_neg whole])

/-- **The operations of the machine divide**, unless the divisor is zero. -/
theorem machine (nonzero : r ≠ 0) : Truncates l r (l / r) (l % r) where
  recombines := recombines_machine
  small := small_machine nonzero
  sign := sign_machine
  exact := exact_machine
  limit := by
    rintro ⟨rfl, rfl⟩
    decide

end Truncates

namespace Value

variable (l r : Int64)

theorem intDiv_longs : intDiv (long l) (long r) =
    if r = 0 then .error .divisionByZero else .ok (long (l / r)) :=
  rfl

theorem mod_longs : mod (long l) (long r) =
    if r = 0 then .error .divisionByZero else .ok (long (l % r)) :=
  rfl

theorem longDivision : LongDivision l r (intDiv (long l) (long r)) (mod (long l) (long r)) := by
  rw [intDiv_longs, mod_longs]
  by_cases zero : r = 0
  · rw [if_pos zero, if_pos zero]
    exact .byZero zero
  · rw [if_neg zero, if_neg zero]
    exact .divided zero (.machine zero)

end Value

/-- Where an operator evaluates both sides, the operation in any mode ends with what the operator
makes of the values. -/
theorem Code.Action.eval_binary {op : BinaryOp} (mode : NumericMode) {supply : Supply}
    {space : SpaceId} {left right : Op} {M M₁ M₂ : Machine} {v w : Value}
    (both : op ≠ .and ∧ op ≠ .or) (first : left.eval supply space M = .ok v M₁)
    (second : right.eval supply space M₁ = .ok w M₂) :
    (Action.binary op mode left right).eval supply space M =
      Eval.ofExcept (Value.binary op v w) M₂ := by
  have evaluated : (Action.binary op mode left right).eval supply space M =
      Eval.ofExcept (Value.binaryIn mode op v w) M₂ := by
    cases op with
    | and => exact absurd rfl both.1
    | or => exact absurd rfl both.2
    | _ =>
      rw [Action.eval, Eval.bind_of_ok first, Eval.bind_of_ok second]
      all_goals exact fun h => by cases h
  rw [evaluated, Value.binaryIn_eq]

namespace Value

/-- **Quotients and remainders of longs fit together.** By zero, both operations fail with the same
error. Otherwise they give a quotient and a remainder, at the limits of the range too. An operator
gives the same in every mode, for values and where its sides evaluate to the two longs. -/
theorem longs_divide (l r : Int64) : Exception.divisionByZero.code = .divisionByZero ∧
    ∃ quotient remainder, LongDivision l r quotient remainder ∧
      intDiv (long l) (long r) = quotient ∧ mod (long l) (long r) = remainder ∧
      (∀ mode, binaryIn mode .intDiv (long l) (long r) = quotient ∧
        binaryIn mode .mod (long l) (long r) = remainder) ∧
      ∀ (mode : NumericMode) (supply : Supply) (space : SpaceId) (left right : Op)
        (M M₁ M₂ : Machine), left.eval supply space M = .ok (long l) M₁ →
          right.eval supply space M₁ = .ok (long r) M₂ →
          (Action.binary .intDiv mode left right).eval supply space M = Eval.ofExcept quotient M₂ ∧
            (Action.binary .mod mode left right).eval supply space M =
              Eval.ofExcept remainder M₂ := by
  refine ⟨rfl, _, _, longDivision l r, rfl, rfl, fun mode => ⟨?_, ?_⟩, ?_⟩
  · exact binaryIn_eq mode .intDiv _ _
  · exact binaryIn_eq mode .mod _ _
  · intro mode supply space left right M M₁ M₂ first second
    exact ⟨Action.eval_binary mode (by decide) first second,
      Action.eval_binary mode (by decide) first second⟩

/-- The theorem at the least long and minus one, as constants of an operation on longs. -/
theorem longs_divide_least :
    Op.eval .none 0 ⟨default, .constant (long Int64.minValue)⟩ default =
        .ok (long Int64.minValue) default ∧
      Op.eval .none 0 ⟨default, .constant (long (-1))⟩ default = .ok (long (-1)) default ∧
      (Action.binary .intDiv .longs ⟨default, .constant (long Int64.minValue)⟩
          ⟨default, .constant (long (-1))⟩).eval .none 0 default =
      .ok (long Int64.minValue) default ∧
          (Action.binary .mod .longs ⟨default, .constant (long Int64.minValue)⟩
            ⟨default, .constant (long (-1))⟩).eval .none 0 default = .ok (long 0) default := by
  have constant : ∀ n, Op.eval .none 0 ⟨default, .constant (long n)⟩ default =
      .ok (long n) default := by
    intro n
    rw [Op.eval, Action.eval]
    rfl
  obtain ⟨-, quotient, remainder, -, rfl, rfl, -, nodes⟩ := longs_divide Int64.minValue (-1)
  obtain ⟨whole, rest⟩ := nodes .longs .none 0 _ _ _ _ _ (constant Int64.minValue) (constant (-1))
  exact ⟨constant _, constant _, whole, rest⟩

end Value

end CellScript
