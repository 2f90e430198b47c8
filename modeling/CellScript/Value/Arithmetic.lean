import CellScript.Value.Equality

/-!
# Arithmetic

The numeric operators. Nil absorbs every number. Two longs stay longs and wrap around; next to a
decimal everything becomes a decimal; all other pairs are computed as doubles. `/` never gives a
long and `**` always gives a double.
-/

namespace CellScript

namespace Decimal

/-! ## Quotients -/

/-- Exact quotient of two integers rounded to an integer, a half going away from zero. The divisor
must not be zero. -/
def roundedQuotient (num den : Int) : Int :=
  let q := num.tdiv den
  let r := num.tmod den
  if 2 * r.natAbs < den.natAbs then q
  else if (num < 0) == (den < 0) then q + 1
  else q - 1

/-- The power of ten that moves the point by `shift` places. The number of places is counted in 32
bits. -/
def shiftFactor (shift : Int) : Int := Int.pow 10 (shift.natAbs % Nat.pow 2 32)

/-- The quotient with `scale` fraction digits, a half going away from zero. -/
def quotientAt (a b : Decimal) (scale : Int) : Decimal :=
  let shift := wrapScale (scale - a.scale + b.scale)
  if 0 ≤ shift then ⟨roundedQuotient (a.unscaled * shiftFactor shift) b.unscaled, scale⟩
  else ⟨roundedQuotient a.unscaled (b.unscaled * shiftFactor shift), scale⟩

/-- The quotient rounded to `scale` fraction digits, without trailing zeros except those needed to
keep at least `least` fraction digits. -/
def quotient [Library] (a b : Decimal) (scale least : Int) : Decimal :=
  let q := Library.normalized (a.quotientAt b scale)
  if q.scale < least then Library.withScale q least else q

end Decimal

namespace Value

variable [Decimal.Library] [Instant.Library]

/-! ## Operands -/

/-- Two operands brought to a common kind. -/
inductive Operands where
  /-- At least one operand is nil, and the other nil or a number. -/
  | nil
  | longs (left right : Int64)
  | doubles (left right : Float)
  | decimals (left right : Decimal)

/-- Brings two operands to a common kind. A decimal meets a double that is not finite as doubles. -/
def operands (verb : String) (left right : Value) : Except Exception Operands :=
  if left.isNil || right.isNil then
    if (left.isNil || left.isNumeric) && (right.isNil || right.isNumeric) then .ok .nil
    else .error (.wrongOperands verb left right)
  else if left.isNumeric && right.isNumeric then
    match left, right with
    | long m, long n => .ok (.longs m n)
    | decimal _, _ | _, decimal _ =>
      match left.exactDecimal?, right.exactDecimal? with
      | some c, some d => .ok (.decimals c d)
      | _, _ => .ok (.doubles left.asDouble right.asDouble)
    | _, _ => .ok (.doubles left.asDouble right.asDouble)
  else .error (.wrongOperands verb left right)

def add (left right : Value) : Except Exception Value :=
  (operands "add" left right).map fun
    | .nil => nil
    | .longs m n => long (m + n)
    | .doubles x y => double (x + y)
    | .decimals c d => decimal (Decimal.Library.add c d)

def sub (left right : Value) : Except Exception Value :=
  (operands "subtract" left right).map fun
    | .nil => nil
    | .longs m n => long (m - n)
    | .doubles x y => double (x - y)
    | .decimals c d => decimal (Decimal.Library.sub c d)

def mul (left right : Value) : Except Exception Value :=
  (operands "multiply" left right).map fun
    | .nil => nil
    | .longs m n => long (m * n)
    | .doubles x y => double (x * y)
    | .decimals c d => decimal (Decimal.Library.mul c d)

/-- Quotients of decimals have at most this many fraction digits, unless the dividend has more. -/
def divisionScale : Int := 20

/-- Working scale of a decimal quotient, and the fraction digits it keeps at least. -/
def quotientScales (left right : Value) (dividend : Decimal) : Int × Int :=
  match left, right with
  | decimal _, decimal _ => (max divisionScale dividend.scale, dividend.scale)
  | decimal _, _ => (divisionScale, dividend.scale)
  | _, _ => (divisionScale, 0)

/-- A quotient of doubles. When a decimal meets an infinite double the exact side decides: an
infinite dividend keeps its size and takes the sign of the divisor, and an infinite divisor gives
the decimal zero. -/
def divDoubles (left right : Value) (x y : Float) : Value :=
  match left, right with
  | double _, decimal d =>
    if Double.isInfinite x then double (if d.unscaled < 0 then -x else x) else double (x / y)
  | decimal _, double _ => if Double.isInfinite y then decimal .zero else double (x / y)
  | _, _ => double (x / y)

def div (left right : Value) : Except Exception Value :=
  match operands "divide" left right with
  | .error e => .error e
  | .ok .nil => .ok nil
  | .ok (.longs m n) => .ok (double (Double.ofInt m.toInt / Double.ofInt n.toInt))
  | .ok (.doubles x y) => .ok (divDoubles left right x y)
  | .ok (.decimals c d) =>
    if d.isZero then .error .divisionByZero
    else
      let (scale, least) := quotientScales left right c
      .ok (decimal (c.quotient d scale least))

/-- Integer division of longs and doubles; doubles lose their fraction first. -/
def intDiv (left right : Value) : Except Exception Value :=
  if left.isNil || right.isNil then (operands "integer-divide" left right).map fun _ => nil
  else match left, right with
    | long _, long _ | long _, double _ | double _, long _ | double _, double _ =>
      match left.toLong, right.toLong with
      | .ok m, .ok n => if n = 0 then .error .divisionByZero else .ok (long (m / n))
      | .error e, _ | _, .error e => .error e
    | _, _ => .error (.wrongOperands "integer-divide" left right)

/-- A remainder of doubles. A decimal is left as it is by an infinite divisor, and a double that is
not finite has no remainder by a decimal. -/
def modDoubles (left right : Value) (x y : Float) : Value :=
  match left, right with
  | double _, decimal _ => if Double.isFinite x then double (Double.remainder x y)
      else double Double.nan
  | decimal _, double _ => if Double.isInfinite y then left else double (Double.remainder x y)
  | _, _ => double (Double.remainder x y)

def mod (left right : Value) : Except Exception Value :=
  match operands "divide" left right with
  | .error e => .error e
  | .ok .nil => .ok nil
  | .ok (.longs m n) => if n = 0 then .error .divisionByZero else .ok (long (m % n))
  | .ok (.doubles x y) => .ok (modDoubles left right x y)
  | .ok (.decimals c d) =>
    if d.isZero then .error .divisionByZero else .ok (decimal (Decimal.Library.rem c d))

def pow (left right : Value) : Except Exception Value :=
  (operands "exponentiate" left right).map fun
    | .nil => nil
    | .longs m n => double (Float.pow (Double.ofInt m.toInt) (Double.ofInt n.toInt))
    | .doubles x y => double (Float.pow x y)
    | .decimals c d => double (Float.pow (Decimal.Library.toDouble c) (Decimal.Library.toDouble d))

def neg : Value → Except Exception Value
  | nil => .ok nil
  | long n => .ok (long (-n))
  | double x => .ok (double (-x))
  | decimal d => .ok (decimal (Decimal.Library.neg d))
  | v => .error (.cannotNegate v)

/-- Joins the texts of two values; nil absorbs. -/
def concat (left right : Value) : Except Exception Value :=
  if left.isNil || right.isNil then .ok nil
  else match left.toPlainText, right.toPlainText with
    | .ok s, .ok t => .ok (string (s ++ t))
    | .error e, _ | _, .error e => .error e

end Value

end CellScript
