import CellScript.Code.Op
import CellScript.Value.Arithmetic

/-!
# Operators on values

The operators other than `&&` and `||`, which do not always evaluate both sides. Arithmetic in a
narrow mode tries the computation for its kind of operands first and gives the same result.
-/

namespace CellScript

open Code (NumericMode)

namespace Value

/-- The test `a < b` and its like: false where there is no order. -/
def ordered (accept : Ordering → Bool) (a b : Value) : Except Exception Value :=
  (compare? a b).map fun order => boolean ((order.map accept).getD false)

/-- Arithmetic on two longs, for the operators that cannot fail. -/
def computeLongs? (op : BinaryOp) (m n : Int64) : Option Value :=
  match op with
  | .add => some (long (m + n))
  | .sub => some (long (m - n))
  | .mul => some (long (m * n))
  | .div => some (double (Double.ofInt m.toInt / Double.ofInt n.toInt))
  | _ => none

/-- Arithmetic on two doubles. -/
def computeDoubles? (op : BinaryOp) (x y : Float) : Option Value :=
  match op with
  | .add => some (double (x + y))
  | .sub => some (double (x - y))
  | .mul => some (double (x * y))
  | .div => some (double (x / y))
  | .mod => some (double (Double.remainder x y))
  | .pow => some (double (Float.pow x y))
  | _ => none

/-- The result of a narrow mode, if the operands are of its kind. -/
def compute? (mode : NumericMode) (op : BinaryOp) (a b : Value) : Option Value :=
  match mode, a, b with
  | .longs, long m, long n => computeLongs? op m n
  | .doubles, double x, double y => computeDoubles? op x y
  | _, _, _ => none

/-- An operator on two values. -/
def binary (op : BinaryOp) (a b : Value) : Except Exception Value :=
  match op with
  | .add => add a b
  | .sub => sub a b
  | .mul => mul a b
  | .div => div a b
  | .intDiv => intDiv a b
  | .mod => mod a b
  | .pow => pow a b
  | .equal => .ok (boolean (equals a b))
  | .notEqual => .ok (boolean !(equals a b))
  | .identical => .ok (boolean (identical a b))
  | .notIdentical => .ok (boolean !(identical a b))
  | .less => ordered (·.isLT) a b
  | .lessEqual => ordered (·.isLE) a b
  | .greater => ordered (·.isGT) a b
  | .greaterEqual => ordered (·.isGE) a b
  | .and => .ok (boolean (a.truthy && b.truthy))
  | .or => .ok (boolean (a.truthy || b.truthy))
  | .concat => concat a b

/-- An operator in a mode. -/
def binaryIn (mode : NumericMode) (op : BinaryOp) (a b : Value) : Except Exception Value :=
  match compute? mode op a b with
  | some v => .ok v
  | none => binary op a b

def unary (op : UnaryOp) (v : Value) : Except Exception Value :=
  match op with
  | .negate => neg v
  | .not => .ok (boolean !v.truthy)

end Value

end CellScript
