import CellScript.Decimal.Basic
import CellScript.Double.Parts
import CellScript.Instant
import CellScript.Ty
import CellScript.Value.Entries

/-!
# Values

Everything a program can compute with. Values never change. Lists and dictionaries carry the
identity of the object they were created as, and a function value is a reference to a function
object, because programs can tell objects apart: a list that contains NaN equals itself but no other
list.
-/

namespace CellScript

/-- Identity of a list or dictionary object. Objects with the same identity have the same
contents. -/
abbrev ObjectId := Nat

/-- Place of a function object in memory. -/
abbrev FunctionId := Nat

/-- What a function takes and gives: typed parameter names in order, and the result type. -/
structure Signature where
  params : List (Ty × String)
  returns : Ty
  deriving DecidableEq, Repr, Inhabited

namespace Signature

def arity (s : Signature) : Nat := s.params.length

/-- Position of the first parameter of that name. -/
def indexOf? (s : Signature) (name : String) : Option Nat :=
  s.params.findIdx? fun param => param.2 == name

def text (s : Signature) : String :=
  "(" ++ ", ".intercalate (s.params.map fun param => param.1.name ++ " " ++ param.2) ++ ") -> " ++
    s.returns.name

end Signature

/-- A value. -/
inductive Value where
  | nil
  | boolean (b : Bool)
  | long (n : Int64)
  | double (x : Float)
  | decimal (d : Decimal)
  | string (s : String)
  | datetime (t : Instant)
  | list (id : ObjectId) (items : List Value)
  | dict (id : ObjectId) (entries : List (String × Value))
  | function (id : FunctionId) (signature : Signature)
  deriving Inhabited

namespace Value

/-- The kind of a value. Nil is the only value of kind `void`. -/
def ty : Value → Ty
  | nil => .void
  | boolean _ => .boolean
  | long _ => .long
  | double _ => .double
  | decimal _ => .decimal
  | string _ => .string
  | datetime _ => .datetime
  | list .. => .list
  | dict .. => .dict
  | function .. => .function

def isNil : Value → Bool
  | nil => true
  | _ => false

def isNumeric : Value → Bool
  | long _ | double _ | decimal _ => true
  | _ => false

theorem isNumeric_eq_ty_isNumeric (v : Value) : v.isNumeric = v.ty.isNumeric := by
  cases v <;> rfl

/-- The truth value: nil, false, zero, NaN and everything empty are false. -/
def truthy : Value → Bool
  | nil => false
  | boolean b => b
  | long n => n != 0
  | double x => !(Double.isNaN x || Double.isZero x)
  | decimal d => !d.isZero
  | string s => !s.isEmpty
  | list _ items => !items.isEmpty
  | dict _ entries => !entries.isEmpty
  | datetime _ | function .. => true

/-- Answer of the test `value is ty`: nil is `void` and, like everything, `any`. -/
def isOf (v : Value) (ty : Ty) : Bool := ty == .any || v.ty == ty

end Value

end CellScript
