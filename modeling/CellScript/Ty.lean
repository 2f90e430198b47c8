/-!
# Types

The names a program can declare for a binding, test with `is` and convert to with `as`. Every
value has exactly one of these kinds other than `any`.
-/

namespace CellScript

/-- A declared or known type. `any` puts no restriction on a value. -/
inductive Ty where
  | any
  | void
  | boolean
  | string
  | long
  | double
  | decimal
  | datetime
  | list
  | dict
  | function
  deriving DecidableEq, Repr, Inhabited

namespace Ty

/-- All types, in the order in which they are listed to users. -/
def all : List Ty :=
  [any, void, boolean, string, long, double, decimal, datetime, list, dict, function]

/-- The name of a type in programs and messages. -/
def name : Ty → String
  | any => "any"
  | void => "void"
  | boolean => "boolean"
  | string => "string"
  | long => "long"
  | double => "double"
  | decimal => "decimal"
  | datetime => "datetime"
  | list => "list"
  | dict => "dict"
  | function => "function"

/-- The type of that name. -/
def ofName? (name : String) : Option Ty := all.find? (·.name == name)

theorem ofName?_name (t : Ty) : ofName? t.name = some t := by cases t <;> decide

def isNumeric : Ty → Bool
  | long | double | decimal => true
  | _ => false

/-- Type of a sum, difference, product or remainder of two operands, where it can be known:
decimals absorb every number, doubles absorb longs. -/
def numericResult (left right : Ty) : Ty :=
  if left == long && right == long then long
  else if !(left.isNumeric && right.isNumeric) then any
  else if left == decimal || right == decimal then decimal
  else double

end Ty

end CellScript
