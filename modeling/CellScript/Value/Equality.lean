import CellScript.Value.Cast

/-!
# Equality and order

`Value.identical` is `===`: the same kind and the same value, NaN included. `Value.equals` is `==`:
numbers are compared by magnitude across kinds. `Value.compare?` orders numbers, strings and
instants. Lists and dictionaries that are the same object are equal without being looked into.
-/

namespace CellScript.Value

variable [Decimal.Library] [Instant.Library]

/-- The same bits, or both NaN. -/
def sameDouble (x y : Float) : Bool :=
  x.toBits == y.toBits || (Double.isNaN x && Double.isNaN y)

/-- `===` of values that are not containers. -/
def identicalScalars : Value → Value → Bool
  | nil, nil => true
  | boolean a, boolean b => a == b
  | long a, long b => a == b
  | double a, double b => sameDouble a b
  | decimal a, decimal b => Decimal.Library.equal a b
  | string a, string b => a == b
  | datetime a, datetime b => Instant.Library.same a b
  | function a _, function b _ => a == b
  | _, _ => false

mutual

/-- The relation `===`. -/
def identical : Value → Value → Bool
  | list i xs, b =>
    match b with
    | list j ys => i == j || identicalItems xs ys
    | _ => false
  | dict i xs, b =>
    match b with
    | dict j ys => i == j || identicalEntries xs ys
    | _ => false
  | a, b => identicalScalars a b

def identicalItems : List Value → List Value → Bool
  | [], ys => ys.isEmpty
  | x :: xs, ys =>
    match ys with
    | [] => false
    | y :: ys => identical x y && identicalItems xs ys

def identicalEntries : List (String × Value) → List (String × Value) → Bool
  | [], ys => ys.isEmpty
  | (k, x) :: xs, ys =>
    match ys with
    | [] => false
    | (l, y) :: ys => k == l && identical x y && identicalEntries xs ys

end

/-! ## Numbers across kinds -/

/-- The exact decimal of a number; a double counts as its shortest digits. -/
def exactDecimal? : Value → Option Decimal
  | long n => some (.ofInt n.toInt)
  | double x => Double.toDecimal? x
  | decimal d => some d
  | _ => none

/-- A number as a double. -/
def asDouble : Value → Float
  | long n => Double.ofInt n.toInt
  | double x => x
  | decimal d => Decimal.Library.toDouble d
  | _ => Double.nan

/-- Order of doubles; NaN has none. -/
def compareDoubles? (x y : Float) : Option Ordering :=
  if x < y then some .lt
  else if x == y then some .eq
  else if y < x then some .gt
  else none

/-- Order of two numbers. Longs compare as integers; next to a decimal everything finite compares
as a decimal; everything else compares as doubles. -/
def compareNumbers? (a b : Value) : Option Ordering :=
  match a, b with
  | long m, long n => some (compare m.toInt n.toInt)
  | decimal _, _ | _, decimal _ =>
    match exactDecimal? a, exactDecimal? b with
    | some c, some d => some (Decimal.Library.cmp c d)
    | _, _ => compareDoubles? (asDouble a) (asDouble b)
  | _, _ => compareDoubles? (asDouble a) (asDouble b)

/-- `==` of values that are not containers. -/
def equalScalars (a b : Value) : Bool :=
  if a.isNumeric && b.isNumeric then compareNumbers? a b == some .eq else identicalScalars a b

mutual

/-- The relation `==`. -/
def equals : Value → Value → Bool
  | list i xs, b =>
    match b with
    | list j ys => i == j || equalItems xs ys
    | _ => false
  | dict i xs, b =>
    match b with
    | dict j ys => i == j || equalEntries xs ys
    | _ => false
  | a, b => equalScalars a b

def equalItems : List Value → List Value → Bool
  | [], ys => ys.isEmpty
  | x :: xs, ys =>
    match ys with
    | [] => false
    | y :: ys => equals x y && equalItems xs ys

def equalEntries : List (String × Value) → List (String × Value) → Bool
  | [], ys => ys.isEmpty
  | (k, x) :: xs, ys =>
    match ys with
    | [] => false
    | (l, y) :: ys => k == l && equals x y && equalEntries xs ys

end

/-- Order of strings by code points. -/
def compareStrings (a b : String) : Ordering :=
  if a < b then .lt else if a = b then .eq else .gt

/-- The order behind `<`, `<=`, `>` and `>=`. Without an order, as with nil and NaN, every such test
is false; kinds that cannot be ordered are an error. -/
def compare? (a b : Value) : Except Exception (Option Ordering) :=
  if a.isNil || b.isNil then .ok none
  else if a.isNumeric && b.isNumeric then .ok (compareNumbers? a b)
  else match a, b with
    | datetime s, datetime t => .ok (some (Instant.Library.cmp s t))
    | string s, string t => .ok (some (compareStrings s t))
    | _, _ => .error (.cannotCompare a b)

end CellScript.Value
