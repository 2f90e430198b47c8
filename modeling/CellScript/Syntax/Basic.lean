import CellScript.Span
import CellScript.Ty

/-!
# The parts of a syntax tree that hold no expressions

Nodes with their identity and region, literals, references by name, and operators.
-/

namespace CellScript

/-- Identity of a node of the program. -/
inductive NodeId where
  /-- A node of a syntax tree. -/
  | tree (index : Nat)
  /-- The name under which the unit with this tree node is known in the whole program. -/
  | globalName (index : Nat)
  deriving DecidableEq, Repr, Inhabited

namespace NodeId

def index : NodeId → Nat
  | tree index | globalName index => index

/-- The global name of a unit, as a node. -/
def asGlobalName (id : NodeId) : NodeId := globalName id.index

def text (id : NodeId) : String := "#" ++ toString id.index

end NodeId

/-- Identity and region shared by everything that can be asked about. -/
structure Node where
  id : NodeId
  span : Span
  deriving DecidableEq, Repr, Inhabited

/-- A constant as written. Decimals and instants keep their text. -/
inductive Literal where
  | nil
  | boolean (b : Bool)
  | long (n : Int64)
  | double (x : Float)
  | decimal (text : String)
  | string (s : String)
  | datetime (text : String)
  deriving Inhabited

namespace Literal

def ty : Literal → Ty
  | nil => .void
  | boolean _ => .boolean
  | long _ => .long
  | double _ => .double
  | decimal _ => .decimal
  | string _ => .string
  | datetime _ => .datetime

end Literal

/-- Where the search for the first name of a reference starts. -/
inductive Anchor where
  /-- The scope of the reference, and outwards from there up to its module. -/
  | here
  /-- The names known in the whole program. -/
  | global
  /-- The members of the enclosing module. -/
  | module
  /-- The members of the enclosing library. -/
  | library
  deriving DecidableEq, Repr, Inhabited

namespace Anchor

def name : Anchor → String
  | here => "local"
  | global => "global"
  | module => "module"
  | library => "library"

/-- The anchor of that name. -/
def ofName? (name : String) : Option Anchor :=
  [here, global, module, library].find? (·.name == name)

end Anchor

/-- A reference by a path of names. -/
structure Reference where
  anchor : Anchor
  path : List String
  deriving DecidableEq, Repr, Inhabited

namespace Reference

/-- Splits a path written with dots. -/
def ofPath (anchor : Anchor) (path : String) : Reference :=
  ⟨anchor, (path.splitOn ".")⟩

/-- One name, looked up from where it stands. -/
def isSimple (r : Reference) : Bool := r.anchor == .here && r.path.length == 1

def text (r : Reference) : String :=
  let mark := match r.anchor with
    | .here => ""
    | .global => "$"
    | .module => "module::"
    | .library => "library::"
  mark ++ ".".intercalate r.path

end Reference

inductive BinaryOp where
  | add
  | sub
  | mul
  | div
  | intDiv
  | mod
  | pow
  | equal
  | notEqual
  | identical
  | notIdentical
  | less
  | lessEqual
  | greater
  | greaterEqual
  | and
  | or
  | concat
  deriving DecidableEq, Repr, Inhabited

namespace BinaryOp

def all : List BinaryOp :=
  [add, sub, mul, div, intDiv, mod, pow, equal, notEqual, identical, notIdentical, less, lessEqual,
   greater, greaterEqual, and, or, concat]

/-- The operator as written in programs. -/
def symbol : BinaryOp → String
  | add => "+"
  | sub => "-"
  | mul => "*"
  | div => "/"
  | intDiv => "//"
  | mod => "%"
  | pow => "**"
  | equal => "=="
  | notEqual => "!="
  | identical => "==="
  | notIdentical => "!=="
  | less => "<"
  | lessEqual => "<="
  | greater => ">"
  | greaterEqual => ">="
  | and => "&&"
  | or => "||"
  | concat => ".."

/-- The operator of that symbol. -/
def ofSymbol? (symbol : String) : Option BinaryOp := all.find? (·.symbol == symbol)

theorem ofSymbol?_symbol (op : BinaryOp) : ofSymbol? op.symbol = some op := by cases op <;> decide

/-- Operators that compute with numbers. -/
def isArithmetic : BinaryOp → Bool
  | add | sub | mul | div | intDiv | mod | pow => true
  | _ => false

end BinaryOp

inductive UnaryOp where
  | negate
  | not
  deriving DecidableEq, Repr, Inhabited

end CellScript
