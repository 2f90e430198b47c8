import CellScript.Scope.Basic
import CellScript.Value.Basic

/-!
# Operations

An expression is compiled once into an operation, in which every name has become the address of a
cell, and is then evaluated as often as needed. An `Op` is a region of the program together with an
`Action`. Blocks carry a `Template` that says which cells to lay out for them.

Some actions are only produced by specialisation: patched lists, merged dictionaries, fixed calls
and accesses with a known key.
-/

namespace CellScript.Code

/-- How a reference reaches its cell from the space it is evaluated in. -/
inductive Address where
  /-- A captured symbol of the running function. -/
  | closure (index : Nat)
  /-- A slot of the current space. -/
  | own (slot : Nat)
  /-- A slot of the space around the current one. -/
  | parent (slot : Nat)
  /-- A slot of the space that many steps outwards. -/
  | frame (depth slot : Nat)
  /-- Slots that lead from the units down to the cell. -/
  | absolute (path : List Nat)
  deriving DecidableEq, Repr, Inhabited

/-- Identity of a reference that remembers where it led. -/
abbrev SiteId := Nat

/-- A reference to a cell. -/
structure CellRef where
  name : String
  address : Address
  ty : Ty
  /-- A reference with a site stays with the first cell that its absolute path led to, whatever
  units it is evaluated against later. -/
  site : Option SiteId
  deriving DecidableEq, Repr, Inhabited

/-- Where a function finds a captured symbol when it is created. -/
inductive CapturePlan where
  /-- Among what the creating function has captured itself. -/
  | propagate (index : Nat)
  /-- In a cell that can be reached from the creating space. -/
  | cell (ref : CellRef)
  deriving DecidableEq, Repr, Inhabited

/-- What is known about both operands of an arithmetic operation. An operation in a narrow mode
still takes all operands. -/
inductive NumericMode where
  | generic
  | longs
  | doubles
  deriving DecidableEq, Repr, Inhabited

mutual

/-- An operation: what to do, and the region it was compiled from. -/
structure Op where
  span : Span
  action : Action

/-- What an operation does. -/
inductive Action where
  | constant (value : Value)
  /-- Stands for an expression that analysis could not make sense of. -/
  | fail (fault : Fault)
  /-- The value of a cell or captured symbol; `node` is the reference it was compiled from. -/
  | reference (ref : CellRef) (node : NodeId := default)
  | list (items : List Item)
  /-- A list whose constant stretches are laid out already. -/
  | patchedList (segments : List ListSegment)
  | dict (entries : List Entry)
  /-- A dictionary whose constant stretches are merged already. -/
  | mergedDict (segments : List DictSegment)
  /-- Creates a function. Calls are traced to `region`. -/
  | function (params : List Param) (returns : Ty) (body : Op) (template : Template)
      (captures : List CapturePlan) (region : Span)
  | call (callee : Op) (args : List Argument)
  /-- Calls a known function with arguments by position. -/
  | fixedCall (function : FunctionId) (signature : Signature) (args : List Op)
  | curry (callee : Op) (args : List Named)
  | letIn (template : Template) (body : Op)
  | ifElse (condition thenBranch elseBranch : Op)
  | matchOn (subject : Op) (lines : List Line)
  | forEach (template : Template) (heads : List Head) (body : Op)
  | binary (op : BinaryOp) (mode : NumericMode) (left right : Op)
  | unary (op : UnaryOp) (operand : Op)
  | cast (operand : Op) (target : Ty)
  | isOf (operand : Op) (ty : Ty)
  | access (container : Op) (keys : List Op)
  /-- Container access with one known key. -/
  | keyAccess (container : Op) (key : Value)
  /-- The handler runs in a space of its own, where error and trace have slots. -/
  | tryCatch (body : Op) (template : Template) (error trace : Option Nat) (handler : Op)
  | throw (value : Op)

/-- An item of a list; a splat spreads a list. -/
inductive Item where
  | value (op : Op)
  | splat (op : Op)

/-- A stretch of a patched list. -/
inductive ListSegment where
  | constant (run : List Value)
  | value (op : Op)
  | splat (op : Op)

/-- An entry of a dictionary; a splat spreads a dictionary. -/
inductive Entry where
  | pair (key value : Op)
  | splat (op : Op)

/-- A stretch of a merged dictionary. -/
inductive DictSegment where
  | constant (run : List (String × Value))
  /-- An entry with a known key. -/
  | pair (key : String) (value : Op)
  /-- An entry whose key is computed. -/
  | dynamic (key value : Op)
  | splat (op : Op)

structure Param where
  name : String
  ty : Ty
  default : Option Op

inductive Argument where
  | positional (op : Op)
  | named (name : String) (op : Op)
  | splat (op : Op)

/-- A value for a named parameter. -/
structure Named where
  name : String
  value : Op

/-- A line of a match. Guard and result are evaluated in a space that holds what the pattern
captures. -/
structure Line where
  pattern : Pattern
  template : Template
  guard : Option Op
  result : Op

/-- A head of a comprehension. -/
inductive Head where
  | generator (slot : Nat) (ty : Ty) (source : Op)
  | definition (slot : Nat)
  | condition (op : Op)

/-- A pattern, with the slot for the whole subject. -/
structure Pattern where
  shape : Shape
  whole : Option Nat

/-- What a pattern asks of the subject. Slots receive the parts that have no pattern of their
own. -/
inductive Shape where
  | expr (op : Op)
  | any
  | ofType (ty : Ty)
  | list (items : List Pattern)
  | headTail (head : List Pattern) (tail : Option Nat)
  | initLast (init : Option Nat) (last : List Pattern)
  | middle (head : List Pattern) (mid : Option Nat) (last : List Pattern)
  | dict (entries : List KeyPattern)
  | openDict (entries : List KeyPattern) (rest : Option Nat)

structure KeyPattern where
  key : String
  pattern : Pattern

/-- A cell to be laid out: the symbol it holds and how its value is computed. A slot without `init`
is bound from outside. -/
structure Slot where
  symbol : SymbolId
  name : String
  ty : Ty
  span : Span
  init : Option Op
  /-- The members of a module, library or section. -/
  members : Option ScopeId

/-- The cells to be laid out for a scope. -/
structure Template where
  scope : ScopeId
  slots : List Slot

end

instance : Inhabited Op := ⟨⟨.null, .constant .nil⟩⟩
instance : Inhabited Slot := ⟨⟨0, "", .any, .null, none, none⟩⟩
instance : Inhabited Template := ⟨⟨0, []⟩⟩

namespace Template

/-- No cells at all. -/
def empty : Template := ⟨0, []⟩

/-- The slot of a name, the last one if there are several. -/
def slot? (t : Template) (name : String) : Option Nat :=
  (t.slots.zipIdx.reverse.find? fun entry => entry.1.name == name).map (·.2)

end Template

namespace Op

/-- The value of a constant. -/
def constant? (op : Op) : Option Value :=
  match op.action with
  | .constant v => some v
  | _ => none

/-- A constant that was not read from text. -/
def ofValue (v : Value) : Op := ⟨.null, .constant v⟩

/-- The operation of an expression that cannot be evaluated. -/
def ofFault (fault : Fault) (span : Span) : Op := ⟨span, .fail fault⟩

end Op

namespace Item

def op : Item → Op
  | value op | splat op => op

end Item

end CellScript.Code
