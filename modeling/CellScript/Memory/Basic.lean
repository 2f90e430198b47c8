import CellScript.Code.Op
import CellScript.Exception
import CellScript.Memory.Pool
import CellScript.Table

/-!
# Memory

Evaluation works on spaces of cells. A cell holds the value of one symbol; it is computed when it is
first asked for and then kept. A space holds the cells of one scope for one evaluation of it and
knows the space around it. Functions reach what lies outside them through closures. Spaces,
closures and functions are numbered in the order of their creation, and no number is used twice.

A space is alive as long as somebody holds it: spaces that are laid out once for good, and a space
that is laid out for an evaluation until that is over. A space holds its cells, but neither does a
cell hold its space nor a space the one around it. These links may lead to a space that is gone.
-/

namespace CellScript

open Code (Op Slot Template SiteId)

/-- Place of a space in memory. -/
abbrev SpaceId := Nat

/-- Place of a closure in memory. -/
abbrev ClosureId := Nat

/-- Place of a cell: a slot of a space. -/
structure CellId where
  space : SpaceId
  slot : Nat
  deriving DecidableEq, Repr, Inhabited

/-- The memory of one symbol. -/
structure Cell where
  /-- What the cell was laid out from. -/
  shape : Slot
  value : Option Value
  /-- The error with which the computation of the value ended. -/
  failure : Option Exception
  /-- The value is being computed. -/
  evaluating : Bool
  /-- The space of the members of a module, library or section. -/
  members : Option SpaceId
  deriving Inhabited

namespace Cell

/-- A cell that nobody has asked for yet. -/
def ofSlot (shape : Slot) : Cell := ⟨shape, none, none, false, none⟩

def name (c : Cell) : String := c.shape.name

/-- There is no value. -/
def isDirty (c : Cell) : Bool := c.value.isNone

/-- Keeps the value that is there already. -/
def withValue (c : Cell) (v : Value) : Cell := { c with value := c.value.or (some v) }

/-- Keeps the failure that is there already. -/
def withFailure (c : Cell) (e : Exception) : Cell := { c with failure := c.failure.or (some e) }

end Cell

/-- The memory of one scope. -/
structure Space where
  template : Template
  cells : Array Cell
  enclosing : Option SpaceId
  /-- What the running function has captured. -/
  closure : Option ClosureId
  deriving Inhabited

namespace Space

/-- A space with new cells. -/
def ofTemplate (template : Template) (enclosing : Option SpaceId) (closure : Option ClosureId) :
    Space :=
  ⟨template, (template.slots.map Cell.ofSlot).toArray, enclosing, closure⟩

end Space

/-- What a function has captured for one symbol. -/
inductive Captured where
  /-- Nothing was captured, and nothing is waited for. -/
  | empty
  /-- The value of the cell `origin`. -/
  | value (v : Value) (origin : CellId := default)
  /-- The cell was being computed when the function was created. -/
  | pending (cell : CellId)
  deriving Inhabited

namespace Captured

/-- The cell that the symbol was captured from. -/
def origin : Captured → CellId
  | empty => default
  | value _ origin => origin
  | pending cell => cell

/-- Gives a value to a captured symbol that has none; one that has a value keeps it. -/
def orValue (c : Captured) (v : Value) : Captured :=
  match c with
  | empty => value v
  | value known origin => value known origin
  | pending cell => value v cell

end Captured

/-- How a function does its work. -/
inductive FunctionBody where
  /-- Evaluates an operation in a new space laid out from `template`, parameters first. -/
  | literal (body : Op) (template : Template) (closure : ClosureId) (region : Span)
  /-- Calls another function, some of whose arguments are fixed. There is one entry for each of its
  parameters. -/
  | curried (target : FunctionId) (fixed : List (Option Value))
  deriving Inhabited

/-- A function. Defaults were computed when the function was created. -/
structure FunctionObject where
  signature : Signature
  defaults : List Value
  body : FunctionBody
  deriving Inhabited

/-- Everything that evaluation has created. -/
structure Memory where
  spaces : Array Space
  /-- The spaces that are alive, the newest first. -/
  held : List SpaceId
  closures : Array (List Captured)
  functions : Array FunctionObject
  /-- Number of lists and dictionaries created. -/
  objects : Nat
  /-- Number of sites in use. -/
  sites : Nat
  /-- The cells that sites led to. -/
  pins : Table SiteId CellId
  /-- The buffers of adapters. -/
  scratch : Pool
  deriving Inhabited

namespace Memory

/-- The space in which constants are computed: no cells, and nothing around it. -/
def detachedSpace : SpaceId := 0

/-- Nothing but the detached space. -/
def initial : Memory :=
  ⟨#[Space.ofTemplate .empty none none], [detachedSpace], #[], #[], 0, 0, [], .unused⟩

/-! ## Spaces -/

/-- The space with a number; numbers out of range denote a space without cells. -/
def space (m : Memory) (id : SpaceId) : Space := m.spaces.getD id default

/-- Creates a space, which is alive until it is dropped. -/
def newSpace (m : Memory) (s : Space) : SpaceId × Memory :=
  (m.spaces.size, { m with spaces := m.spaces.push s, held := m.spaces.size :: m.held })

/-- Nobody holds the space any more. -/
def drop (m : Memory) (id : SpaceId) : Memory := { m with held := m.held.erase id }

/-- Lays out a space that has nothing around it. -/
def root (m : Memory) (t : Template) : SpaceId × Memory := m.newSpace (.ofTemplate t none none)

/-- Lays out the members of something declared in another space. -/
def nested (m : Memory) (t : Template) (enclosing : SpaceId) : SpaceId × Memory :=
  m.newSpace (.ofTemplate t (some enclosing) none)

/-- Lays out the space of a call. What lies outside the function is reached through its closure
only. -/
def callSpace (m : Memory) (t : Template) (closure : ClosureId) : SpaceId × Memory :=
  m.newSpace (.ofTemplate t none (some closure))

/-- Lays out a block inside another space, in the same function. -/
def child (m : Memory) (t : Template) (enclosing : SpaceId) : SpaceId × Memory :=
  m.newSpace (.ofTemplate t (some enclosing) (m.space enclosing).closure)

/-- Lays out a space again beside an existing one. Values are carried over; all other cells start
afresh. -/
def fork (m : Memory) (id : SpaceId) : SpaceId × Memory :=
  let s := m.space id
  m.newSpace { s with cells := s.cells.map fun c => { Cell.ofSlot c.shape with value := c.value } }

/-- The space around a space, if there is one and it is alive. -/
def around? (m : Memory) (id : SpaceId) : Option SpaceId :=
  (m.space id).enclosing.filter fun outer => outer ∈ m.held

/-- The space a number of steps outwards, if there are so many and all of them are alive. -/
def ancestor? (m : Memory) : Nat → SpaceId → Option SpaceId
  | 0, id => some id
  | n + 1, id => (m.around? id).bind (m.ancestor? n)

def ancestor (m : Memory) (depth : Nat) (id : SpaceId) : Except Exception SpaceId :=
  match m.ancestor? depth id with
  | some outer => .ok outer
  | none => .error (.internal ("No enclosing space " ++ toString depth ++ " levels up"))

/-! ## Cells -/

/-- The cell at a place; places out of range denote a cell that was never asked for. -/
def cell (m : Memory) (id : CellId) : Cell := (m.space id.space).cells.getD id.slot default

/-- The cell in a slot of a space. -/
def cellIn (m : Memory) (space : SpaceId) (slot : Nat) : Except Exception CellId :=
  let count := (m.space space).cells.size
  if slot < count then .ok ⟨space, slot⟩
  else .error (.internal
    ("Space has no slot " ++ toString slot ++ " (" ++ toString count ++ " slots)"))

/-- The cell of a name, the last one if there are several. -/
def named? (m : Memory) (space : SpaceId) (name : String) : Option CellId :=
  ((m.space space).template.slot? name).map (⟨space, ·⟩)

/-- All cells of a space, in slot order. -/
def cellsOf (m : Memory) (space : SpaceId) : List CellId :=
  (List.range (m.space space).cells.size).map (⟨space, ·⟩)

def modifyCell (m : Memory) (id : CellId) (f : Cell → Cell) : Memory :=
  { m with spaces := m.spaces.modify id.space fun s =>
    { s with cells := s.cells.modify id.slot f } }

/-- Binds a cell to a value computed elsewhere, unless it has a value. -/
def bind (m : Memory) (id : CellId) (v : Value) : Memory := m.modifyCell id (·.withValue v)

/-! ## Closures and functions -/

def newClosure (m : Memory) (captured : List Captured) : ClosureId × Memory :=
  (m.closures.size, { m with closures := m.closures.push captured })

/-- What a closure has captured; numbers out of range denote a closure without captures. -/
def closure (m : Memory) (id : ClosureId) : List Captured := m.closures.getD id []

/-- One of the captured symbols. -/
def captured (m : Memory) (id : ClosureId) (index : Nat) : Except Exception Captured :=
  match (m.closure id)[index]? with
  | some c => .ok c
  | none => .error (.internal ("Closure has no slot " ++ toString index))

/-- Settles a captured symbol that is still pending. -/
def fill (m : Memory) (id : ClosureId) (index : Nat) (v : Value) : Memory :=
  { m with closures := m.closures.modify id fun captured => captured.modify index (·.orValue v) }

/-- A captured symbol without asking for its value: pending only as long as the cell has none. Where
nothing was captured it is nil. -/
def settled (m : Memory) : Captured → Captured
  | .empty => .value .nil
  | .value v origin => .value v origin
  | .pending cell =>
    match (m.cell cell).value with
    | some v => .value v cell
    | none => .pending cell

/-- The captured symbol has its value. -/
def isResolved (m : Memory) (id : ClosureId) (index : Nat) : Bool :=
  match (m.closure id)[index]? with
  | some (.value _ _) => true
  | _ => false

def newFunction (m : Memory) (f : FunctionObject) : Value × Memory :=
  (.function m.functions.size f.signature, { m with functions := m.functions.push f })

/-- The function with a number. -/
def function (m : Memory) (id : FunctionId) : FunctionObject := m.functions.getD id default

/-- The identity of a new list or dictionary. -/
def newObject (m : Memory) : ObjectId × Memory := (m.objects, { m with objects := m.objects + 1 })

/-! ## Sites -/

def newSite (m : Memory) : SiteId × Memory := (m.sites, { m with sites := m.sites + 1 })

/-- What keeps the sites of a fresh copy apart from all sites in use. -/
def shiftSites (m : Memory) : (SiteId → SiteId) × Memory :=
  ((· + m.sites), { m with sites := m.sites + m.sites })

end Memory

/-- A captured symbol that waits for a cell. -/
structure Deferral where
  cell : CellId
  closure : ClosureId
  index : Nat
  deriving DecidableEq, Repr, Inhabited

/-- What belongs to one chain of calls. -/
structure Context where
  /-- The space with one cell for each unit. -/
  units : Option SpaceId
  /-- Definitions and calls under way, innermost first. -/
  stack : List Frame
  deferred : List Deferral
  deriving Inhabited

namespace Context

/-- Nothing under way, and no units. -/
def detached : Context := ⟨none, [], []⟩

/-- Nothing under way. -/
def ofUnits (units : SpaceId) : Context := ⟨some units, [], []⟩

/-- The stack as exceptions show it, outermost first. -/
def trace (c : Context) : List Frame := c.stack.reverse

def push (c : Context) (frame : Frame) : Context := { c with stack := frame :: c.stack }

def pop (c : Context) : Context := { c with stack := c.stack.tail }

def defer (c : Context) (d : Deferral) : Context := { c with deferred := c.deferred ++ [d] }

/-- The captured symbols that wait for a cell. -/
def waitingFor (c : Context) (cell : CellId) : List Deferral := c.deferred.filter (·.cell == cell)

/-- Nothing waits for the cell any more. -/
def release (c : Context) (cell : CellId) : Context :=
  { c with deferred := c.deferred.filter (·.cell != cell) }

end Context

/-- The state of evaluation. -/
structure Machine where
  memory : Memory
  context : Context
  deriving Inhabited

/-- The machine in which nobody holds a space any more. -/
def Machine.dropped (m : Machine) (space : SpaceId) : Machine :=
  { m with memory := m.memory.drop space }

/-- The machine with other buffers. -/
def Machine.withScratch (m : Machine) (pool : Pool) : Machine :=
  { m with memory := { m.memory with scratch := pool } }

end CellScript
