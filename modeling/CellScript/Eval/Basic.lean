import CellScript.Memory.Basic
import CellScript.Value.Cast

/-!
# Steps of evaluation

A step runs on the machine and ends with a result, with an exception, for want of fuel, or because
an observer refuses to go on. What it has changed stays changed however it ends. Errors of the value
library are raised by `ofExcept`, and exceptions are completed on their way out: operations add
their region, frames add the stack. References lead to cells, and from there to values.
-/

namespace CellScript

open Code (Address CellRef Op)

/-- Why a step has no result. -/
inductive Stop where
  | raised (e : Exception)
  /-- The fuel did not suffice, which says nothing about the program. -/
  | exhausted
  /-- Whoever watches the evaluation has ended it. -/
  | refused
  deriving Inhabited

/-- Steps of evaluation. -/
abbrev Eval := EStateM Stop Machine

namespace Eval

variable {α β : Type}

def raise (e : Exception) : Eval α := throw (.raised e)

/-- A result of the value library. -/
def ofExcept : Except Exception α → Eval α
  | .ok a => pure a
  | .error e => raise e

/-! ## The machine -/

def memory : Eval Memory := return (← get).memory

def context : Eval Context := return (← get).context

def modifyMemory (f : Memory → Memory) : Eval PUnit :=
  modify fun m => { m with memory := f m.memory }

def modifyContext (f : Context → Context) : Eval PUnit :=
  modify fun m => { m with context := f m.context }

/-- Creates something in memory. -/
def create (f : Memory → α × Memory) : Eval α :=
  modifyGet fun m =>
    let (a, memory) := f m.memory
    (a, { m with memory := memory })

/-- Asks memory for something that may be missing. -/
def ask (f : Memory → Except Exception α) : Eval α := do ofExcept (f (← memory))

/-! ## Exceptions on their way out -/

/-- The result of a step, or the exception it ends with. -/
def attempt (x : Eval α) : Eval (Except Exception α) := fun m =>
  match x m with
  | .ok a m => .ok (.ok a) m
  | .error (.raised e) m => .ok (.error e) m
  | .error stop m => .error stop m

/-- Exceptions without a region get this one. -/
def located (span : Span) (x : Eval α) : Eval α := fun m =>
  match x m with
  | .error (.raised e) m => .error (.raised (e.orSpan span)) m
  | other => other

/-- Runs a step under a frame of the stack. Exceptions without a stack get the one with the
frame. -/
def inFrame (frame : Frame) (x : Eval α) : Eval α := fun m =>
  let left (m : Machine) : Machine := { m with context := m.context.pop }
  match x { m with context := m.context.push frame } with
  | .ok a m => .ok a (left m)
  | .error (.raised e) m => .error (.raised (e.orTrace m.context.trace)) (left m)
  | .error stop m => .error stop (left m)

/-! ## What is held while a step runs -/

/-- Runs a step that holds a space. However the step ends, nobody holds the space any more. -/
def holding (space : SpaceId) (x : Eval α) : Eval α := fun m =>
  match x m with
  | .ok a m => .ok a (m.dropped space)
  | .error stop m => .error stop (m.dropped space)

/-- Runs a step in a new space. -/
def within (create' : Memory → SpaceId × Memory) (x : SpaceId → Eval α) : Eval α := do
  let space ← create create'
  holding space (x space)

/-- Runs a step with the buffer on top of the pool. However the step ends, the buffer is cleared and
put back. -/
def withBuffer (x : List Value → Eval α) : Eval α := fun m =>
  match x (m.memory.scratch.buffer 0) (m.withScratch m.memory.scratch.rest) with
  | .ok a m => .ok a (m.withScratch (m.memory.scratch.give []))
  | .error stop m => .error stop (m.withScratch (m.memory.scratch.give []))

/-! ## Values -/

/-- A new list. -/
def newList (items : List Value) : Eval Value := return .list (← create Memory.newObject) items

/-- A new dictionary. -/
def newDict (entries : Entries Value) : Eval Value :=
  return .dict (← create Memory.newObject) entries

/-- Converts a value to a type. -/
def cast (v : Value) (ty : Ty) : Eval Value := do
  ofExcept (v.cast (← create Memory.newObject) ty)

end Eval

/-- The answer to a request. -/
abbrev Answer (α : Type) := Except Stop α

/-- Runs a step and gives its answer with the machine it leaves behind. -/
def Machine.run {α : Type} (m : Machine) (x : Eval α) : Answer α × Machine :=
  match x m with
  | .ok a m => (.ok a, m)
  | .error e m => (.error e, m)

/-- What an operation may need from elsewhere. -/
inductive Demand where
  /-- The value of a cell. -/
  | force (cell : CellId)
  /-- The result of a function for arguments by position. -/
  | call (function : FunctionId) (args : List Value)
  deriving Inhabited

/-- What is done around the evaluation of an operation in a space. -/
abbrev Watch := Op → SpaceId → Eval Value → Eval Value

namespace Watch

/-- Nobody watches. -/
def idle : Watch := fun _ _ x => x

end Watch

/-- Binds a cell to a value computed elsewhere. -/
def Eval.bindCell (id : CellId) (v : Value) : Eval PUnit := modifyMemory (·.bind id v)

/-- How demands are met, what is done around every operation on the way, and how cells are bound. -/
structure Supply where
  meet : Demand → Eval Value
  watch : Watch
  bind : CellId → Value → Eval PUnit

namespace Supply

instance : CoeFun Supply fun _ => Demand → Eval Value := ⟨meet⟩

/-- Meets no demand. -/
def none : Supply := ⟨fun _ => throw .exhausted, .idle, Eval.bindCell⟩

end Supply

/-! ## Finding cells -/

namespace Eval

/-- Walks from a space along slots, through the members of all cells but the last. -/
def walk (name : String) (space : SpaceId) : List Nat → Eval CellId
  | [] => raise (.internal ("Empty path for " ++ name))
  | [slot] => ask (·.cellIn space slot)
  | slot :: rest => do
    let id ← ask (·.cellIn space slot)
    let cell := (← memory).cell id
    match cell.members with
    | some members => walk name members rest
    | none =>
      raise (.internal (cell.name ++ " has no members while resolving " ++ name))

/-- The space of the units. -/
def units : Eval SpaceId := do
  match (← context).units with
  | some space => return space
  | none => raise (.internal "Absolute reference evaluated outside a runtime")

/-- The cell at the end of an absolute path. A reference with a site remembers it. -/
def absolute (ref : CellRef) (path : List Nat) : Eval CellId := do
  match ref.site with
  | none => walk ref.name (← units) path
  | some site =>
    match (← memory).pins.get? site with
    | some cell => return cell
    | none =>
      let cell ← walk ref.name (← units) path
      modifyMemory fun m => { m with pins := m.pins.insert site cell }
      return cell

/-- The cell that a reference denotes in a space. -/
def resolve (space : SpaceId) (ref : CellRef) : Eval CellId :=
  match ref.address with
  | .closure _ => raise (.internal (ref.name ++ " is a captured value, not a cell"))
  | .own slot => ask (·.cellIn space slot)
  | .parent slot => do
    let outer ← ask (·.ancestor 1 space)
    ask (·.cellIn outer slot)
  | .frame depth slot => do
    let outer ← ask (·.ancestor depth space)
    ask (·.cellIn outer slot)
  | .absolute path => absolute ref path

/-- The value of a captured symbol, nil where nothing was captured. One that is still pending asks
for its cell, which fails as long as that is being computed. -/
def captured (supply : Supply) (closure : ClosureId) (index : Nat) : Eval Value := do
  match ← ask (·.captured closure index) with
  | .empty => return .nil
  | .value v _ => return v
  | .pending cell =>
    let v ← supply (.force cell)
    modifyMemory (·.fill closure index v)
    return v

/-- The value of a reference. -/
def reference (supply : Supply) (space : SpaceId) (ref : CellRef) : Eval Value := do
  match ref.address with
  | .closure index =>
    match ((← memory).space space).closure with
    | some closure => captured supply closure index
    | none => raise (.internal (ref.name ++ " is captured but no closure is in scope"))
  | _ => supply (.force (← resolve space ref))

end Eval

end CellScript
