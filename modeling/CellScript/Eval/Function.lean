import CellScript.Eval.Basic
import CellScript.Value.Basic

/-!
# Functions

Creating functions, binding arguments to parameters and fixing arguments in advance. Calling a
function is in `CellScript.Eval.Demand`.

A curried function knows a value for some parameters of its target. What it is called with goes to
the other parameters, in order. Up to three parameters there is an adapter for each choice of fixed
ones; with more of them the arguments are written into a buffer, which is used again and again.
-/

namespace CellScript

/-- How arguments are passed on: one letter for each parameter of the target, `F` for a free one and
`X` for a fixed one. -/
inductive Adapter where
  | a1F
  | a1X
  | a2FF
  | a2FX
  | a2XF
  | a2XX
  | a3FFF
  | a3FFX
  | a3FXF
  | a3FXX
  | a3XFF
  | a3XFX
  | a3XXF
  | a3XXX
  | generic
  deriving DecidableEq, Repr, Inhabited

namespace Adapter

def name : Adapter → String
  | a1F => "A1F"
  | a1X => "A1X"
  | a2FF => "A2FF"
  | a2FX => "A2FX"
  | a2XF => "A2XF"
  | a2XX => "A2XX"
  | a3FFF => "A3FFF"
  | a3FFX => "A3FFX"
  | a3FXF => "A3FXF"
  | a3FXX => "A3FXX"
  | a3XFF => "A3XFF"
  | a3XFX => "A3XFX"
  | a3XXF => "A3XXF"
  | a3XXX => "A3XXX"
  | generic => "Generic"

/-- The adapter for a choice of fixed parameters. -/
def select (fixed : List (Option Value)) : Adapter :=
  match fixed.map (·.isSome) with
  | [false] => a1F
  | [true] => a1X
  | [false, false] => a2FF
  | [false, true] => a2FX
  | [true, false] => a2XF
  | [true, true] => a2XX
  | [false, false, false] => a3FFF
  | [false, false, true] => a3FFX
  | [false, true, false] => a3FXF
  | [false, true, true] => a3FXX
  | [true, false, false] => a3XFF
  | [true, false, true] => a3XFX
  | [true, true, false] => a3XXF
  | [true, true, true] => a3XXX
  | _ => generic

/-- Writes arguments into the places of a buffer that are not fixed, in order. Places for which
there is no argument stay as they are. -/
def fill : List Value → List (Option Value) → List Value → List Value
  | slot :: buffer, some _ :: fixed, args => slot :: fill buffer fixed args
  | _ :: buffer, none :: fixed, arg :: args => arg :: fill buffer fixed args
  | buffer, _, _ => buffer

/-- The arguments for the target. The generic adapter puts the fixed values, with nil where nothing
is fixed, behind what its buffer holds, and then fills in the arguments from the beginning of the
buffer on. -/
def arguments (adapter : Adapter) (buffer : List Value) (fixed : List (Option Value))
    (args : List Value) :
    List Value :=
  let x (index : Nat) : Value := (fixed.getD index none).getD .nil
  let a (index : Nat) : Value := args.getD index .nil
  match adapter with
  | a1F | a2FF | a3FFF => args
  | a1X => [x 0]
  | a2FX => [a 0, x 1]
  | a2XF => [x 0, a 0]
  | a2XX => [x 0, x 1]
  | a3FFX => [a 0, a 1, x 2]
  | a3FXF => [a 0, x 1, a 1]
  | a3FXX => [a 0, x 1, x 2]
  | a3XFF => [x 0, a 0, a 1]
  | a3XFX => [x 0, a 0, x 2]
  | a3XXF => [x 0, x 1, a 0]
  | a3XXX => [x 0, x 1, x 2]
  | generic => fill (buffer ++ fixed.map (·.getD .nil)) fixed args

end Adapter

open Code (CapturePlan)

/-! ## Arguments -/

/-- An argument of a call, evaluated. -/
inductive CallArgument where
  | positional (v : Value)
  | named (name : String) (v : Value)
  /-- A list spreads by position, a dictionary by name. -/
  | splat (v : Value)
  deriving Inhabited

/-- Arguments while they are bound: one entry for each parameter. -/
structure Arguments where
  bound : List (Option Value)
  /-- The parameter that the next argument by position goes to. -/
  position : Nat
  /-- An argument was given by name, so none by position may follow. -/
  named : Bool
  deriving Inhabited

namespace Arguments

variable (signature : Signature)

def empty : Arguments := ⟨signature.params.map fun _ => none, 0, false⟩

def bindPosition (args : Arguments) (v : Value) : Except Exception Arguments :=
  if args.named then .error .positionalAfterNamed
  else if args.position < args.bound.length then
    .ok { args with bound := args.bound.set args.position (some v), position := args.position + 1 }
  else .error (.noParameterLeft signature.arity)

def bindName (args : Arguments) (name : String) (v : Value) : Except Exception Arguments :=
  match signature.indexOf? name with
  | some index => .ok { args with bound := args.bound.set index (some v), named := true }
  | none => .error (.unknownParameter name)

/-- Binds one argument. -/
def bind (args : Arguments) : CallArgument → Except Exception Arguments
  | .positional v => args.bindPosition signature v
  | .named name v => args.bindName signature name v
  | .splat .nil => .ok args
  | .splat (.list _ items) => items.foldlM (fun args v => args.bindPosition signature v) args
  | .splat (.dict _ entries) =>
    entries.foldlM (fun args entry => args.bindName signature entry.1 entry.2)
      { args with named := true }
  | .splat v => .error (.cannotSplat v "arguments")

end Arguments

namespace FunctionObject

/-- The arguments in the order of the parameters; parameters without argument get their default. -/
def bind (f : FunctionObject) (args : List CallArgument) : Except Exception (List Value) := do
  let bound ← args.foldlM (fun bound arg => bound.bind f.signature arg)
    (Arguments.empty f.signature)
  return bound.bound.zipWith (fun v default => v.getD default) f.defaults

/-- Enters the values of named parameters among those that are fixed, converted to their type. -/
def fix (f : FunctionObject) (fixed : List (Option Value)) (name : String) (v : Value) :
    Eval (List (Option Value)) := do
  match f.signature.indexOf? name with
  | some index =>
    let ty := ((f.signature.params[index]?).map (·.1)).getD .any
    return fixed.set index (some (← Eval.cast v ty))
  | none => Eval.raise (.undeclaredParameter name)

/-- The entries of `all` that stand where nothing is fixed. -/
def free {α : Type} (fixed : List (Option Value)) (all : List α) : List α :=
  (fixed.zip all).filterMap fun entry => if entry.1.isNone then some entry.2 else none

/-- A function of the parameters that are not fixed, in their order. -/
def curried (f : FunctionObject) (id : FunctionId) (fixed : List (Option Value)) :
    FunctionObject :=
  ⟨⟨free fixed f.signature.params, f.signature.returns⟩, free fixed f.defaults,
    .curried id fixed⟩

end FunctionObject

namespace Eval

/-- Fixes named parameters of a function. -/
def curry (id : FunctionId) (args : List (String × Value)) : Eval Value := do
  let f := (← memory).function id
  let fixed ← args.foldlM (fun fixed arg => f.fix fixed arg.1 arg.2)
    (f.signature.params.map fun _ => none)
  create (·.newFunction (f.curried id fixed))

/-- Captures a symbol for a function that is created in `space`. A cell that is being computed is
left pending; every other cell is asked for its value. -/
def capture (supply : Supply) (space : SpaceId) : CapturePlan → Eval Captured
  | .propagate index => do
    let m ← memory
    match (m.space space).closure with
    | some closure => return m.settled (← ask (·.captured closure index))
    | none => raise (.internal "Nested function created outside of a closure")
  | .cell ref => do
    let id ← resolve space ref
    let cell := (← memory).cell id
    match cell.value with
    | some v => return .value v id
    | none =>
      if cell.evaluating then return .pending id
      else return .value (← supply (.force id)) id

/-- The captured symbols that are pending, as deferrals. -/
def pendings (closure : ClosureId) (captured : List Captured) : List Deferral :=
  captured.zipIdx.filterMap fun
    | (.pending cell, index) => some ⟨cell, closure, index⟩
    | _ => none

/-- Creates a closure; what is pending is filled in once its cell has a value. -/
def newClosure (captured : List Captured) : Eval ClosureId := do
  let closure ← create (·.newClosure captured)
  (pendings closure captured).forM fun d => modifyContext (·.defer d)
  return closure

end Eval

end CellScript
