import CellScript.Eval.Op

/-!
# Meeting demands

Cells compute their value when it is first asked for and keep what came out, be it a value or an
exception. Functions bind their arguments and evaluate their body. Either step asks for further
cells and calls, so demands are met in levels: at level `n + 1` a cell or a call may make demands of
level `n`, and at level zero there is no fuel left. A demand that is met at one level is met with
the same outcome at all higher levels.
-/

namespace CellScript

namespace Eval

/-- Computes the value of a cell in its space, which must be alive. Cells without a definition are
nil. -/
def compute (supply : Supply) (id : CellId) (shape : Code.Slot) : Eval Value :=
  match shape.init with
  | none => pure .nil
  | some init => do
    if id.space ∈ (← memory).held then
      inFrame (.at' shape.name shape.span) do
        located shape.span do cast (← init.eval supply id.space) shape.ty
    else raise (.outlivedSpace shape.name shape.span)

/-- Keeps the value of a cell, and fills it in wherever it was waited for. -/
def settle (id : CellId) (v : Value) : Eval Value := do
  modifyMemory (·.modifyCell id fun c => { c with evaluating := false })
  modifyMemory (·.bind id v)
  let kept := ((← memory).cell id).value.getD v
  let waiting := (← context).waitingFor id
  modifyMemory fun m => waiting.foldl (fun m d => m.fill d.closure d.index kept) m
  modifyContext (·.release id)
  return kept

/-- Keeps the exception with which the computation of a cell ended. -/
def settleFailure (id : CellId) (e : Exception) : Eval Value := do
  modifyMemory (·.modifyCell id fun c => { c with evaluating := false })
  modifyMemory (·.modifyCell id fun c => c.withFailure e)
  modifyContext (·.release id)
  raise ((((← memory).cell id).failure).getD e)

/-- The value of a cell, computed at most once. Asking for a cell that is being computed is an
error. -/
def force (supply : Supply) (id : CellId) : Eval Value := do
  let cell := (← memory).cell id
  match cell.value, cell.failure with
  | some v, _ => return v
  | none, some e => raise e
  | none, none =>
    if cell.evaluating then
      raise ((Exception.cyclicEvaluation cell.name cell.shape.span).orTrace (← context).trace)
    else
      modifyMemory (·.modifyCell id fun c => { c with evaluating := true })
      match ← attempt (compute supply id cell.shape) with
      | .ok v => settle id v
      | .error e => settleFailure id e

/-- Binds the parameters of a call, converted to their types. -/
def bindParams (supply : Supply) (space : SpaceId) (params : List (Ty × String))
    (args : List Value) : Eval PUnit :=
  (params.zip args).zipIdx.forM fun ((param, arg), slot) => do
    let v ← cast arg param.1
    bindSlot supply space slot v

/-- The name under which calls stand on the stack. -/
def callLocation : String := "function"

/-- Hands the arguments of a curried function on to its target. -/
def forward (fixed : List (Option Value)) (args : List Value) (target : List Value → Eval Value) :
    Eval Value :=
  match Adapter.select fixed with
  | .generic => withBuffer fun buffer => target (Adapter.generic.arguments buffer fixed args)
  | adapter => target (adapter.arguments [] fixed args)

/-- Calls a function. Parameters without argument get their default. -/
def call (supply : Supply) (id : FunctionId) (args : List Value) : Eval Value := do
  let f := (← memory).function id
  if f.signature.arity < args.length then
    raise (.tooManyArguments f.signature.arity args.length)
  else
    let args := args ++ f.defaults.drop args.length
    match f.body with
    | .literal body template closure region =>
      within (·.callSpace template closure) fun space => do
        bindParams supply space f.signature.params args
        inFrame (.at' callLocation region) do cast (← body.eval supply space) f.signature.returns
    | .curried target fixed => forward fixed args fun args => supply (.call target args)

end Eval

namespace Supply

/-- Meets demands with a limit on how deep they may nest, under a watch. -/
def watched (watch : Watch) : Nat → Supply
  | 0 => ⟨fun _ => throw .exhausted, watch, Eval.bindCell⟩
  | fuel + 1 =>
    { meet := fun
        | .force cell => Eval.force (watched watch fuel) cell
        | .call function args => Eval.call (watched watch fuel) function args
      watch := watch
      bind := Eval.bindCell }

/-- Meets demands with a limit on how deep they may nest. -/
def ofFuel (fuel : Nat) : Supply := watched .idle fuel

end Supply

end CellScript
