import CellScript.Code.Specialize
import CellScript.Eval.Op

/-!
# Folding

Replaces constant operations by their value. A constant makes no demands, so it can be evaluated
where there is nothing to ask. One that fails stays as it is, so that the error appears when it is
evaluated.
-/

namespace CellScript.Code

/-- Replaces a constant operation by its value, which is created in memory. -/
def Op.fold (op : Op) (m : Memory) : Op × Memory :=
  if op.constant?.isSome || !op.isConstant then (op, m)
  else
    match op.eval Supply.none Memory.detachedSpace ⟨m, .detached⟩ with
    | .ok v machine => (⟨op.span, .constant v⟩, machine.memory)
    | .error _ _ => (op, m)

/-- What is done to operations once their parts are complete. -/
structure Options where
  specialize : Bool
  fold : Bool
  deriving DecidableEq, Repr, Inhabited

namespace Options

/-- Both, either or none, by name. -/
def ofName? : String → Option Options
  | "full" => some ⟨true, true⟩
  | "spec" => some ⟨true, false⟩
  | "fold" => some ⟨false, true⟩
  | "plain" => some ⟨false, false⟩
  | _ => none

end Options

/-- Completes an operation whose parts are complete. -/
def Op.finish (options : Options) (op : Op) (m : Memory) : Op × Memory :=
  let op := if options.specialize then op.specialize else op
  if options.fold then op.fold m else (op, m)

end CellScript.Code
