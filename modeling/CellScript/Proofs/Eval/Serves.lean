import CellScript.Eval.Function
import CellScript.Proofs.Eval.Safe

/-!
# What is expected of a supply

Operations leave it to a supply to find the values of cells and to run functions. Evaluation is safe
if the supply meets these demands as it should: a cell is answered with the value that it has from
then on, and a cell that has none with the exception that tells why. It follows what an operation
that refers to a symbol ends with, and a watch may rely on that.

* `Supply.Serves` — demands are met as they should, whoever watches
* `Machine.Denies` — why a cell that is asked for has no value
* `Code.CellRef.Denotes`, `Code.CellRef.Yields` — the cell that a reference is about, and what comes
  of it
* `Code.Op.ReadsTarget` — a reference is about the symbol that analysis has found for its node, and
  gives what its cell has
-/

namespace CellScript

open Code (CellRef Op)

/-! ## Cells that are asked for -/

/-- The cell may be bound: it is not being computed, and has not failed. -/
structure Cell.Open (c : Cell) : Prop where
  idle : c.evaluating = false
  sound : c.failure = none

/-- The cell may be asked for its value: it can be computed, or it is known that there is none. -/
structure Memory.Answers (m : Memory) (id : CellId) : Prop where
  has : m.HasCell id
  alive : id.space ∈ m.held ∨ (m.cell id).Withheld

/-- The error of a cell that is asked for while it is being computed. -/
def Eval.cyclic (M : Machine) (id : CellId) : Exception :=
  (Exception.cyclicEvaluation (M.memory.cell id).name (M.memory.cell id).shape.span).orTrace
    M.context.trace

/-- Why a cell that was asked for has no value: its computation has ended with the exception, or it
was being computed already and the exception says so. -/
def Machine.Denies (M : Machine) (id : CellId) (e : Exception) (M' : Machine) : Prop :=
  (M'.memory.cell id).failure = some e ∨
    (M.memory.cell id).evaluating = true ∧ M' = M ∧ e = Eval.cyclic M id

/-! ## References -/

/-- The reference is about a cell of the symbol. An address in spaces leads to this cell, in a space
that is alive. A slot of the closure holds what was captured from it, and its value if it holds
one. -/
structure Code.CellRef.Denotes (ref : CellRef) (space : SpaceId) (M : Machine)
    (t : SymbolId) (id : CellId) :
    Prop where
  has : M.memory.HasCell id
  symbol : (M.memory.cell id).shape.symbol = t
  leads : match ref.address with
    | .closure index => ∃ closure c, (M.memory.space space).closure = some closure ∧
        M.memory.captured closure index = .ok c ∧ c ≠ .empty ∧ c.origin = id ∧
        ∀ v origin, c = .value v origin → (M.memory.cell id).value = some v
    | _ => Eval.resolve space ref M = .ok id M ∧ id.space ∈ M.memory.held

/-- What comes of a reference about a cell: the value that the cell has then, which then stands in
the slot of the closure as well; or the exception that tells why the cell has none. -/
def Code.CellRef.Yields (ref : CellRef) (space : SpaceId) (span : Span)
    (id : CellId) (M : Machine) :
    EStateM.Result Stop Machine Value → Prop
  | .ok v M' => (M'.memory.cell id).value = some v ∧ ∀ index closure, ref.address = .closure index →
      (M.memory.space space).closure = some closure → M'.memory.captured closure index =
        .ok (.value v id)
  | .error (.raised e) M' => ∃ raised, e = raised.orSpan span ∧ M.Denies id raised M'
  | .error _ _ => True

/-- The operation, if it is a reference, is about a cell of the symbol that analysis has found for
its node, and ends with what comes of this cell. -/
def Code.Op.ReadsTarget (a : Analysis) (op : Op) (space : SpaceId) (M : Machine)
    (r : EStateM.Result Stop Machine Value) : Prop :=
  ∀ ref node, op.action = .reference ref node → ∃ found, a.references.get? node = some (.ok found) ∧
    ∃ id, ref.Denotes space M found.target id ∧ ref.Yields space op.span id M r

/-! ## Supplies -/

/-- Both supplies meet demands alike, and as they should. -/
structure Supply.Serves (a : Analysis) (K : FunctionId → Ty → Prop) (s s' : Supply) : Prop where
  force : ∀ (M : Machine) (id : CellId), M.Good a K → M.context.units.isSome = true →
    M.memory.Answers id → Safe a K (s (.force id)) (s' (.force id)) M
      fun v M' => (M'.memory.cell id).value = some v
  denies : ∀ (M : Machine) (id : CellId), M.Good a K → M.context.units.isSome = true →
    M.memory.Answers id → ∀ e M', s' (.force id) M = .error (.raised e) M' → M.Denies id e M'
  call : ∀ (M : Machine) (id : FunctionId) (args : List Value), M.Good a K →
    M.context.units.isSome = true → Safe a K (s (.call id args)) (s' (.call id args)) M
      fun v _ => (M.memory.function id).signature.returns.Holds v
  bind : ∀ (M : Machine) (id : CellId) (v : Value), M.Good a K → M.memory.HasCell id →
    (M.memory.cell id).Open → (M.memory.cell id).shape.ty.Holds v →
    Safe a K (s.bind id v) (s'.bind id v) M
      fun _ M' => M' = { M with memory := M.memory.bind id v }
  watch : ∀ (M : Machine) (op : Op) (σ : Option ScopeId) (space : SpaceId) (x y : Eval Value),
    M.Good a K → M.Fits space σ → op.Ok a K σ → op.ReadsTarget a space M (y M) →
    Safe a K x y M (fun v _ => op.staticType.Admits v) →
    Safe a K (s.watch op space x) (s'.watch op space y) M fun v _ => op.staticType.Admits v

end CellScript
