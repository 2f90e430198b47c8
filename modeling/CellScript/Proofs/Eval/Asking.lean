import CellScript.Proofs.Eval.Careful
import CellScript.Proofs.Eval.Demand

/-!
# References ask for cells that are bound

Where a space is equipped for what an operation looks at, the references of the operation lead to
cells that may be asked for: to definitions, which are computed, and to cells of the spaces around
it, which are provided. Captured symbols are pending only for cells that have no value to give.

* `Machine.Hosts` — an operation may be evaluated in a space
* `Supply.Attends` — demands are met alike and with care, if they may be made
* `Machine.Hosts.askable` — the cell of a reference may be asked for
* `Eval.reference_careful`, `Eval.captureAll_careful` — references are evaluated, and captured, with
  care
-/

namespace CellScript

open Code (CapturePlan CellRef)

variable {a : Analysis} {K : FunctionId → Ty → Prop} {n : Nat} {m : Memory} {M M' : Machine}
  {σ : ScopeId} {space : SpaceId} {t : SymbolId} {below : Nat → Nat → Prop}

/-- What stands in a scope, if it stands in any, and looks at such cells may be evaluated in the
space. -/
structure Machine.Hosts (a : Analysis) (K : FunctionId → Ty → Prop) (n : Nat) (M : Machine)
    (space : SpaceId) (σ : Option ScopeId) (below : Nat → Nat → Prop) :
    Prop extends Machine.Tidy a K n M where
  fits : M.Fits space σ
  equips : M.memory.Equips a space below

namespace Machine.Hosts

variable {σ : Option ScopeId}

theorem later (h : M.Hosts a K n space σ below) (goes : M.Goes a K n M') :
    M'.Hosts a K n space σ below :=
  ⟨h.toTidy.later goes, h.fits.grows goes.grows, h.equips.grows goes.grows.memory h.nests⟩

theorem entered {inner : SpaceId} (h : M.Hosts a K n space σ below)
    (enters : M.Enters a K n M' inner) :
    M'.Hosts a K n space σ below :=
  ⟨h.toTidy.entered enters, h.fits.grows enters.grows, h.equips.grows enters.grows.memory h.nests⟩

/-- Whoever looks at less may be evaluated too. -/
theorem imp {less : Nat → Nat → Prop} (h : M.Hosts a K n space σ below)
    (imp : ∀ count depth, below count depth → less count depth) : M.Hosts a K n space σ less :=
  ⟨h.toTidy, h.fits, h.equips.imp imp⟩

theorem withStack (h : M.Hosts a K n space σ below) (stack : List Frame) :
    Machine.Hosts a K n { M with context := { M.context with stack := stack } } space σ below := by
  refine ⟨h.toTidy.withStack stack, ?_, h.equips⟩
  cases σ with
  | none => trivial
  | some σ => exact h.fits

end Machine.Hosts

/-- Both supplies meet demands alike, as they should, and with care. Only cells are asked for that
may be, and only cells are bound that have no value. -/
structure Supply.Attends (a : Analysis) (K : FunctionId → Ty → Prop) (s s' : Supply) : Prop where
  force : ∀ {n : Nat} {M : Machine} {id : CellId}, M.Tidy a K n → M.context.units.isSome = true →
    M.memory.Answers id → M.memory.Askable a id →
    Careful a K n (s (.force id)) (s' (.force id)) M fun v M' => (M'.memory.cell id).value = some v
  call : ∀ {n : Nat} {M : Machine} (id : FunctionId) (args : List Value), M.Tidy a K n →
    M.context.units.isSome = true → Careful a K n (s (.call id args)) (s' (.call id args)) M
      fun v _ => (M.memory.function id).signature.returns.Holds v
  bind : ∀ {n : Nat} {M : Machine} {id : CellId} {v : Value}, M.Tidy a K n → M.memory.HasCell id →
    (M.memory.cell id).Open → (M.memory.cell id).value = .none → n ≤ id.space →
    (M.memory.cell id).shape.ty.Holds v →
    Careful a K n (s.bind id v) (s'.bind id v) M fun _ M' =>
      M' = { M with memory := M.memory.bind id v }
  watch : s.watch.Lenient a K
  idle : s'.watch = .idle

/-! ## Cells that references lead to -/

/-- What has a path of slots is not laid out anew. -/
theorem Arena.SlotPath.static {arena : Arena} {path : List Nat} (h : arena.SlotPath t path) :
    ¬(arena.scope (arena.symbol t).scope).kind.isDynamic = true := by
  intro dynamic
  cases h with
  | unit home =>
    rw [home] at dynamic
    cases dynamic
  | member home _ =>
    rw [home] at dynamic
    cases dynamic

namespace Eval

theorem ask_eq_ok {α : Type} {f : Memory → Except Exception α} {v : α} (h : ask f M = .ok v M') :
    f M.memory = .ok v := by
  change ofExcept (f M.memory) M = _ at h
  cases hf : f M.memory with
  | error e =>
    rw [hf] at h
    cases h
  | ok w =>
    rw [hf] at h
    cases h
    rfl

/-- The place of a cell that a reference leads to outwards. -/
theorem resolve_place {ref : CellRef} {depth slot : Nat} {id : CellId}
    (place : ref.address.place? = some (depth, slot)) (h : resolve space ref M = .ok id M') :
    M.memory.outward? depth space = some id.space ∧ id.slot = slot := by
  have inSpace : ∀ {outer : SpaceId} {M M' : Machine}, (ask fun m => m.cellIn outer slot) M =
      .ok id M' → id.space = outer ∧ id.slot = slot := by
    intro outer M M' found
    obtain ⟨-, rfl⟩ := (Memory.cellIn_eq_ok_iff ..).mp (ask_eq_ok found)
    exact ⟨rfl, rfl⟩
  have outwards : ∀ d, (do
      let outer ← ask (·.ancestor d space)
      ask (·.cellIn outer slot) : Eval CellId) M = .ok id M' →
      M.memory.outward? d space = some id.space ∧ id.slot = slot := by
    intro d h
    obtain ⟨outer, M₁, found, h⟩ := bind_eq_ok.mp h
    obtain ⟨rfl, rfl⟩ := inSpace h
    exact ⟨Memory.outward?_of_ancestor (ask_eq_ok found), rfl⟩
  unfold resolve at h
  cases ha : ref.address with
  | own slot' =>
    rw [ha] at place h
    cases place
    obtain ⟨same, rfl⟩ := inSpace h
    exact ⟨by rw [same]; rfl, rfl⟩
  | parent slot' | frame depth' slot' =>
    rw [ha] at place h
    cases place
    exact outwards _ h
  | closure | absolute =>
    rw [ha] at place
    cases place

end Eval

/-- **The cell that a reference leads to may be asked for.** -/
theorem Machine.Hosts.askable (h : M.Hosts a K n space (some σ) below) (rooted : a.Rooted)
    {ref : CellRef} (leads : ref.Leads a σ t) (direct : ∀ index, ref.address ≠ .closure index)
    (looks : ∀ count depth, below count depth → ref.Below count depth) {id : CellId}
    (found : Eval.resolve space ref M = .ok id M) (has : M.memory.HasCell id)
    (symbol : (M.memory.cell id).shape.symbol = t) : M.memory.Askable a id := by
  by_cases anew : M.memory.Anew a id.space
  · cases place : ref.address.place? with
    | none =>
      -- Only definitions have a path from the units.
      have address := leads.address
      cases ha : ref.address with
      | closure index => exact absurd ha (direct index)
      | absolute path =>
        rw [ha] at address
        rw [Memory.Anew, h.memory.scope_of_symbol rooted has symbol] at anew
        exact absurd anew address.static
      | own | parent | frame =>
        rw [ha] at place
        cases place
    | some at' =>
      obtain ⟨depth, slot⟩ := at'
      obtain ⟨outer, rfl⟩ := Eval.resolve_place place found
      exact h.equips.askable outer anew has fun count looked => looks count depth looked _ place
  · refine h.neat.askable h.nests has anew ?_
    rw [symbol]
    exact leads.isVariable

/-! ## References -/

namespace Eval

variable {s s' : Supply}

/-- What waits for a cell is filled with the value of that cell. -/
theorem fill_goes {id : ClosureId} {index : Nat} {v : Value} {cell : CellId} (tidy : M.Tidy a K n)
    (origin : ((M.memory.closure id)[index]?).map Captured.origin = some cell)
    (value : (M.memory.cell cell).value = some v) :
    M.Goes a K n { M with memory := M.memory.fill id index v } :=
  ⟨fill_safe tidy.toGood origin value, .of_spaces tidy.neat rfl⟩

/-- A captured symbol that is pending is asked for in vain, if at all. -/
theorem askable_of_pending (good : M.Good a K) {id : ClosureId} {index : Nat} {cell : CellId}
    (found : (M.memory.closure id)[index]? = some (.pending cell)) : M.memory.Askable a cell :=
  fun _ free => absurd (good.waits id index cell found) free

theorem captured_careful (attends : s.Attends a K s') (tidy : M.Tidy a K n)
    (attached : M.context.units.isSome = true) {id : ClosureId} {index : Nat} {c : Captured}
    (found : (M.memory.closure id)[index]? = some c) (has : M.memory.HasCell c.origin)
    (symbol : (M.memory.cell c.origin).shape.symbol = t) :
    Careful a K n (captured s id index) (captured s' id index) M
      fun v _ => (a.arena.symbol t).ty.Holds v := by
  refine Careful.found (ask_of_ok (Memory.captured_eq found)) ?_
  cases c with
  | empty => exact absurd found (tidy.memory.filled id index)
  | value v origin =>
    exact .pure tidy (tidy.memory.holds symbol (tidy.memory.captured id index v origin found))
  | pending cell =>
    have answers : M.memory.Answers cell := ⟨has, .inr (tidy.waits id index cell found)⟩
    refine (attends.force tidy attached answers (askable_of_pending tidy.toGood found)).bind tidy
      fun v M₁ goes₁ value => ?_
    have tidy₁ := tidy.later goes₁
    have entry : ((M₁.memory.closure id)[index]?).map Captured.origin = some cell := by
      rw [← List.getElem?_map, goes₁.grows.memory.origins id (closure_lt found),
        List.getElem?_map, found]
      rfl
    have goes₂ := fill_goes tidy₁ entry value
    refine Careful.modified tidy₁ goes₂ (.pure (tidy₁.later goes₂) ?_)
    have symbol₁ : (M₁.memory.cell cell).shape.symbol = t := by
      rw [(goes₁.grows.memory.cell cell has.1).shape]
      exact symbol
    exact tidy₁.memory.holds symbol₁ value

/-- **A reference asks for what may be asked for.** -/
theorem reference_careful (attends : s.Attends a K s') (rooted : a.Rooted) {ref : CellRef}
    (h : M.Hosts a K n space (some σ) fun count depth => ref.Below count depth)
    (leads : ref.Leads a σ t) :
    Careful a K n (reference s space ref) (reference s' space ref) M fun v _ => ref.ty.Holds v := by
  have attached := h.fits.1
  rw [leads.ty]
  cases ha : ref.address with
  | closure index =>
    have address := leads.address
    rw [ha] at address
    obtain ⟨id, c, closure, found, has, symbol⟩ := h.toGood.captured rooted h.fits address
    unfold reference
    simp only [ha]
    refine Careful.memory ?_
    rw [closure]
    exact captured_careful attends h.toTidy attached found has symbol
  | own | parent | frame | absolute =>
    have direct : ∀ index, ref.address ≠ .closure index := fun index h => by
      rw [ha] at h
      cases h
    obtain ⟨id, found, has, symbol, alive⟩ := resolve_eq h.toGood rooted h.fits leads direct
    have askable := h.askable rooted leads direct (fun _ _ looks => looks) found has symbol
    unfold reference
    simp only [ha]
    refine Careful.found found ?_
    refine (attends.force h.toTidy attached ⟨has, .inl alive⟩ askable).mono
      fun v M' goes value => ?_
    refine goes.good.memory.holds ?_ value
    rw [(goes.grows.memory.cell _ has.1).shape]
    exact symbol

/-- **A symbol is captured from a cell that may be asked for.** -/
theorem capture_careful (attends : s.Attends a K s') (rooted : a.Rooted) {σ : Option ScopeId}
    {plan : CapturePlan} (h : M.Hosts a K n space σ fun count depth => plan.Below count depth)
    (ok : plan.Ok a σ t) :
    Careful a K n (capture s space plan) (capture s' space plan) M fun c M' =>
      c.Ok M'.memory t := by
  have good := h.toGood
  obtain ⟨creation, rfl, ok⟩ := ok
  have attached := h.fits.1
  cases plan with
  | propagate index =>
    obtain ⟨id, c, closure, found, has, symbol⟩ := good.captured rooted h.fits ok
    unfold capture
    refine Careful.memory ?_
    rw [closure]
    refine Careful.found (ask_of_ok (Memory.captured_eq found)) ?_
    refine .pure h.toTidy ?_
    cases c with
    | empty => exact absurd found (good.memory.filled id index)
    | value v origin =>
      refine ⟨has, symbol, fun h => (by cases h), fun w o hw => ?_, fun cell hc => (by cases hc)⟩
      cases hw
      exact good.memory.captured id index v origin found
    | pending cell =>
      simp only [Memory.settled]
      cases hv : (M.memory.cell cell).value with
      | none =>
        refine ⟨has, symbol, fun h => (by cases h), fun w o hw => (by cases hw), fun other hc => ?_⟩
        cases hc
        exact good.waits id index cell found
      | some v =>
        refine ⟨has, symbol, fun h => (by cases h), fun w o hw => ?_, fun other hc => (by cases hc)⟩
        cases hw
        exact hv
  | cell ref =>
    obtain ⟨id, found, has, symbol, alive⟩ := resolve_eq good rooted h.fits ok.1 ok.2
    have askable := h.askable rooted ok.1 ok.2 (fun _ _ looks => looks) found has symbol
    unfold capture
    refine Careful.found found ?_
    refine Careful.memory ?_
    cases hv : (M.memory.cell id).value with
    | some v =>
      simp only [hv]
      refine .pure h.toTidy ⟨has, symbol, fun h => (by cases h), fun w o hw => ?_, fun cell hc =>
        (by cases hc)⟩
      cases hw
      exact hv
    | none =>
      simp only [hv]
      split
      · next busy =>
        refine .pure h.toTidy ⟨has, symbol, fun h => (by cases h), fun w o hw => (by cases hw),
          fun cell hc => ?_⟩
        cases hc
        exact .inl busy
      · refine (attends.force h.toTidy attached ⟨has, .inl alive⟩ askable).bind h.toTidy
          fun v M' goes value => ?_
        refine .pure (h.toTidy.later goes) ⟨has.grows goes.grows.memory, ?_, fun h => (by cases h),
          fun w o hw => ?_, fun cell hc => (by cases hc)⟩
        · show (M'.memory.cell id).shape.symbol = t
          rw [(goes.grows.memory.cell id has.1).shape]
          exact symbol
        · cases hw
          exact value

/-- All symbols that a function captures are captured. -/
theorem captureAll_careful (attends : s.Attends a K s') (rooted : a.Rooted) {σ : Option ScopeId}
    {plans : List CapturePlan} {symbols : List SymbolId}
    (ok : List.Forall₂ (CapturePlan.Ok a σ) plans symbols) {M : Machine}
    (h : M.Hosts a K n space σ fun count depth => ∀ plan ∈ plans, plan.Below count depth) :
    Careful a K n (plans.mapM (capture s space)) (plans.mapM (capture s' space)) M
      fun captured M' => List.Forall₂ (fun t c => Captured.Ok M'.memory t c) symbols captured := by
  induction ok generalizing M with
  | nil =>
    rw [List.mapM_nil, List.mapM_nil]
    exact .pure h.toTidy .nil
  | cons first _ ih =>
    rw [List.mapM_cons, List.mapM_cons]
    have here := h.imp fun _ _ all => (List.forall_mem_cons.mp all).1
    have others := h.imp fun _ _ all => (List.forall_mem_cons.mp all).2
    refine (capture_careful attends rooted here first).bind h.toTidy fun c M₁ goes₁ captured => ?_
    have others₁ := others.later goes₁
    refine (ih others₁).bind others₁.toTidy fun cs M₂ goes₂ all => ?_
    exact .pure (others₁.toTidy.later goes₂)
      (.cons (captured.later goes₂.grows.memory goes₂.rests.evaluating) all)

end Eval

end CellScript
