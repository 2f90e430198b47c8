import CellScript.Eval.Op
import CellScript.Proofs.Eval.Reference

/-!
# Spaces of blocks and calls

Laying out the template of a scope in its place gives a space of that scope; so does laying out the
space of a comprehension again. Binding a slot to a value of its type is safe.

* `Memory.Open` — a space whose cells may all be bound
* `Machine.Lays` — what a new space must be
* `Machine.Good.child`, `Machine.Good.callSpace`, `Machine.Good.fork` — new spaces
* `Eval.bindSlot_safe`, `Eval.bindSlots_safe` — binding slots
-/

namespace CellScript

open Code (Template)

variable {a : Analysis} {K : FunctionId → Ty → Prop} {m : Memory} {M : Machine} {σ : ScopeId}
  {space : SpaceId} {t : Template}

/-- A template that lays out the symbols of a scope gives a space of the scope. -/
theorem Space.laid_ofTemplate (ok : t.Ok a K σ) (enclosing : Option SpaceId)
    (closure : Option ClosureId) : (Space.ofTemplate t enclosing closure).Laid a K := by
  obtain ⟨rfl, symbols, slots⟩ := (Code.template_ok_iff t).mp ok
  refine ⟨fun i => ?_, fun i c hc => ?_⟩
  · show (((t.slots.map Cell.ofSlot).toArray)[i]?).map _ = (a.arena.scope t.scope).slots[i]?
    rw [List.getElem?_toArray, List.getElem?_map, ← symbols, List.getElem?_map, Option.map_map]
    rfl
  · change ((t.slots.map Cell.ofSlot).toArray)[i]? = some c at hc
    rw [List.getElem?_toArray, List.getElem?_map, Option.map_eq_some_iff] at hc
    obtain ⟨slot, found, rfl⟩ := hc
    exact ⟨slots slot (List.mem_of_getElem? found), fun v h => (by cases h),
      fun e h => (by cases h), ⟨fun h => (by cases h), fun _ h => (by cases h)⟩, fun _ => rfl⟩

/-- Nothing has members that is declared in a function or block. -/
theorem Analysis.Rooted.members_eq_none (rooted : a.Rooted) {slot : Nat} {s : SymbolId}
    (dynamic : (a.arena.scope σ).kind.isDynamic = true)
    (found : (a.arena.scope σ).slots[slot]? = some s) : (a.arena.symbol s).members = none := by
  cases hm : (a.arena.symbol s).members with
  | none => rfl
  | some inner =>
    obtain ⟨-, home, -⟩ := rooted.ready.slot σ slot s found
    have kind := rooted.ready.members s inner hm
    rcases rooted.ready.ownerHome inner s kind with units | ⟨owner, members⟩
    · rw [home] at units
      rw [units] at dynamic
      cases dynamic
    · rw [home] at members
      rw [members] at dynamic
      cases dynamic

/-- All cells of the space may be bound. -/
def Memory.Open (m : Memory) (space : SpaceId) : Prop := ∀ slot, (m.cell ⟨space, slot⟩).Open

/-- A new space of a scope has been laid out, and everything is still all right. -/
structure Machine.Lays (a : Analysis) (K : FunctionId → Ty → Prop) (M : Machine) (σ : ScopeId)
    (created : SpaceId × Memory) : Prop where
  step : Machine.Opens a K M { M with memory := created.2 } created.1
  fits : Machine.Fits { M with memory := created.2 } created.1 (some σ)
  «open» : created.2.Open created.1

/-- A new space for a function or block. -/
theorem Machine.Good.newSpace (good : M.Good a K) (rooted : a.Rooted) {s : Space}
    (scope : s.template.scope = σ) (attached : M.context.units.isSome = true)
    (dynamic : (a.arena.scope σ).kind.isDynamic = true) (laid : s.Laid a K)
    (placed : s.Placed a M.memory) (around : ∀ e, s.enclosing = some e → e ∈ M.memory.held)
    (fresh : ∀ (i : Nat) (c : Cell), s.cells[i]? = some c → c.Open) :
    M.Lays a K σ (M.memory.newSpace s) := by
  subst scope
  have ne : s.template.scope ≠ Analysis.globalScope := by
    refine rooted.ne_global fun kind => ?_
    rw [kind] at dynamic
    cases dynamic
  have here : (M.memory.newSpace s).2.space M.memory.spaces.size = s := by
    rw [Memory.space_newSpace, if_pos rfl]
  have idle : ∀ id, ((M.memory.newSpace s).2.cell id).evaluating = (M.memory.cell id).evaluating :=
    fun id => Memory.evaluating_newSpace _ (fun i c hc => (fresh i c hc).idle) id
  have bare : ∀ id, M.memory.spaces.size ≤ id.space → (M.memory.newSpace s).2.HasCell id →
      ((M.memory.newSpace s).2.cell id).shape.members = none := by
    intro id new has
    have same : id.space = M.memory.spaces.size := by
      have lt := has.1
      rw [Memory.size_spaces_newSpace] at lt
      exact Nat.le_antisymm (Nat.le_of_lt_succ lt) new
    have cell := has.getElem?
    rw [same, here] at cell
    have shape := (laid.cell _ _ cell).shape.members
    have symbol := laid.symbols id.slot
    rw [cell, Option.map_some] at symbol
    rw [shape, rooted.members_eq_none dynamic symbol.symm]
  obtain ⟨good', grows⟩ := good.step (Memory.grows_newSpace _ s)
    (good.memory.newSpace (fun he => absurd he ne) (fun _ => ⟨laid, placed⟩) around) bare
    idle (fun _ _ _ found => found) fun _ _ alive => List.mem_cons_of_mem _ alive
  refine ⟨⟨good', grows, rfl, idle, rfl, fun lasts => ?_⟩,
    ⟨attached, ?_, congrArg (·.template.scope) here, ne, List.mem_cons_self ..⟩, ?_⟩
  · have static := lasts.static
    rw [show (M.memory.newSpace s).2.space (M.memory.newSpace s).1 = s from here, dynamic] at static
    cases static
  · rw [Memory.size_spaces_newSpace]
    exact Nat.lt_succ_self _
  · intro slot
    have cell : (M.memory.newSpace s).2.cell ⟨M.memory.spaces.size, slot⟩ =
        (s.cells[slot]?).getD default := by
      rw [Memory.cell_eq, here]
    show ((M.memory.newSpace s).2.cell ⟨M.memory.spaces.size, slot⟩).Open
    rw [cell]
    cases hc : s.cells[slot]? with
    | none => exact ⟨rfl, rfl⟩
    | some c => exact fresh slot c hc

/-- Nobody has asked for the cells of a template yet. -/
theorem Space.open_ofTemplate (t : Template) (enclosing : Option SpaceId)
    (closure : Option ClosureId) (i : Nat) (c : Cell)
    (hc : (Space.ofTemplate t enclosing closure).cells[i]? = some c) : c.Open := by
  change ((t.slots.map Cell.ofSlot).toArray)[i]? = some c at hc
  rw [List.getElem?_toArray, List.getElem?_map, Option.map_eq_some_iff] at hc
  obtain ⟨slot, -, rfl⟩ := hc
  exact ⟨rfl, rfl⟩

/-- A block laid out inside a space of the scope around it. -/
theorem Machine.Good.child (good : M.Good a K) (rooted : a.Rooted) {outer : Option ScopeId}
    (fits : M.Fits space outer) (block : a.arena.BlockIn outer σ) (ok : t.Ok a K σ) :
    M.Lays a K σ (M.memory.child t space) := by
  obtain ⟨outer, n, rfl, kind, enclosing⟩ := block
  obtain ⟨attached, known, scope, ne, alive⟩ := fits
  obtain ⟨rfl, -, -⟩ := (Code.template_ok_iff t).mp ok
  refine good.newSpace rooted rfl attached (by rw [kind]; rfl)
    (Space.laid_ofTemplate ok _ _) ⟨fun n' kind' => ?_, fun n' kind' => ?_⟩ (fun e same => ?_)
    (Space.open_ofTemplate t _ _)
  · exact ⟨outer, space, enclosing, rfl, known, scope, rfl⟩
  · change (a.arena.scope t.scope).kind = _ at kind'
    rw [kind] at kind'
    cases kind'
  · cases same
    exact alive

/-- The space of a call of a function that has captured what it captures. -/
theorem Machine.Good.callSpace (good : M.Good a K) (rooted : a.Rooted) {n : NodeId} {id : ClosureId}
    (attached : M.context.units.isSome = true) (kind : (a.arena.scope σ).kind = .function n)
    (ok : t.Ok a K σ) (closes : M.memory.Closes (a.closedOver n) id) :
    M.Lays a K σ (M.memory.callSpace t id) := by
  obtain ⟨rfl, -, -⟩ := (Code.template_ok_iff t).mp ok
  refine good.newSpace rooted rfl attached (by rw [kind]; rfl)
    (Space.laid_ofTemplate ok _ _) ⟨fun n' kind' => ?_, fun n' kind' => ?_⟩
    (fun e same => by cases same) (Space.open_ofTemplate t _ _)
  · change (a.arena.scope t.scope).kind = _ at kind'
    rw [kind] at kind'
    cases kind'
  · change (a.arena.scope t.scope).kind = _ at kind'
    rw [kind] at kind'
    cases kind'
    exact ⟨id, rfl, closes⟩

/-- A block laid out again, with the values it has. -/
theorem Machine.Good.fork (good : M.Good a K) (rooted : a.Rooted) (fits : M.Fits space (some σ))
    (dynamic : (a.arena.scope σ).kind.isDynamic = true) : M.Lays a K σ (M.memory.fork space) := by
  obtain ⟨attached, known, rfl, ne, alive⟩ := fits
  have laid := good.memory.laid space known ne
  have placed := good.memory.placed space known ne
  refine good.newSpace rooted rfl attached dynamic ⟨fun i => ?_, fun i c hc => ?_⟩
    ⟨placed.block, placed.function⟩ (good.memory.held space alive).2 fun i c hc => ?_
  · rw [← laid.symbols i, Array.getElem?_map, Option.map_map]
    rfl
  · rw [Array.getElem?_map, Option.map_eq_some_iff] at hc
    obtain ⟨old, found, rfl⟩ := hc
    have ok := laid.cell i old found
    exact ⟨ok.shape, ok.value, fun e h => (by cases h), ⟨fun h => (by cases h), fun _ _ => rfl⟩,
      fun _ => rfl⟩
  · rw [Array.getElem?_map, Option.map_eq_some_iff] at hc
    obtain ⟨old, -, rfl⟩ := hc
    exact ⟨rfl, rfl⟩

/-- A cell that may be bound is bound to a value of its type. -/
theorem MemoryOk.bind {m : Memory} (ok : MemoryOk a K m) {id : CellId} {v : Value}
    (has : m.HasCell id) (free : (m.cell id).Open) (holds : (m.cell id).shape.ty.Holds v) :
    MemoryOk a K (m.bind id v) := by
  refine ok.modifyCell has (Cell.later_withValue _ v) fun σ ok =>
    ⟨ok.shape, fun w hw => ?_, ok.failure, ⟨fun busy => ?_, fun _ _ => free.sound⟩, ok.bare⟩
  · rw [Cell.value_withValue] at hw
    cases hv : (m.cell id).value with
    | some known =>
      rw [hv] at hw
      cases hw
      exact ok.value _ hv
    | none =>
      rw [hv] at hw
      cases hw
      exact holds
  · change (m.cell id).evaluating = true at busy
    rw [free.idle] at busy
    cases busy

namespace Eval

/-- A cell is bound to a value of its type. -/
theorem bind_step (good : M.Good a K) {id : CellId} {v : Value} (has : M.memory.HasCell id)
    (free : (M.memory.cell id).Open) (holds : (M.memory.cell id).shape.ty.Holds v) :
    Machine.Passes a K M { M with memory := M.memory.bind id v } := by
  refine good.stepSame (Memory.grows_modifyCell has (Cell.later_withValue _ v))
    (good.memory.bind has free holds) (Memory.size_spaces_modifyCell ..) (fun other => ?_)
    (fun _ _ _ found => found) rfl
  rw [Memory.bind, Memory.cell_modifyCell has]
  split
  · next he =>
    rw [he]
    rfl
  · rfl

/-- Binding a cell leaves all cells open that are. -/
theorem open_bind {m : Memory} {id : CellId} {v : Value} (has : m.HasCell id) (h : m.Open space) :
    (m.bind id v).Open space := by
  intro slot
  rw [Memory.bind, Memory.cell_modifyCell has]
  split
  · next he =>
    have free := h slot
    rw [he] at free
    exact ⟨free.idle, free.sound⟩
  · exact h slot

theorem bindCell_safe (good : M.Good a K) {id : CellId} {v : Value} (has : M.memory.HasCell id)
    (free : (M.memory.cell id).Open) (holds : (M.memory.cell id).shape.ty.Holds v) :
    Safe a K (bindCell id v) (bindCell id v) M
      fun _ M' => M' = { M with memory := M.memory.bind id v } :=
  .modifyMemory (bind_step good has free holds) rfl

/-- The identity of a new list or dictionary has nothing to do with cells. -/
theorem newObject_open (good : M.Good a K) (free : M.memory.Open space) :
    Safe a K (create Memory.newObject) (create Memory.newObject) M
      fun _ M' => M'.memory.Open space :=
  .create (good.stepSame (Memory.grows_newObject _) good.memory.newObject rfl (fun _ => rfl)
    (fun _ _ _ found => found) rfl) free

theorem cast_open (good : M.Good a K) (free : M.memory.Open space) (v : Value) (ty : Ty) :
    Safe a K (cast v ty) (cast v ty) M fun w M' => ty.Holds w ∧ M'.memory.Open space :=
  (newObject_open good free).bind fun _ _ good' _ free' =>
    .ofExcept good' (Value.cast_orderly _ v ty) fun _ h => ⟨Value.cast_holds h, free'⟩

section Slots

variable {s s' : Supply} (serves : s.Serves a K s')

include serves

theorem bindSlot_safe (good : M.Good a K) (fits : M.Fits space (some σ))
    (free : M.memory.Open space) {slot : Nat} {ty : Ty} {v : Value}
    (known : a.arena.SlotOf σ slot ty) (holds : ty.Holds v) :
    Safe a K (bindSlot s space slot v) (bindSlot s' space slot v) M
      fun _ M' => M'.memory.Open space := by
  obtain ⟨t, found, rfl⟩ := known
  obtain ⟨-, inside, scope, ne, -⟩ := fits
  obtain ⟨has, symbol⟩ := good.memory.hasCell inside scope ne found
  refine Safe.found (ask_of_ok (good.memory.cellIn inside scope ne found)) ?_
  refine (serves.bind M _ v good has (free slot) ?_).mono fun _ M' _ _ bound => ?_
  · rw [(good.memory.cell has).shape.ty, symbol]
    exact holds
  · rw [bound]
    exact open_bind has free

/-- A copy of a block gets an item of a generator. -/
theorem iteration_safe {β : Type} {f g : SpaceId → Eval β}
    (good : M.Good a K) (rooted : a.Rooted) (fits : M.Fits space (some σ))
    (dynamic : (a.arena.scope σ).kind.isDynamic = true) {slot : Nat} {ty : Ty}
    (known : a.arena.SlotOf σ slot ty) (item : Value)
    (rest : ∀ {inner : SpaceId} {M' : Machine}, M'.Good a K → M'.Fits inner (some σ) →
      Safe a K (f inner) (g inner) M' fun _ _ => True) :
    Safe a K
      (within (·.fork space) fun iteration => do
        let id ← ask (·.cellIn iteration slot)
        s.bind id (← Eval.cast item ty)
        f iteration)
      (within (·.fork space) fun iteration => do
        let id ← ask (·.cellIn iteration slot)
        s'.bind id (← Eval.cast item ty)
        g iteration) M fun _ _ => True := by
  obtain ⟨t, found, type⟩ := known
  obtain ⟨step, fits₁, free⟩ := good.fork rooted fits dynamic
  refine Safe.within (P := fun _ _ => True) good step ?_ fun _ _ _ _ => trivial
  have good₁ := step.good
  have open₁ : Memory.Open { M with memory := (M.memory.fork space).2 }.memory
    (M.memory.fork space).1 := free
  clear step
  generalize { M with memory := (M.memory.fork space).2 } = M₁ at fits₁ good₁ open₁ ⊢
  generalize (M.memory.fork space).1 = inner at fits₁ open₁ ⊢
  have inside := fits₁
  obtain ⟨-, known, scope, ne, -⟩ := inside
  obtain ⟨has, symbol⟩ := good₁.memory.hasCell known scope ne found
  refine Safe.found (ask_of_ok (good₁.memory.cellIn known scope ne found)) ?_
  refine (cast_open good₁ open₁ item ty).bind fun v M₂ good₂ grows₂ ⟨holds, open₂⟩ => ?_
  have has₂ := has.grows grows₂.memory
  refine (serves.bind M₂ _ v good₂ has₂ (open₂ slot) ?_).bind fun _ M₃ good₃ grows₃ _ =>
    rest good₃ ((fits₁.grows grows₂).grows grows₃)
  rw [(good₂.memory.cell has₂).shape.ty, (grows₂.memory.cell _ has.1).shape, symbol, type]
  exact holds

/-- Parts of a subject may stand in any slot that is made for them. -/
theorem bindSlots_safe (good : M.Good a K) (fits : M.Fits space (some σ))
    (free : M.memory.Open space) {bindings : Bindings}
    (known : ∀ b ∈ bindings, a.arena.SlotOf σ b.1 .any) :
    Safe a K (bindSlots s space bindings) (bindSlots s' space bindings) M
      fun _ M' => M'.memory.Open space :=
  .forM _ good free fun b hb _ good' grows' free' =>
    bindSlot_safe serves good' (fits.grows grows') free' (known b hb) (Ty.holds_any _)

/-- A catch clause gets to know of the exception. -/
theorem bindCaught_safe (good : M.Good a K) (fits : M.Fits space (some σ))
    (free : M.memory.Open space) {error trace : Option Nat} (he : a.arena.Receives σ error)
    (ht : a.arena.Receives σ trace) (e : Exception) :
    Safe a K (bindCaught s error trace e space) (bindCaught s' error trace e space) M
      fun _ M' => M'.memory.Open space := by
  have receive : ∀ {M' : Machine} (slot : Option Nat) (value : ObjectId → Value),
      M'.Good a K → M.Grows M' → M'.memory.Open space → a.arena.Receives σ slot →
      Safe a K (slot.forM fun slot => do bindSlot s space slot (value (← create Memory.newObject)))
        (slot.forM fun slot => do bindSlot s' space slot (value (← create Memory.newObject))) M'
        fun _ M'' => M''.memory.Open space := by
    intro M' slot value good' grows' free' receives
    cases slot with
    | none => exact .pure good' free'
    | some slot =>
      refine (newObject_open good' free').bind fun id M₁ good₁ grows₁ free₁ => ?_
      exact bindSlot_safe serves good₁ ((fits.grows grows').grows grows₁) free₁ (receives slot rfl)
        (Ty.holds_any _)
  refine (receive error _ good (.refl M) free he).bind fun _ M₂ good₂ grows₂ free₂ => ?_
  exact receive trace _ good₂ grows₂ free₂ ht

end Slots

end Eval

end CellScript
