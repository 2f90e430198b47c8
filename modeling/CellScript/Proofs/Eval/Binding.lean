import CellScript.Proofs.Eval.Asking

/-!
# Slots are bound once

The slots of a block that nothing computes are bound when the block is laid out, each of them once:
those of a match clause by the pattern, those of a handler by the exception, those of a call by the
arguments. The slots of a comprehension are bound one after the other, each in a copy of the block
in which it has no value yet.

* `Memory.Bound` — which slots of a space have been bound
* `Eval.bindSlots_careful`, `Eval.bindCaught_careful` — slots are bound with care
* `Memory.BlockOf.equips` — a block whose slots have been bound is equipped for what stands in it
* `Machine.Stages` — the slots of a comprehension are provided up to a number, and later ones not
  bound yet
* `Eval.iteration_careful` — a copy of the block gets an item of a generator
-/

namespace CellScript

open Code (Template)

variable {a : Analysis} {K : FunctionId → Ty → Prop} {n : Nat} {m : Memory} {M M' : Machine}
  {σ : ScopeId} {space inner block : SpaceId} {t : Template} {below : Nat → Nat → Prop}

/-! ## Bound slots -/

/-- These slots of the space have been bound, no others have a value, and all may be bound. -/
structure Memory.Bound (m : Memory) (space : SpaceId) (slots : List Nat) : Prop where
  free : m.Open space
  value : ∀ slot, (m.cell ⟨space, slot⟩).value.isSome = true ↔ slot ∈ slots

namespace Memory

theorem Bound.of_spaces {m' : Memory} {slots : List Nat} (h : m.Bound inner slots)
    (same : m'.spaces = m.spaces) : m'.Bound inner slots := by
  have cell : ∀ id, m'.cell id = m.cell id := fun id => by
    rw [Memory.cell, Memory.cell, Memory.space, Memory.space, same]
  exact ⟨fun slot => by rw [cell]; exact h.free slot, fun slot => by rw [cell]; exact h.value slot⟩

theorem Bound.empty {slots : List Nat} (h : m.Bound inner slots) {slot : Nat}
    (other : slot ∉ slots) :
    (m.cell ⟨inner, slot⟩).value = none :=
  Option.not_isSome_iff_eq_none.mp fun bound => other ((h.value slot).mp bound)

theorem Bound.bind {slots : List Nat} (h : m.Bound inner slots) {slot : Nat}
    (has : m.HasCell ⟨inner, slot⟩) (v : Value) :
    (m.bind ⟨inner, slot⟩ v).Bound inner (slots ++ [slot]) := by
  refine ⟨Eval.open_bind has h.free, fun other => ?_⟩
  rw [Memory.bind, cell_modifyCell has, List.mem_append, List.mem_singleton]
  split
  · next same =>
    cases same
    rw [Cell.value_withValue]
    refine iff_of_true ?_ (.inr rfl)
    cases (m.cell ⟨inner, slot⟩).value <;> rfl
  · next ne =>
    rw [h.value]
    exact ⟨.inl, fun mem => mem.resolve_right fun same => ne (by rw [same])⟩

theorem Bound.full {slots : List Nat} (h : m.Bound inner slots)
    (all : ∀ slot, m.HasCell ⟨inner, slot⟩ → slot ∈ slots) : m.Full inner :=
  fun slot has _ => (h.value slot).mpr (all slot has)

/-- Nothing has been bound in a space that was just laid out from a template. -/
theorem bound_ofTemplate (m : Memory) (t : Template) (enclosing : Option SpaceId)
    (closure : Option ClosureId) :
    (m.newSpace (.ofTemplate t enclosing closure)).2.Bound m.spaces.size [] := by
  have blank : ∀ slot, let c :=
    (m.newSpace (.ofTemplate t enclosing closure)).2.cell ⟨m.spaces.size, slot⟩
      c.Open ∧ c.value = none := by
    intro slot
    rw [cell_eq, space_newSpace, if_pos rfl]
    show Cell.Open (((t.slots.map Cell.ofSlot).toArray[slot]?).getD default) ∧
      (((t.slots.map Cell.ofSlot).toArray[slot]?).getD default).value = none
    rw [List.getElem?_toArray, List.getElem?_map]
    cases t.slots[slot]? with
    | none => exact ⟨⟨rfl, rfl⟩, rfl⟩
    | some s => exact ⟨⟨rfl, rfl⟩, rfl⟩
  refine ⟨fun slot => (blank slot).1, fun slot => ?_⟩
  rw [(blank slot).2]
  exact iff_of_false (fun h => by cases h) (fun h => by cases h)

end Memory

/-- The slots of a space are those of its scope. -/
theorem MemoryOk.slot_lt (ok : MemoryOk a K m) {slot : Nat}
    (scope : (m.space inner).template.scope = σ) (has : m.HasCell ⟨inner, slot⟩) :
    slot < (a.arena.scope σ).slots.length := by
  have symbols := (ok.laid _ has.1 (ok.scope_ne has)).symbols slot
  rw [has.getElem?, Option.map_some, scope] at symbols
  exact (List.getElem?_eq_some_iff.mp symbols.symm).1

/-! ## New spaces -/

/-- Laying out a space for a function or block is a careful step. -/
theorem Machine.Tidy.lays (tidy : M.Tidy a K n) {s : Space}
    (lays : M.Lays a K σ (M.memory.newSpace s)) (scope : s.template.scope = σ)
    (dynamic : (a.arena.scope σ).kind.isDynamic = true)
    (fresh : ∀ (i : Nat) (c : Cell), s.cells[i]? = some c → c.Open) :
    M.Enters a K n { M with memory := (M.memory.newSpace s).2 } (M.memory.newSpace s).1 := by
  subst scope
  refine ⟨lays.step, tidy.neat.newSpace tidy.nests (fun i c hc withheld => ?_) (.inl dynamic),
    .newSpace s tidy.low⟩
  have free := fresh i c hc
  rcases withheld with busy | failed
  · rw [free.idle] at busy
    cases busy
  · rw [free.sound] at failed
    cases failed

/-- A block of a scope lies in a space. It was laid out after the first `n` spaces. -/
structure Machine.Nested (a : Analysis) (K : FunctionId → Ty → Prop) (n : Nat) (M : Machine)
    (t : Template) (space inner : SpaceId) (σ : ScopeId) : Prop extends Machine.Tidy a K n M where
  fits : M.Fits inner (some σ)
  block : M.memory.BlockOf t space inner
  new : n ≤ inner

theorem Machine.Nested.later (h : M.Nested a K n t space inner σ) (goes : M.Goes a K n M') :
    M'.Nested a K n t space inner σ :=
  ⟨h.toTidy.later goes, h.fits.grows goes.grows, h.block.grows goes.grows.memory, h.new⟩

/-- A block laid out in a space of the scope around it. -/
theorem Machine.Tidy.child (tidy : M.Tidy a K n) (rooted : a.Rooted) {outer : Option ScopeId}
    (fits : M.Fits space outer) (block : a.arena.BlockIn outer σ) (ok : t.Ok a K σ) :
    M.Enters a K n { M with memory := (M.memory.child t space).2 } (M.memory.child t space).1 ∧
      Machine.Nested a K n { M with memory := (M.memory.child t space).2 } t space
        (M.memory.child t space).1 σ ∧
      (M.memory.child t space).2.Bound (M.memory.child t space).1 [] := by
  have lays := tidy.toGood.child rooted fits block ok
  obtain ⟨-, k, -, kind, -⟩ := block
  have enters := tidy.lays lays ((Code.template_ok_iff t).mp ok).1 (by rw [kind]; rfl)
    (Space.open_ofTemplate t _ _)
  exact ⟨enters, ⟨tidy.entered enters, lays.fits, M.memory.blockOf_child t space, tidy.low⟩,
    M.memory.bound_ofTemplate t _ _⟩

/-! ## Blocks -/

namespace Memory

theorem BlockOf.slot (h : m.BlockOf t space inner) {slot : Nat} (has : m.HasCell ⟨inner, slot⟩) :
    t.slots[slot]? = some (m.cell ⟨inner, slot⟩).shape := by
  rw [← h.shapes, List.getElem?_map, Array.getElem?_toList, has.getElem?]
  rfl

/-- **A block is equipped for what stands in it** if its cells are provided as far as they are
looked at, and the space around it is equipped for the rest. -/
theorem BlockOf.equips (h : m.BlockOf t space inner)
    (around : m.Equips a space fun count depth => t.Below count (depth + 1) ∧
      below count (depth + 1))
    (shows : m.Shows inner (below · 0)) (order : m.Full inner ∨ Code.SlotsInOrder t.slots) :
    m.Equips a inner below := by
  refine .inside h.known h.enclosing (around.imp fun _ _ looks => looks.2) shows
    fun slot init has computed => ⟨order.imp_right fun ordered =>
      ?_, around.imp fun count depth looks => ?_⟩
  · exact ordered slot _ init (h.slot has) computed
  · have inits := (Code.template_below_iff t).mp looks.1 _ (List.mem_of_getElem? (h.slot has))
    rwa [computed] at inits

/-- Nothing has to be bound in a block all of whose slots are computed. -/
theorem BlockOf.full (h : m.BlockOf t space inner) (inits : ∀ s ∈ t.slots, s.init.isSome = true) :
    m.Full inner := by
  intro slot has bare
  have computed := inits _ (List.mem_of_getElem? (h.slot has))
  rw [bare] at computed
  cases computed

end Memory

/-- What stands in a block may be evaluated there once all its slots are provided. -/
theorem Machine.Nested.hosts (h : M.Nested a K n t space inner σ) (below : Nat → Nat → Prop)
    (around : M.memory.Equips a space fun count depth => t.Below count (depth + 1) ∧
      below count (depth + 1))
    (full : M.memory.Full inner) : M.Hosts a K n inner (some σ) below :=
  ⟨h.toTidy, h.fits, h.block.equips around (.inl full) (.inl full)⟩

/-! ## Binding -/

namespace Eval

/-- A cell without a value gets one. -/
theorem bind_goes (tidy : M.Tidy a K n) {id : CellId} {v : Value} (has : M.memory.HasCell id)
    (free : (M.memory.cell id).Open) (new : n ≤ id.space)
    (holds : (M.memory.cell id).shape.ty.Holds v) :
    M.Goes a K n { M with memory := M.memory.bind id v } := by
  refine ⟨bind_step tidy.toGood has free holds, tidy.neat.modifyCell has rfl fun withheld => ?_,
    .modifyCell has fun low => absurd low (Nat.not_lt_of_le new)⟩
  exact tidy.neat.started id withheld

theorem bindCell_careful (tidy : M.Tidy a K n) {id : CellId} {v : Value} (has : M.memory.HasCell id)
    (free : (M.memory.cell id).Open) (new : n ≤ id.space)
    (holds : (M.memory.cell id).shape.ty.Holds v) :
    Careful a K n (bindCell id v) (bindCell id v) M fun _ M' =>
      M' = { M with memory := M.memory.bind id v } :=
  .modifyMemory (bind_goes tidy has free new holds) rfl

theorem cast_careful (tidy : M.Tidy a K n) (v : Value) (ty : Ty) :
    Careful a K n (cast v ty) (cast v ty) M
    fun w M' => ty.Holds w ∧ M'.memory.spaces = M.memory.spaces :=
  .lift tidy (.cast v ty) (cast_safe tidy.toGood v ty)

theorem newObject_careful (tidy : M.Tidy a K n) :
    Careful a K n (create Memory.newObject) (create Memory.newObject) M
      fun _ M' => True ∧ M'.memory.spaces = M.memory.spaces :=
  .lift tidy (.create fun _ => rfl) (newObject_safe tidy.toGood)

section Slots

variable {s s' : Supply} (attends : s.Attends a K s')

include attends

/-- A slot that has not been bound yet is bound. -/
theorem bindSlot_careful (tidy : M.Tidy a K n) (fits : M.Fits inner (some σ)) (new : n ≤ inner)
    {slots : List Nat} (bound : M.memory.Bound inner slots) {slot : Nat} (other : slot ∉ slots)
    {ty : Ty} {v : Value} (known : a.arena.SlotOf σ slot ty) (holds : ty.Holds v) :
    Careful a K n (bindSlot s inner slot v) (bindSlot s' inner slot v) M
      fun _ M' => M'.memory.Bound inner (slots ++ [slot]) := by
  obtain ⟨t, found, rfl⟩ := known
  obtain ⟨-, inside, scope, ne, -⟩ := fits
  obtain ⟨has, symbol⟩ := tidy.memory.hasCell inside scope ne found
  refine Careful.found (ask_of_ok (tidy.memory.cellIn inside scope ne found)) ?_
  have typed : (M.memory.cell ⟨inner, slot⟩).shape.ty.Holds v := by
    rw [(tidy.memory.cell has).shape.ty, symbol]
    exact holds
  refine (attends.bind tidy has (bound.free slot) (bound.empty other) new typed).mono
    fun _ M' _ same => ?_
  rw [same]
  exact bound.bind has v

/-- Parts of a subject are bound, each to a slot of its own. -/
theorem bindSlots_careful (tidy : M.Tidy a K n) (fits : M.Fits inner (some σ)) (new : n ≤ inner)
    (bound : M.memory.Bound inner []) {bindings : Bindings}
    (known : ∀ b ∈ bindings, a.arena.SlotOf σ b.1 .any) (apart : (bindings.map (·.1)).Nodup) :
    Careful a K n (bindSlots s inner bindings) (bindSlots s' inner bindings) M
      fun _ M' => M'.memory.Bound inner (bindings.map (·.1)) := by
  refine Careful.forM (P := fun done M' => M'.memory.Bound inner (done.map (·.1))) bindings tidy
    bound fun done b rest split M' goes bound' => ?_
  rw [split, List.map_append, List.map_cons] at apart
  have other : b.1 ∉ done.map (·.1) := fun mem =>
    (List.nodup_append.mp apart).2.2 _ mem _ (List.mem_cons_self ..) rfl
  rw [List.map_append]
  exact bindSlot_careful attends (tidy.later goes) (fits.grows goes.grows) new bound' other
    (known b (by rw [split]; exact List.mem_append_right _ (List.mem_cons_self ..)))
      (Ty.holds_any _)

/-- A catch clause gets to know of the exception, in slots that have not been bound yet. -/
theorem bindCaught_careful (nested : M.Nested a K n t space inner σ)
    (bound : M.memory.Bound inner []) {error trace : Option Nat} (he : a.arena.Receives σ error)
    (ht : a.arena.Receives σ trace) (apart : (error.toList ++ trace.toList).Nodup) (e : Exception) :
    Careful a K n (bindCaught s error trace e inner) (bindCaught s' error trace e inner) M
      fun _ M' => M'.Nested a K n t space inner σ ∧
        M'.memory.Bound inner (error.toList ++ trace.toList) := by
  have receive : ∀ {M' : Machine} {slots : List Nat} (slot : Option Nat)
      (value : ObjectId → Value), M'.Nested a K n t space inner σ → M'.memory.Bound inner slots →
      a.arena.Receives σ slot → (slots ++ slot.toList).Nodup →
      Careful a K n
        (slot.forM fun slot => do bindSlot s inner slot (value (← create Memory.newObject)))
        (slot.forM fun slot => do bindSlot s' inner slot (value (← create Memory.newObject))) M'
          fun _ M'' => M''.Nested a K n t space inner σ ∧
            M''.memory.Bound inner (slots ++ slot.toList) := by
    intro M' slots slot value nested bound receives apart
    cases slot with
    | none =>
      rw [Option.toList_none, List.append_nil]
      exact .pure nested.toTidy ⟨nested, bound⟩
    | some slot =>
      refine (newObject_careful nested.toTidy).bind nested.toTidy fun id M₁ goes₁ ⟨_, same⟩ => ?_
      have nested₁ := nested.later goes₁
      have other : slot ∉ slots := fun mem =>
        (List.nodup_append.mp apart).2.2 _ mem _ (List.mem_singleton.mpr rfl) rfl
      exact (bindSlot_careful attends nested₁.toTidy nested₁.fits nested.new (bound.of_spaces same)
        other (receives slot rfl) (Ty.holds_any _)).mono fun _ M₂ goes₂ bound₂ =>
          ⟨nested₁.later goes₂, bound₂⟩
  have first : ([] ++ error.toList : List Nat).Nodup := (List.nodup_append.mp apart).1
  exact (receive error _ nested bound he first).bind nested.toTidy fun _ M₂ _ ⟨nested₂, bound₂⟩ =>
    receive trace _ nested₂ bound₂ ht apart

end Slots

end Eval

/-! ## Comprehensions -/

/-- The slots of the block of a comprehension are provided up to a number. Those from there on that
nothing computes have not been bound yet. -/
structure Machine.Stages (a : Analysis) (K : FunctionId → Ty → Prop) (n : Nat) (M : Machine)
    (t : Template) (space block : SpaceId) (σ : ScopeId) (count : Nat) :
    Prop extends Machine.Tidy a K n M where
  fits : M.Fits block (some σ)
  laid : M.memory.BlockOf t space block
  provides : M.memory.Provides block count
  late : ∀ slot, count ≤ slot → (M.memory.cell ⟨block, slot⟩).shape.init = none →
    (M.memory.cell ⟨block, slot⟩).value = none

namespace Machine.Stages

variable {count : Nat}

/-- What leaves the block alone leaves its slots as they are. -/
theorem later (h : M.Stages a K n t space block σ count) (low : block < n)
    (goes : M.Goes a K n M') :
    M'.Stages a K n t space block σ count := by
  refine ⟨h.toTidy.later goes, h.fits.grows goes.grows, h.laid.grows goes.grows.memory,
    h.provides.grows goes.grows.memory h.laid.known, fun slot le bare => ?_⟩
  rw [(goes.grows.memory.cell ⟨block, slot⟩ h.laid.known).shape] at bare
  exact goes.abstains _ low bare (h.late slot le bare)

/-- The spaces that are there now. -/
theorem now (h : M.Stages a K n t space block σ count) :
    M.Stages a K M.memory.spaces.size t space block σ count :=
  ⟨h.toTidy.now, h.fits, h.laid, h.provides, h.late⟩

/-- A block is staged when it is laid out. -/
theorem start (nested : M.Nested a K n t space block σ) (bound : M.memory.Bound block []) :
    M.Stages a K n t space block σ 0 :=
  ⟨nested.toTidy, nested.fits, nested.block, fun slot lt => absurd lt (Nat.not_lt_zero slot),
    fun _ _ _ => bound.empty (by simp)⟩

/-- One more slot is provided. -/
theorem next (h : M.Stages a K n t space block σ count)
    (provided : (M.memory.cell ⟨block, count⟩).Provided) :
    M.Stages a K n t space block σ (count + 1) := by
  refine ⟨h.toTidy, h.fits, h.laid, fun slot lt has => ?_, fun slot le =>
    h.late slot (Nat.le_of_lt le)⟩
  rcases Nat.lt_succ_iff_lt_or_eq.mp lt with lt | rfl
  · exact h.provides slot lt has
  · exact provided

/-- What looks at the slots provided so far may be evaluated in the block. -/
theorem hosts (h : M.Stages a K n t space block σ count) (ordered : Code.SlotsInOrder t.slots)
    (below : Nat → Nat → Prop)
    (around : M.memory.Equips a space fun count depth => t.Below count (depth + 1) ∧
      below count (depth + 1))
    (looks : below count 0) : M.Hosts a K n block (some σ) below :=
  ⟨h.toTidy, h.fits, h.laid.equips around (.inr ⟨count, looks, h.provides⟩) (.inr ordered)⟩

/-- Once all slots are provided, whatever stands in the block may be evaluated there. -/
theorem hosts_all (h : M.Stages a K n t space block σ count) (all : count = t.slots.length)
    (around : M.memory.Equips a space fun count depth => t.Below count (depth + 1) ∧
      below count (depth + 1)) :
    M.Hosts a K n block (some σ) below := by
  have full : M.memory.Full block := fun slot has => by
    refine h.provides slot ?_ has
    rw [all]
    exact (List.getElem?_eq_some_iff.mp (h.laid.slot has)).1
  exact ⟨h.toTidy, h.fits, h.laid.equips around (.inl full) (.inl full)⟩

end Machine.Stages

/-- The cells of a copy have the values of the cells that they were copied from. -/
theorem Memory.cell_fork (m : Memory) (block : SpaceId) (slot : Nat) :
    ((m.fork block).2.cell ⟨(m.fork block).1, slot⟩).shape = (m.cell ⟨block, slot⟩).shape ∧
      ((m.fork block).2.cell ⟨(m.fork block).1, slot⟩).value = (m.cell ⟨block, slot⟩).value := by
  rw [cell_eq, cell_eq, space_fork]
  simp only [Array.getElem?_map]
  cases (m.space block).cells[slot]? <;> exact ⟨rfl, rfl⟩

namespace Eval

variable {s s' : Supply} {count : Nat}

/-- **A copy of a block gets an item of a generator**, in a slot that has no value yet. -/
theorem iteration_careful {β : Type} (attends : s.Attends a K s') {f g : SpaceId → Eval β}
    (stages : M.Stages a K n t space block σ count) (rooted : a.Rooted)
    (dynamic : (a.arena.scope σ).kind.isDynamic = true) {ty : Ty}
    (known : a.arena.SlotOf σ count ty) (bare : ∀ slot, t.slots[count]? = some slot →
      slot.init = none) (item : Value)
    (rest : ∀ {inner : SpaceId} {M' : Machine}, M.Grows M' →
      M'.Stages a K n t space inner σ (count + 1) →
      Careful a K n (f inner) (g inner) M' fun _ _ => True) :
    Careful a K n
      (within (·.fork block) fun iteration => do
        let id ← ask (·.cellIn iteration count)
        s.bind id (← Eval.cast item ty)
        f iteration)
      (within (·.fork block) fun iteration => do
        let id ← ask (·.cellIn iteration count)
        s'.bind id (← Eval.cast item ty)
        g iteration) M fun _ _ => True := by
  have tidy := stages.toTidy
  obtain ⟨symbol, found, type⟩ := known
  have lays := tidy.toGood.fork rooted stages.fits dynamic
  have enters : M.Enters a K n { M with memory := (M.memory.fork block).2 }
      (M.memory.fork block).1 :=
    tidy.lays lays stages.fits.2.2.1 dynamic fun i c hc => by
      rw [Array.getElem?_map, Option.map_eq_some_iff] at hc
      obtain ⟨old, -, rfl⟩ := hc
      exact ⟨rfl, rfl⟩
  -- The copy is as far as the block.
  have copy : Machine.Stages a K n { M with memory := (M.memory.fork block).2 } t space
      (M.memory.fork block).1 σ count := by
    refine ⟨tidy.entered enters, lays.fits, stages.laid.fork, fun slot lt has =>
      ?_, fun slot le => ?_⟩
    · intro bare
      obtain ⟨shape, value⟩ := M.memory.cell_fork block slot
      have had : M.memory.HasCell ⟨block, slot⟩ := by
        refine ⟨stages.laid.known, ?_⟩
        have lt := has.2
        change slot < ((M.memory.fork block).2.space (M.memory.fork block).1).cells.size at lt
        rw [Memory.space_fork] at lt
        simpa using lt
      rw [shape] at bare
      rw [value]
      exact stages.provides slot lt had bare
    · obtain ⟨shape, value⟩ := M.memory.cell_fork block slot
      rw [shape, value]
      exact stages.late slot le
  have free : (M.memory.fork block).2.Open (M.memory.fork block).1 := lays.open
  have new : n ≤ (M.memory.fork block).1 := tidy.low
  refine Careful.within (P := fun _ _ => True) tidy enters ?_ fun _ _ _ _ => trivial
  have grows₁ := enters.grows
  clear enters
  generalize hM₁ : ({ M with memory := (M.memory.fork block).2 } : Machine) = M₁ at copy grows₁ ⊢
  generalize (M.memory.fork block).1 = inner at copy free new ⊢
  have free₁ : M₁.memory.Open inner := by
    rw [← hM₁]
    exact free
  have fits₁ := copy.fits
  obtain ⟨-, inside, scope, ne, -⟩ := fits₁
  obtain ⟨has, symbol'⟩ := copy.memory.hasCell inside scope ne found
  refine Careful.found (ask_of_ok (copy.memory.cellIn inside scope ne found)) ?_
  refine (cast_careful copy.toTidy item ty).bind copy.toTidy fun v M₂ goes₂ ⟨holds, same⟩ => ?_
  have cells : ∀ id, M₂.memory.cell id = M₁.memory.cell id := fun id => by
    rw [Memory.cell, Memory.cell, Memory.space, Memory.space, same]
  have empty : (M₁.memory.cell ⟨inner, count⟩).value = none :=
    copy.late count (Nat.le_refl _) (bare _ (copy.laid.slot has))
  have typed : (M₂.memory.cell ⟨inner, count⟩).shape.ty.Holds v := by
    rw [cells, (copy.memory.cell has).shape.ty, symbol', type]
    exact holds
  have has₂ := has.grows goes₂.grows.memory
  have tidy₂ := copy.toTidy.later goes₂
  refine (attends.bind tidy₂ has₂ (by rw [cells]; exact free₁ count) (by rw [cells]; exact empty)
    new typed).bind tidy₂ fun _ M₃ goes₃ bound => ?_
  have along := goes₂.trans copy.low goes₃
  refine rest (grows₁.trans along.grows) ?_
  have provided : (M₃.memory.cell ⟨inner, count⟩).Provided := fun _ => by
    rw [bound]
    show ((M₂.memory.bind _ v).cell _).value.isSome = true
    rw [Memory.value_bind_self has₂ (by rw [cells]; exact empty)]
    rfl
  -- No other slot of the copy was bound.
  refine ⟨copy.toTidy.later along, copy.fits.grows along.grows, copy.laid.grows along.grows.memory,
    fun slot lt has₃ => ?_, fun slot le bare' => ?_⟩
  · rcases Nat.lt_succ_iff_lt_or_eq.mp lt with lt | rfl
    · exact copy.provides.grows along.grows.memory copy.laid.known slot lt has₃
    · exact provided
  · rw [(along.grows.memory.cell ⟨inner, slot⟩ copy.laid.known).shape] at bare'
    have other : (⟨inner, slot⟩ : CellId) ≠ ⟨inner, count⟩ := fun same => by
      cases same
      exact absurd le (Nat.not_succ_le_self _)
    rw [bound]
    show ((M₂.memory.bind _ v).cell _).value = none
    rw [Memory.bind, Memory.cell_modifyCell_ne _ other, cells]
    exact copy.late slot (Nat.le_of_lt le) bare'

end Eval

end CellScript
