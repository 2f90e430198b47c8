import CellScript.Eval.Lemmas
import CellScript.Eval.Op
import CellScript.Proofs.Code.CallFree
import CellScript.Proofs.Memory.Budget

/-!
# Steps that end

`Halts` says of a step that it ends, with a result or an exception and never for want of fuel, in a
later machine in which no function has run. `Affords` says of a machine that the fuel suffices for
whatever can be reached from a space, and for some work besides. Once it suffices it goes on to
suffice.

* `Machine.Tame`, `Machine.Keeps` — machines in which no function runs, and what steps leave alone
* `Halts.bind`, `Halts.attempt`, `Halts.inFrame`, `Halts.mapM` — the rules that put steps together
* `Machine.Affords` — the fuel suffices
* `Machine.Affords.block`, `Machine.Affords.around`, `Machine.Affords.later` — and goes on to
  suffice
-/

namespace CellScript

open Code (Template)

variable {α β : Type} {static space : SpaceId} {M M' M'' : Machine}

/-- No function is running: whatever there is was laid out for definitions and blocks, and no value
of a cell runs a function. Only spaces that are static hold members. -/
structure Machine.Tame (static : SpaceId) (M : Machine) : Prop where
  low : static ≤ M.memory.spaces.size
  closure : ∀ id, (M.memory.space id).closure = none
  inside : ∀ id e, (M.memory.space id).enclosing = some e → e < id
  members : ∀ id s, (M.memory.cell id).members = some s → s < static
  inits : ∀ id, Code.optionCallFree (M.memory.cell id).shape.init
  units : ∀ u, M.context.units = some u → u < static

/-- The second machine is the first one at a later time. No function is running, and the same cells
are being computed. -/
structure Machine.Keeps (static : SpaceId) (M M' : Machine) : Prop where
  tame : M'.Tame static
  grows : M.memory.Grows M'.memory
  units : M'.context.units = M.context.units
  evaluating : ∀ id, (M'.memory.cell id).evaluating = (M.memory.cell id).evaluating

namespace Machine

/-- What else than spaces has changed does not matter. -/
theorem Tame.of_spaces (h : M.Tame static) (same : M'.memory.spaces = M.memory.spaces)
    (units : M'.context.units = M.context.units) : M'.Tame static := by
  have space : ∀ id, M'.memory.space id = M.memory.space id := fun id => by
    rw [Memory.space, Memory.space, same]
  have cell : ∀ id, M'.memory.cell id = M.memory.cell id := fun id => by
    rw [Memory.cell, Memory.cell, space]
  exact ⟨by rw [same]; exact h.low, fun id => by rw [space]; exact h.closure id,
    fun id e he => h.inside id e (by rw [← space]; exact he),
    fun id s hs => h.members id s (by rw [← cell]; exact hs),
    fun id => by rw [cell]; exact h.inits id, fun u hu => h.units u (by rw [← units]; exact hu)⟩

theorem Tame.modifyCell (h : M.Tame static) {id : CellId} (has : M.memory.HasCell id)
    {f : Cell → Cell} (shape : (f (M.memory.cell id)).shape = (M.memory.cell id).shape)
    (members : ∀ s, (f (M.memory.cell id)).members = some s → s < static) :
    Machine.Tame static { M with memory := M.memory.modifyCell id f } := by
  refine ⟨?_, fun other => ?_, fun other e he => ?_, fun other s hs => ?_, fun other => ?_, h.units⟩
  · show static ≤ (M.memory.modifyCell id f).spaces.size
    rw [Memory.size_spaces_modifyCell]
    exact h.low
  · exact (M.memory.space_modifyCell_later id f other).closure.trans (h.closure other)
  · exact h.inside other e ((M.memory.space_modifyCell_later id f other).enclosing.symm.trans he)
  · change ((M.memory.modifyCell id f).cell other).members = _ at hs
    rw [Memory.cell_modifyCell has] at hs
    split at hs
    · exact members s hs
    · exact h.members other s hs
  · show Code.optionCallFree ((M.memory.modifyCell id f).cell other).shape.init
    rw [Memory.cell_modifyCell has]
    split
    · rw [shape]
      exact h.inits id
    · exact h.inits other

/-- Spaces that are laid out for good become static. -/
theorem Tame.raise {more : SpaceId} (h : M.Tame static) (le : static ≤ more)
    (low : more ≤ M.memory.spaces.size) : M.Tame more :=
  ⟨low, h.closure, h.inside, fun id s hs => Nat.lt_of_lt_of_le (h.members id s hs) le, h.inits,
    fun u hu => Nat.lt_of_lt_of_le (h.units u hu) le⟩

theorem Tame.keeps (h : M.Tame static) : M.Keeps static M := ⟨h, .refl _, rfl, fun _ => rfl⟩

theorem Keeps.trans (h : M.Keeps static M') (h' : M'.Keeps static M'') : M.Keeps static M'' :=
  ⟨h'.tame, h.grows.trans h'.grows, h'.units.trans h.units,
    fun id => (h'.evaluating id).trans (h.evaluating id)⟩

/-- A change that leaves all spaces as they are. -/
theorem Tame.keeps_of_spaces (h : M.Tame static) (same : M'.memory.spaces = M.memory.spaces)
    (grows : M.memory.Grows M'.memory) (units : M'.context.units = M.context.units) :
    M.Keeps static M' := by
  refine ⟨h.of_spaces same units, grows, units, fun id => ?_⟩
  rw [Memory.cell, Memory.cell, Memory.space, Memory.space, same]

/-- A change of a cell that neither begins nor ends its computation. -/
theorem Tame.keeps_modifyCell (h : M.Tame static) {id : CellId} (has : M.memory.HasCell id)
    {f : Cell → Cell} (later : (M.memory.cell id).Later (f (M.memory.cell id)))
    (members : (f (M.memory.cell id)).members = (M.memory.cell id).members)
    (idle : (f (M.memory.cell id)).evaluating = (M.memory.cell id).evaluating) :
    M.Keeps static { M with memory := M.memory.modifyCell id f } := by
  refine ⟨h.modifyCell has later.shape fun s hs => h.members id s (members.symm.trans hs),
    Memory.grows_modifyCell has later, rfl, fun other => ?_⟩
  show ((M.memory.modifyCell id f).cell other).evaluating = _
  rw [Memory.cell_modifyCell has]
  split
  · next he => rw [he, idle]
  · rfl

/-- A new space inside another one, with cells that nobody has asked for. -/
theorem Tame.keeps_newSpace (h : M.Tame static) {s : Space} (closure : s.closure = none)
    (inside : ∀ e, s.enclosing = some e → e < M.memory.spaces.size)
    (cells : ∀ (i : Nat) (c : Cell), s.cells[i]? = some c →
      c.evaluating = false ∧ c.members = none ∧ Code.optionCallFree c.shape.init) :
    M.Keeps static { M with memory := (M.memory.newSpace s).2 } := by
  have cell : ∀ id, (M.memory.newSpace s).2.cell id = M.memory.cell id ∨
      ∃ i : Nat, (M.memory.newSpace s).2.cell id = (s.cells[i]?).getD default := by
    intro id
    rw [Memory.cell_eq, Memory.space_newSpace, Memory.cell_eq]
    split
    · exact .inr ⟨_, rfl⟩
    · exact .inl rfl
  have fresh : ∀ i : Nat, ((s.cells[i]?).getD default).members = none ∧
      Code.optionCallFree ((s.cells[i]?).getD default).shape.init := by
    intro i
    cases hc : s.cells[i]? with
    | none => exact ⟨rfl, trivial⟩
    | some c => exact (cells i c hc).2
  refine ⟨⟨?_, fun id => ?_, Memory.inside_newSpace h.inside inside, fun id s' hs =>
    ?_, fun id => ?_,
    h.units⟩, Memory.grows_newSpace _ s, rfl,
    Memory.evaluating_newSpace _ fun i c hc => (cells i c hc).1⟩
  · show static ≤ (M.memory.newSpace s).2.spaces.size
    rw [Memory.size_spaces_newSpace]
    exact Nat.le_succ_of_le h.low
  · show ((M.memory.newSpace s).2.space id).closure = none
    rw [Memory.space_newSpace]
    split
    · exact closure
    · exact h.closure id
  · rcases cell id with same | ⟨i, same⟩
    · exact h.members id s' (same ▸ hs)
    · change ((M.memory.newSpace s).2.cell id).members = some s' at hs
      rw [same, (fresh i).1] at hs
      cases hs
  · show Code.optionCallFree ((M.memory.newSpace s).2.cell id).shape.init
    rcases cell id with same | ⟨i, same⟩
    · rw [same]
      exact h.inits id
    · rw [same]
      exact (fresh i).2

end Machine

/-! ## Steps -/

/-- The step ends, with a result or with an exception, and no function has run. -/
def Halts (static : SpaceId) (x : Eval α) (M : Machine) (post : α → Machine → Prop) : Prop :=
  (∃ v M', x M = .ok v M' ∧ M.Keeps static M' ∧ post v M') ∨
    ∃ e M', x M = .error (.raised e) M' ∧ M.Keeps static M'

namespace Halts

variable {x : Eval α} {post P : α → Machine → Prop} {Q : β → Machine → Prop}

theorem pure {v : α} (tame : M.Tame static) (h : post v M) : Halts static (Pure.pure v) M post :=
  .inl ⟨v, M, rfl, tame.keeps, h⟩

theorem raise {e : Exception} (tame : M.Tame static) : Halts static (Eval.raise e) M post :=
  .inr ⟨e, M, rfl, tame.keeps⟩

theorem ofExcept {r : Except Exception α} (tame : M.Tame static) (h : ∀ v, r = .ok v → post v M) :
    Halts static (Eval.ofExcept r) M post := by
  cases r with
  | ok v => exact pure tame (h v rfl)
  | error e => exact raise tame

/-- An outcome of the value library of which nothing more is asked. -/
theorem outcome {r : Except Exception α} (tame : M.Tame static) :
    Halts static (Eval.ofExcept r) M fun _ _ => True :=
  ofExcept tame fun _ _ => trivial

theorem ask {f : Memory → Except Exception α} (tame : M.Tame static)
    (h : ∀ v, f M.memory = .ok v → post v M) : Halts static (Eval.ask f) M post :=
  ofExcept (r := f M.memory) tame h

theorem create {f : Memory → α × Memory}
    (keeps : M.Keeps static { M with memory := (f M.memory).2 })
    (h : post (f M.memory).1 { M with memory := (f M.memory).2 }) :
    Halts static (Eval.create f) M post :=
  .inl ⟨_, _, rfl, keeps, h⟩

theorem mono (h : Halts static x M P) (imp : ∀ v M', M.Keeps static M' → P v M' → post v M') :
    Halts static x M post := by
  rcases h with ⟨v, M', ran, keeps, hv⟩ | raised
  · exact .inl ⟨v, M', ran, keeps, imp v M' keeps hv⟩
  · exact .inr raised

theorem bind {f : α → Eval β} (h : Halts static x M P)
    (rest : ∀ v M', M.Keeps static M' → P v M' → Halts static (f v) M' Q) :
    Halts static (x >>= f) M Q := by
  rcases h with ⟨v, M', ran, keeps, hv⟩ | ⟨e, M', ran, keeps⟩
  · rcases rest v M' keeps hv with ⟨w, M'', ran', keeps', hw⟩ | ⟨e, M'', ran', keeps'⟩
    · exact .inl ⟨w, M'', by rw [Eval.bind_of_ok ran, ran'], keeps.trans keeps', hw⟩
    · exact .inr ⟨e, M'', by rw [Eval.bind_of_ok ran, ran'], keeps.trans keeps'⟩
  · exact .inr ⟨e, M', Eval.bind_of_error ran f, keeps⟩

/-- Asking memory for something leaves the machine as it is. -/
theorem asked {f : Memory → Except Exception α} {g : α → Eval β} (tame : M.Tame static)
    (rest : ∀ v, f M.memory = .ok v → Halts static (g v) M Q) :
    Halts static (Eval.ask f >>= g) M Q := by
  cases hf : f M.memory with
  | ok v =>
    have same : (Eval.ask f >>= g) M = g v M := Eval.bind_of_ok (Eval.ask_of_ok hf) g
    rw [Halts, same]
    exact rest v hf
  | error e =>
    have failed : Eval.ask f M = .error (.raised e) M := by
      show Eval.ofExcept (f M.memory) M = _
      rw [hf]
      rfl
    exact .inr ⟨e, M, Eval.bind_of_error failed g, tame.keeps⟩

theorem memory {f : Memory → Eval β} (h : Halts static (f M.memory) M Q) :
    Halts static (Eval.memory >>= f) M Q := h

theorem context {f : Context → Eval β} (h : Halts static (f M.context) M Q) :
    Halts static (Eval.context >>= f) M Q := h

/-- Nothing is raised by an attempt. -/
theorem attempted (h : Halts static x M P) :
    ∃ r M', Eval.attempt x M = .ok r M' ∧ M.Keeps static M' := by
  rcases h with ⟨v, M', ran, keeps, -⟩ | ⟨e, M', ran, keeps⟩
  · exact ⟨_, M', Eval.attempt_of_ok ran, keeps⟩
  · exact ⟨_, M', Eval.attempt_of_raised ran, keeps⟩

theorem attempt (h : Halts static x M P) : Halts static (Eval.attempt x) M fun _ _ => True := by
  obtain ⟨r, M', ran, keeps⟩ := h.attempted
  exact .inl ⟨r, M', ran, keeps, trivial⟩

theorem located (h : Halts static x M P) (span : Span) :
    Halts static (Eval.located span x) M P := by
  rcases h with ⟨v, M', ran, keeps, hv⟩ | ⟨e, M', ran, keeps⟩
  · exact .inl ⟨v, M', Eval.located_of_ok ran span, keeps, hv⟩
  · exact .inr ⟨_, M', Eval.located_of_raised ran span, keeps⟩

theorem inFrame {frame : Frame} (h : Halts static x { M with context := M.context.push frame } P) :
    Halts static (Eval.inFrame frame x) M fun _ _ => True := by
  have left : ∀ {M' : Machine}, Machine.Keeps static { M with context := M.context.push frame } M' →
      M.Keeps static { M' with context := M'.context.pop } := fun keeps =>
    ⟨keeps.tame.of_spaces rfl rfl, keeps.grows, keeps.units, keeps.evaluating⟩
  rcases h with ⟨v, M', ran, keeps, -⟩ | ⟨e, M', ran, keeps⟩
  · exact .inl ⟨v, _, Eval.inFrame_of_ok ran, left keeps, trivial⟩
  · exact .inr ⟨_, _, Eval.inFrame_of_raised ran, left keeps⟩

theorem holding (h : Halts static x M P) (space : SpaceId) :
    Halts static (Eval.holding space x) M fun _ _ => True := by
  have left : ∀ {M' : Machine}, M.Keeps static M' → M.Keeps static (M'.dropped space) :=
    fun keeps =>
    keeps.trans (keeps.tame.keeps_of_spaces rfl (Memory.grows_drop ..) rfl)
  rcases h with ⟨v, M', ran, keeps, -⟩ | ⟨e, M', ran, keeps⟩
  · exact .inl ⟨v, _, Eval.holding_of_ok ran space, left keeps, trivial⟩
  · exact .inr ⟨e, _, Eval.holding_of_error ran space, left keeps⟩

/-! ## Loops -/

theorem mapM {f : α → Eval β} (as : List α) (tame : M.Tame static)
    (step : ∀ v ∈ as, ∀ M', M.Keeps static M' → Halts static (f v) M' fun _ _ => True) :
    Halts static (as.mapM f) M fun _ _ => True := by
  induction as generalizing M with
  | nil =>
    rw [List.mapM_nil]
    exact pure tame trivial
  | cons v rest ih =>
    rw [List.mapM_cons]
    refine (step v (List.mem_cons_self ..) M tame.keeps).bind fun w M₁ keeps₁ _ => ?_
    refine (ih keeps₁.tame fun v hv M' keeps => step v (List.mem_cons_of_mem _ hv) M'
      (keeps₁.trans keeps)).bind fun ws M₂ keeps₂ _ => ?_
    exact pure keeps₂.tame trivial

theorem forM {f : α → Eval PUnit} (as : List α) (tame : M.Tame static)
    (step : ∀ v ∈ as, ∀ M', M.Keeps static M' → Halts static (f v) M' fun _ _ => True) :
    Halts static (as.forM f) M fun _ _ => True := by
  induction as generalizing M with
  | nil => exact pure tame trivial
  | cons v rest ih =>
    show Halts static (f v >>= fun _ => rest.forM f) M _
    refine (step v (List.mem_cons_self ..) M tame.keeps).bind fun _ M₁ keeps₁ _ => ?_
    exact ih keeps₁.tame fun v hv M' keeps => step v (List.mem_cons_of_mem _ hv) M'
      (keeps₁.trans keeps)

theorem foldlM {f : β → α → Eval β} (as : List α) {b : β} (tame : M.Tame static)
    (step : ∀ b v M', M.Keeps static M' → Halts static (f b v) M' fun _ _ => True) :
    Halts static (as.foldlM f b) M fun _ _ => True := by
  induction as generalizing M b with
  | nil => exact pure tame trivial
  | cons v rest ih =>
    rw [List.foldlM_cons]
    refine (step b v M tame.keeps).bind fun b' M₁ keeps₁ _ => ?_
    exact ih keeps₁.tame fun b v M' keeps => step b v M' (keeps₁.trans keeps)

end Halts

/-! ## New values -/

namespace Eval

theorem newObject_halts (tame : M.Tame static) :
    Halts static (create Memory.newObject) M fun _ _ => True :=
  .create (tame.keeps_of_spaces rfl (Memory.grows_newObject _) rfl) trivial

theorem newList_halts (tame : M.Tame static) (items : List Value) :
    Halts static (newList items) M fun _ _ => True :=
  (newObject_halts tame).bind fun _ _ keeps _ => .pure keeps.tame trivial

theorem newDict_halts (tame : M.Tame static) (entries : Entries Value) :
    Halts static (newDict entries) M fun _ _ => True :=
  (newObject_halts tame).bind fun _ _ keeps _ => .pure keeps.tame trivial

theorem cast_halts (tame : M.Tame static) (v : Value) (ty : Ty) :
    Halts static (cast v ty) M fun _ _ => True :=
  (newObject_halts tame).bind fun _ _ keeps _ => .outcome keeps.tame

theorem newFunction_halts (tame : M.Tame static) (f : FunctionObject) :
    Halts static (create (·.newFunction f)) M fun _ _ => True :=
  .create (tame.keeps_of_spaces rfl (Memory.grows_newFunction _ f) rfl) trivial

theorem bindList_halts (tame : M.Tame static) (slot : Option Nat) (items : List Value) :
    Halts static (bindList slot items) M fun _ _ => True := by
  cases slot with
  | none => exact .pure tame trivial
  | some slot => exact (newList_halts tame items).bind fun _ _ keeps _ => .pure keeps.tame trivial

theorem bindDict_halts (tame : M.Tame static) (slot : Option Nat) (entries : Entries Value) :
    Halts static (bindDict slot entries) M fun _ _ => True := by
  cases slot with
  | none => exact .pure tame trivial
  | some slot => exact (newDict_halts tame entries).bind fun _ _ keeps _ => .pure keeps.tame trivial

/-- Fixing arguments of a function does not run it. -/
theorem curry_halts (tame : M.Tame static) (id : FunctionId) (args : List (String × Value)) :
    Halts static (curry id args) M fun _ _ => True := by
  refine Halts.memory ((Halts.foldlM args tame fun fixed arg M' keeps => ?_).bind
    fun fixed M₁ keeps₁ _ => newFunction_halts keeps₁.tame _)
  unfold FunctionObject.fix
  split
  · exact (cast_halts keeps.tame _ _).bind fun _ _ keeps' _ => .pure keeps'.tame trivial
  · exact .raise keeps.tame

theorem newClosure_halts (tame : M.Tame static) (captured : List Captured) :
    Halts static (newClosure captured) M fun _ _ => True := by
  have created : Halts static (create (·.newClosure captured)) M fun _ _ => True :=
    .create (tame.keeps_of_spaces rfl (Memory.grows_newClosure _ captured) rfl) trivial
  refine created.bind fun closure M₁ keeps₁ _ => ?_
  refine (Halts.forM _ keeps₁.tame fun d _ M' keeps => ?_).bind
    fun _ M₂ keeps₂ _ => .pure keeps₂.tame trivial
  exact .inl ⟨_, _, rfl, keeps.tame.keeps_of_spaces rfl (.refl _) rfl, trivial⟩

theorem cellIn_halts (tame : M.Tame static) (space : SpaceId) (slot : Nat) :
    Halts static (ask (·.cellIn space slot)) M
      fun id M' => M'.memory.HasCell id ∧ id.space = space :=
  .ask tame fun _ found => Memory.hasCell_of_cellIn found

theorem bindCell_halts (tame : M.Tame static) {id : CellId}
    (has : M.memory.HasCell id) (v : Value) :
    Halts static (bindCell id v) M fun _ _ => True := by
  refine .inl ⟨⟨⟩, _, rfl, tame.keeps_modifyCell has ⟨rfl, fun _ h => h, fun w hw =>
    ?_, fun _ h => h⟩ rfl
    rfl, trivial⟩
  rw [Cell.value_withValue, hw]
  rfl

end Eval

/-! ## Fuel that suffices -/

/-- The fuel suffices for all that may still be asked for in reach of a space, and for as much work
besides. -/
structure Machine.Affords (static : SpaceId) (M : Machine) (space : SpaceId)
    (work fuel : Nat) : Prop where
  tame : M.Tame static
  known : space < M.memory.spaces.size
  budget : ∃ cells, M.memory.Sees static space cells ∧ M.memory.load cells + work < fuel

namespace Machine.Affords

variable {work part fuel : Nat} {other : SpaceId} {t : Template}

/-- Once the fuel suffices, it goes on to suffice. -/
theorem later (h : M.Affords static space work fuel) (keeps : M.Keeps static M') :
    M'.Affords static space work fuel := by
  obtain ⟨cells, sees, enough⟩ := h.budget
  refine ⟨keeps.tame, Nat.lt_of_lt_of_le h.known keeps.grows.spaces, cells,
    sees.grows keeps.grows h.tame.inside h.tame.low h.known, ?_⟩
  have falls := Memory.load_le_of_grows keeps.grows keeps.evaluating sees.known
  omega

theorem less (h : M.Affords static space work fuel) (le : part ≤ work) :
    M.Affords static space part fuel := by
  obtain ⟨cells, sees, enough⟩ := h.budget
  exact ⟨h.tame, h.known, cells, sees, by omega⟩

/-- What suffices in a space suffices in those that can be reached from it. -/
theorem around (h : M.Affords static space work fuel) (known : other < M.memory.spaces.size)
    (place : M.memory.Around static space other) : M.Affords static other work fuel := by
  obtain ⟨cells, sees, enough⟩ := h.budget
  exact ⟨h.tame, known, cells, sees.around h.tame.inside place, enough⟩

/-- The stack has no part in what the fuel must suffice for. -/
theorem push (h : M.Affords static space work fuel) (frame : Frame) :
    Machine.Affords static { M with context := M.context.push frame } space work fuel :=
  ⟨h.tame.of_spaces rfl rfl, h.known, h.budget⟩

/-- Fuel for a template besides suffices inside a block that is laid out from it. -/
theorem block (h : M.Affords static space work fuel) (block : M.memory.BlockOf t space other)
    (le : sizeOf t + part ≤ work) : M.Affords static other part fuel := by
  obtain ⟨cells, sees, enough⟩ := h.budget
  refine ⟨h.tame, block.known, cells ∪ M.memory.cellSet other, block.sees sees, ?_⟩
  have union := M.memory.load_union_le cells (M.memory.cellSet other)
  have inner := block.load_le
  omega

end Machine.Affords

/-! ## Blocks -/

namespace Eval

variable {t : Template}

/-- A block laid out in a space. -/
theorem child_halts (tame : M.Tame static) (known : space < M.memory.spaces.size)
    (template : t.CallFree) : Halts static (create (·.child t space)) M
      fun inner M' => M'.memory.BlockOf t space inner := by
  refine .create (tame.keeps_newSpace (tame.closure space) (fun e he => ?_) fun i c hc => ?_)
    (M.memory.blockOf_child t space)
  · cases he
    exact known
  · change ((t.slots.map Cell.ofSlot).toArray)[i]? = some c at hc
    rw [List.getElem?_toArray, List.getElem?_map, Option.map_eq_some_iff] at hc
    obtain ⟨slot, found, rfl⟩ := hc
    exact ⟨rfl, rfl, (Code.template_callFree_iff t).mp template slot (List.mem_of_getElem? found)⟩

/-- A block laid out again. -/
theorem fork_halts (tame : M.Tame static) {block : SpaceId}
    (laid : M.memory.BlockOf t space block) :
    Halts static (create (·.fork block)) M fun inner M' => M'.memory.BlockOf t space inner := by
  refine .create (tame.keeps_newSpace (tame.closure block) (fun e he => ?_) fun i c hc =>
    ?_) laid.fork
  · exact Nat.lt_trans (tame.inside block e he) laid.known
  · rw [Array.getElem?_map, Option.map_eq_some_iff] at hc
    obtain ⟨old, found, rfl⟩ := hc
    have cell := (@Memory.hasCell_of_getElem? M.memory ⟨block, i⟩ old found).2
    refine ⟨rfl, rfl, ?_⟩
    show Code.optionCallFree old.shape.init
    rw [← cell]
    exact tame.inits _

end Eval

end CellScript
