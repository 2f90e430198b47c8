import CellScript.Proofs.Code.Ok
import CellScript.Proofs.Memory.Grows
import CellScript.Proofs.Value.Kinds

/-!
# Memory that agrees with analysis

Every space belongs to a scope. It has the cells of that scope, lies inside a space of the scope
around it and knows what the function around it has captured. Cells hold values of their declared
type, and captured values come from cells of the captured symbols.

* `MemoryOk` — the invariant of memory
* `Machine.Good` — the invariant of a machine
* `MemoryOk.newSpace`, `MemoryOk.modifyCell`, `MemoryOk.newClosure`, `MemoryOk.fill`,
  `MemoryOk.newFunction` — what each operation on memory must be given to keep it
-/

namespace CellScript

open Code (ConstantOk)

section Definitions

variable (a : Analysis) (K : FunctionId → Ty → Prop)

/-- The cell has no value to give: it is being computed, or its computation has failed. -/
def Cell.Withheld (c : Cell) : Prop := c.evaluating = true ∨ c.failure.isSome = true

/-- A cell that is being computed has neither a value nor a failure, and no cell has both. -/
structure Cell.Consistent (c : Cell) : Prop where
  busy : c.evaluating = true → c.value = none ∧ c.failure = none
  single : ∀ v, c.value = some v → c.failure = none

/-- The cell was laid out from a slot of the scope, and holds nothing it must not hold. -/
structure Cell.Ok (σ : ScopeId) (c : Cell) : Prop where
  shape : c.shape.Ok a K σ
  value : ∀ v, c.value = some v → c.shape.ty.Holds v
  failure : ∀ e, c.failure = some e → e.Ordinary
  consistent : c.Consistent
  /-- Only what was declared with members has them. -/
  bare : c.shape.members = none → c.members = none

/-- The space has a cell for each symbol of its scope. -/
structure Space.Laid (s : Space) : Prop where
  symbols :
      ∀ i : Nat, (s.cells[i]?).map (·.shape.symbol) = (a.arena.scope s.template.scope).slots[i]?
  cell : ∀ (i : Nat) (c : Cell), s.cells[i]? = some c → c.Ok a K s.template.scope

/-- The closure has captured these symbols, each from a cell of its own. -/
structure Memory.Closes (m : Memory) (symbols : List SymbolId) (id : ClosureId) : Prop where
  known : id < m.closures.size
  origins : List.Forall₂ (fun cell t => m.HasCell cell ∧ (m.cell cell).shape.symbol = t)
    ((m.closure id).map Captured.origin) symbols

/-- A block lies inside a space of the scope around it, in the same function. The space of a
function has a closure of what the function captures. -/
structure Space.Placed (m : Memory) (s : Space) : Prop where
  block : ∀ n, (a.arena.scope s.template.scope).kind = .block n → ∃ outer e,
    (a.arena.scope s.template.scope).enclosing = some outer ∧ s.enclosing = some e ∧
      e < m.spaces.size ∧ (m.space e).template.scope = outer ∧ s.closure = (m.space e).closure
  function : ∀ n, (a.arena.scope s.template.scope).kind = .function n → ∃ id,
    s.closure = some id ∧ m.Closes (a.closedOver n) id

/-- A function can be called, and what it returns is of the type it promises. -/
def FunctionObject.Ok (m : Memory) (f : FunctionObject) : Prop :=
  match f.body with
  | .literal body template closure _ => ∃ n inner, (a.arena.scope inner).kind = .function n ∧
      template.Ok a K inner ∧ body.Ok a K (some inner) ∧
      (a.arena.scope inner).slots.map (fun t => (a.arena.symbol t).ty) = f.signature.params.map
      (·.1) ∧ m.Closes (a.closedOver n) closure ∧ f.defaults.length = f.signature.params.length
  | .curried target _ => f.signature.returns = .any ∨
      target < m.functions.size ∧ (m.function target).signature.returns = f.signature.returns

/-- The space is laid out once for good. -/
structure Memory.Lasting (m : Memory) (id : SpaceId) : Prop where
  known : id < m.spaces.size
  scope : (m.space id).template.scope ≠ Analysis.globalScope
  static : (a.arena.scope (m.space id).template.scope).kind.isDynamic = false

/-- Memory agrees with analysis. -/
structure MemoryOk (m : Memory) : Prop where
  /-- Where constants are computed there are no cells. -/
  bare : ∀ id, id < m.spaces.size → (m.space id).template.scope = Analysis.globalScope →
    (m.space id).cells = #[]
  laid : ∀ id, id < m.spaces.size → (m.space id).template.scope ≠ Analysis.globalScope →
    (m.space id).Laid a K
  placed : ∀ id, id < m.spaces.size → (m.space id).template.scope ≠ Analysis.globalScope →
    (m.space id).Placed a m
  captured : ∀ (id : ClosureId) (i : Nat) v origin,
    (m.closure id)[i]? = some (.value v origin) → (m.cell origin).value = some v
  /-- Something has been captured for every symbol. -/
  filled : ∀ (id : ClosureId) (i : Nat), (m.closure id)[i]? ≠ some .empty
  function : ∀ id, id < m.functions.size → (m.function id).Ok a K m
  /-- A space lies inside an older one. -/
  inside : ∀ id e, (m.space id).enclosing = some e → e < id
  /-- Sites lead to spaces that stay. -/
  pinned : ∀ site cell, m.pins.get? site = some cell → m.Lasting a cell.space
  /-- A space that is alive is there, and the space around it is alive. -/
  held : ∀ id ∈ m.held, id < m.spaces.size ∧ ∀ e, (m.space id).enclosing = some e → e ∈ m.held
  /-- What is laid out once for good is alive. -/
  lasting : ∀ id, m.Lasting a id → id ∈ m.held

/-- Memory agrees with analysis, and what it has captured agrees with its cells. -/
structure MemoryGood (m : Memory) : Prop extends MemoryOk a K m where
  /-- A captured symbol is pending only as long as its cell has no value to give. -/
  waits : ∀ (id : ClosureId) (i : Nat) cell, (m.closure id)[i]? = some (.pending cell) →
    (m.cell cell).Withheld

/-- Everything that is laid out once is reached from the units, and known functions are there. -/
structure Memory.Attached (m : Memory) (units : SpaceId) : Prop where
  space : units < m.spaces.size
  scope : (m.space units).template.scope = Analysis.unitsScope
  members : ∀ id σ, m.HasCell id → (m.cell id).shape.members = some σ → ∃ space,
    (m.cell id).members = some space ∧ space < m.spaces.size ∧ (m.space space).template.scope = σ
  known : ∀ id ty, K id ty → id < m.functions.size ∧ (m.function id).signature.returns = ty

/-- The machine agrees with analysis. -/
structure Machine.Agrees (M : Machine) : Prop where
  memory : MemoryOk a K M.memory
  deferred : ∀ d ∈ M.context.deferred, ∃ c,
    (M.memory.closure d.closure)[d.index]? = some c ∧ c.origin = d.cell
  attached : ∀ units, M.context.units = some units → M.memory.Attached K units

/-- The machine agrees with analysis, and what it has captured agrees with its cells. -/
structure Machine.Good (M : Machine) : Prop extends M.Agrees a K where
  waits : ∀ (id : ClosureId) (i : Nat) cell, (M.memory.closure id)[i]? = some (.pending cell) →
    (M.memory.cell cell).Withheld
  /-- Only such cells are waited for. -/
  held : ∀ d ∈ M.context.deferred, (M.memory.cell d.cell).Withheld

/-- An operation that stands in the scope, if it stands in any, may be evaluated in the space, which
is alive. -/
def Machine.Fits (M : Machine) (space : SpaceId) : Option ScopeId → Prop
  | none => True
  | some σ => M.context.units.isSome = true ∧ space < M.memory.spaces.size ∧
      (M.memory.space space).template.scope = σ ∧ σ ≠ Analysis.globalScope ∧ space ∈ M.memory.held

end Definitions

/-- A captured symbol is pending for the cell, which has not failed, but nobody will settle it when
the cell has its value. -/
def Machine.Overlooks (M : Machine) (cell : CellId) : Prop :=
  (M.memory.cell cell).failure = none ∧ ∃ (id : ClosureId) (i : Nat),
    (M.memory.closure id)[i]? = some (.pending cell) ∧ ⟨cell, id, i⟩ ∉ M.context.deferred

/-- The second machine is the first one at a later time. -/
structure Machine.Grows (M M' : Machine) : Prop where
  memory : M.memory.Grows M'.memory
  units : M'.context.units = M.context.units
  /-- What is laid out anew for an evaluation has no members. -/
  fresh : ∀ id, M.memory.spaces.size ≤ id.space → M'.memory.HasCell id →
    (M'.memory.cell id).shape.members = none
  /-- Whatever becomes pending is waited for. -/
  overlooks : ∀ cell, M'.Overlooks cell → M.Overlooks cell
  /-- What was alive is alive. -/
  alive : ∀ id, id < M.memory.spaces.size → id ∈ M.memory.held → id ∈ M'.memory.held

/-- Nothing more and nothing less is under way than before, and the same spaces are alive. -/
structure Machine.Rests (M M' : Machine) : Prop where
  stack : M'.context.stack = M.context.stack
  evaluating : ∀ id, (M'.memory.cell id).evaluating = (M.memory.cell id).evaluating
  held : M'.memory.held = M.memory.held

/-- The second machine is all right, and is what a step leaves behind that is over. -/
structure Machine.Passes (a : Analysis) (K : FunctionId → Ty → Prop) (M M' : Machine) : Prop where
  good : M'.Good a K
  grows : M.Grows M'
  rests : M.Rests M'

/-- A space for an evaluation has been laid out in the second machine, which is all right. -/
structure Machine.Opens (a : Analysis) (K : FunctionId → Ty → Prop) (M M' : Machine)
    (space : SpaceId) :
    Prop where
  good : M'.Good a K
  grows : M.Grows M'
  stack : M'.context.stack = M.context.stack
  evaluating : ∀ id, (M'.memory.cell id).evaluating = (M.memory.cell id).evaluating
  held : M'.memory.held = space :: M.memory.held
  passing : ¬M'.memory.Lasting a space

variable {a : Analysis} {K : FunctionId → Ty → Prop} {m m' : Memory} {M M' M'' : Machine}
  {σ : ScopeId} {space : SpaceId}

/-- Nothing changes but what is under way. -/
theorem Machine.Grows.context (same : M'.memory = M.memory)
    (units : M'.context.units = M.context.units)
    (deferred : ∀ d ∈ M.context.deferred, d ∈ M'.context.deferred) : M.Grows M' := by
  refine ⟨by rw [same]; exact .refl _, units, fun id new has => ?_,
    fun cell ⟨sound, id, i, found, absent⟩ => ?_, fun _ _ alive => by rw [same]; exact alive⟩
  · have lt := has.1
    rw [same] at lt
    exact absurd lt (Nat.not_lt_of_le new)
  · rw [same] at sound found
    exact ⟨sound, id, i, found, fun mem => absent (deferred _ mem)⟩

theorem Machine.Grows.refl (M : Machine) : M.Grows M := .context rfl rfl fun _ h => h

theorem Machine.Grows.trans (h : M.Grows M') (h' : M'.Grows M'') : M.Grows M'' := by
  refine ⟨h.memory.trans h'.memory, h'.units.trans h.units, fun id new has => ?_,
    fun cell overlooked => h.overlooks cell (h'.overlooks cell overlooked),
    fun id known alive => h'.alive id (Nat.lt_of_lt_of_le known h.memory.spaces)
      (h.alive id known alive)⟩
  by_cases old : id.space < M'.memory.spaces.size
  · have had : M'.memory.HasCell id := ⟨old, by rw [← (h'.memory.space _ old).size]; exact has.2⟩
    rw [(h'.memory.cell id old).shape]
    exact h.fresh id new had
  · exact h'.fresh id (Nat.le_of_not_lt old) has

theorem Machine.Rests.refl (M : Machine) : M.Rests M := ⟨rfl, fun _ => rfl, rfl⟩

theorem Machine.Rests.trans (h : M.Rests M') (h' : M'.Rests M'') : M.Rests M'' :=
  ⟨h'.stack.trans h.stack, fun id => (h'.evaluating id).trans (h.evaluating id),
    h'.held.trans h.held⟩

theorem Machine.Good.memoryGood (good : M.Good a K) : MemoryGood a K M.memory :=
  ⟨good.memory, good.waits⟩

theorem Machine.Good.passes (good : M.Good a K) : Machine.Passes a K M M :=
  ⟨good, .refl M, .refl M⟩

theorem Machine.Passes.trans (h : Machine.Passes a K M M') (h' : Machine.Passes a K M' M'') :
    Machine.Passes a K M M'' :=
  ⟨h'.good, h.grows.trans h'.grows, h.rests.trans h'.rests⟩

namespace MemoryOk

/-- A space with a cell belongs to a scope other than the global one. -/
theorem scope_ne (h : MemoryOk a K m) {id : CellId} (has : m.HasCell id) :
    (m.space id.space).template.scope ≠ Analysis.globalScope := by
  intro he
  have := has.2
  rw [h.bare _ has.1 he] at this
  exact absurd this (Nat.not_lt_zero _)

theorem cell (h : MemoryOk a K m) {id : CellId} (has : m.HasCell id) :
    (m.cell id).Ok a K (m.space id.space).template.scope :=
  (h.laid _ has.1 (h.scope_ne has)).cell _ _ has.getElem?

/-- Every cell is consistent, whether it is there or not. -/
theorem consistent (h : MemoryOk a K m) (id : CellId) : (m.cell id).Consistent := by
  by_cases has : m.HasCell id
  · exact (h.cell has).consistent
  · rw [Memory.cell_eq_default has]
    exact ⟨fun busy => (by cases busy), fun _ value => (by cases value)⟩

/-- A slot of the scope of a space is a cell of the space. -/
theorem hasCell (h : MemoryOk a K m) {slot : Nat} {t : SymbolId} (known : space < m.spaces.size)
    (scope : (m.space space).template.scope = σ) (ne : σ ≠ Analysis.globalScope)
    (found : (a.arena.scope σ).slots[slot]? = some t) :
    m.HasCell ⟨space, slot⟩ ∧ (m.cell ⟨space, slot⟩).shape.symbol = t := by
  have symbols := (h.laid space known (scope ▸ ne)).symbols slot
  rw [scope, found, Option.map_eq_some_iff] at symbols
  obtain ⟨c, hc, hs⟩ := symbols
  have got := @Memory.hasCell_of_getElem? m ⟨space, slot⟩ c hc
  exact ⟨got.1, by rw [got.2]; exact hs⟩

theorem cellIn (h : MemoryOk a K m) {slot : Nat} {t : SymbolId} (known : space < m.spaces.size)
    (scope : (m.space space).template.scope = σ) (ne : σ ≠ Analysis.globalScope)
    (found : (a.arena.scope σ).slots[slot]? = some t) :
    m.cellIn space slot = .ok ⟨space, slot⟩ := by
  rw [Memory.cellIn_eq_ok_iff]
  exact ⟨(h.hasCell known scope ne found).1.2, rfl⟩

end MemoryOk

/-! ## What later memories keep -/

theorem Memory.Closes.grows {symbols : List SymbolId} {id : ClosureId} (h : m.Closes symbols id)
    (g : m.Grows m') : m'.Closes symbols id := by
  refine ⟨Nat.lt_of_lt_of_le h.known g.closures, ?_⟩
  rw [g.origins id h.known]
  refine h.origins.imp fun cell t ⟨has, symbol⟩ => ⟨has.grows g, ?_⟩
  rw [(g.cell cell has.1).shape]
  exact symbol

theorem Memory.Lasting.grows {id : SpaceId} (h : m.Lasting a id) (g : m.Grows m') :
    m'.Lasting a id := by
  have same := (g.space id h.known).template
  exact ⟨Nat.lt_of_lt_of_le h.known
    g.spaces, by rw [same]; exact h.scope, by rw [same]; exact h.static⟩

/-- A space that is laid out once was so from the beginning. -/
theorem Memory.Lasting.before {id : SpaceId} (h : m'.Lasting a id) (g : m.Grows m')
    (known : id < m.spaces.size) :
    m.Lasting a id := by
  have same := (g.space id known).template
  exact ⟨known, by rw [← same]; exact h.scope, by rw [← same]; exact h.static⟩

theorem Space.Placed.grows {s : Space} (h : s.Placed a m) (g : m.Grows m') : s.Placed a m' := by
  refine ⟨fun n kind => ?_, fun n kind => ?_⟩
  · obtain ⟨outer, e, enclosing, inside, known, scope, closure⟩ := h.block n kind
    have later := g.space e known
    exact ⟨outer, e, enclosing, inside, Nat.lt_of_lt_of_le known g.spaces,
      by rw [later.template]; exact scope, by rw [later.closure]; exact closure⟩
  · obtain ⟨id, closure, closes⟩ := h.function n kind
    exact ⟨id, closure, closes.grows g⟩

theorem FunctionObject.Ok.grows {f : FunctionObject} (h : f.Ok a K m) (g : m.Grows m') :
    f.Ok a K m' := by
  unfold FunctionObject.Ok at h ⊢
  split
  · next body template closure region he =>
    simp only [he] at h
    obtain ⟨n, inner, kind, template, body, types, closes, defaults⟩ := h
    exact ⟨n, inner, kind, template, body, types, closes.grows g, defaults⟩
  · next target fixed he =>
    simp only [he] at h
    rcases h with h | ⟨known, h⟩
    · exact .inl h
    · exact .inr ⟨Nat.lt_of_lt_of_le known g.functions, by rw [g.function target known]; exact h⟩

theorem Machine.Fits.grows {σ : Option ScopeId} (h : M.Fits space σ) (g : M.Grows M') :
    M'.Fits space σ := by
  cases σ with
  | none => trivial
  | some σ =>
    obtain ⟨attached, known, scope, ne, alive⟩ := h
    exact ⟨by rw [g.units]; exact attached, Nat.lt_of_lt_of_le known g.memory.spaces,
      by rw [(g.memory.space _ known).template]; exact scope, ne, g.alive space known alive⟩

/-- A later memory that is all right makes a machine that is, provided that new cells have no
members. -/
theorem Machine.Agrees.later (h : M.Agrees a K) (g : M.memory.Grows m') (ok : MemoryOk a K m')
    (fresh : ∀ id, M.memory.spaces.size ≤ id.space → m'.HasCell id →
      (m'.cell id).shape.members = none) : Machine.Agrees a K { M with memory := m' } := by
  refine ⟨ok, fun d hd => ?_, fun units hu => ?_⟩
  · obtain ⟨c, found, origin⟩ := h.deferred d hd
    have known : d.closure < M.memory.closures.size := by
      refine Classical.byContradiction fun out => ?_
      rw [Memory.closure, Array.getD_eq_getD_getElem?,
        Array.getElem?_eq_none (Nat.le_of_not_lt out)] at found
      cases found
    have same := congrArg (·[d.index]?) (g.origins d.closure known)
    simp only [List.getElem?_map, found, Option.map_some, Option.map_eq_some_iff] at same
    obtain ⟨c', found', origin'⟩ := same
    exact ⟨c', found', origin'.trans origin⟩
  · have attached := h.attached units hu
    refine ⟨Nat.lt_of_lt_of_le attached.space g.spaces, ?_, fun id σ has members => ?_,
      fun id ty hk => ?_⟩
    · rw [(g.space _ attached.space).template]
      exact attached.scope
    · by_cases old : id.space < M.memory.spaces.size
      · have later := g.cell id old
        have had : M.memory.HasCell id := ⟨old, by rw [← (g.space _ old).size]; exact has.2⟩
        rw [later.shape] at members
        obtain ⟨space, there, known, scope⟩ := attached.members id σ had members
        exact ⟨space, later.members space there, Nat.lt_of_lt_of_le known g.spaces,
          by rw [(g.space _ known).template]; exact scope⟩
      · rw [fresh id (Nat.le_of_not_lt old) has] at members
        cases members
    · obtain ⟨known, returns⟩ := attached.known id ty hk
      exact ⟨Nat.lt_of_lt_of_le known g.functions, by rw [g.function id known]; exact returns⟩

/-- Without new spaces there are no new cells. -/
theorem Memory.fresh_of_same {m m' : Memory} (same : m'.spaces.size = m.spaces.size) (id : CellId)
    (new : m.spaces.size ≤ id.space) (has : m'.HasCell id) : (m'.cell id).shape.members = none := by
  have := has.1
  rw [same] at this
  exact absurd this (Nat.not_lt_of_le new)

/-- Nothing is pending that was not pending before. -/
def Memory.NothingMorePending (m m' : Memory) : Prop :=
  ∀ (id : ClosureId) (i : Nat) cell, (m'.closure id)[i]? = some (.pending cell) →
    (m.closure id)[i]? = some (.pending cell)

/-- A cell that is not there has not failed. -/
theorem Memory.hasCell_of_failure {m : Memory} {id : CellId}
    (h : (m.cell id).failure.isSome = true) :
    m.HasCell id := by
  refine Classical.byContradiction fun out => ?_
  rw [Memory.cell_eq_default out] at h
  cases h

/-- A cell keeps its failure. -/
theorem Memory.Grows.failed (g : m.Grows m') {id : CellId} (h : (m.cell id).failure.isSome = true) :
    (m'.cell id).failure.isSome = true := by
  obtain ⟨e, failure⟩ := Option.isSome_iff_exists.mp h
  rw [(g.cell id (Memory.hasCell_of_failure h).1).failure e failure]
  rfl

/-- A cell goes on having no value to give while nothing else is under way. -/
theorem Cell.Withheld.later {id : CellId} (h : (m.cell id).Withheld) (g : m.Grows m')
    (idle : (m'.cell id).evaluating = (m.cell id).evaluating) : (m'.cell id).Withheld :=
  h.imp (fun busy => idle.trans busy) g.failed

/-- A change of memory that begins and ends no computation of a cell, and leaves nothing more
pending. -/
theorem Machine.Good.step (h : M.Good a K) (g : M.memory.Grows m') (ok : MemoryOk a K m')
    (fresh : ∀ id, M.memory.spaces.size ≤ id.space → m'.HasCell id →
      (m'.cell id).shape.members = none)
    (idle : ∀ id, (m'.cell id).evaluating = (M.memory.cell id).evaluating)
    (pending : M.memory.NothingMorePending m')
    (alive : ∀ id, id < M.memory.spaces.size → id ∈ M.memory.held → id ∈ m'.held) :
    Machine.Good a K { M with memory := m' } ∧ M.Grows { M with memory := m' } := by
  refine ⟨⟨h.later g ok fresh, fun id i cell found => ?_, fun d hd => ?_⟩,
    ⟨g, rfl, fresh, fun cell ⟨sound, id, i, found, absent⟩ => ?_, alive⟩⟩
  · exact (h.waits id i cell (pending id i cell found)).later g (idle cell)
  · exact (h.held d hd).later g (idle d.cell)
  · refine ⟨Option.not_isSome_iff_eq_none.mp fun failed => ?_, id, i,
      pending id i cell found, absent⟩
    have failed' := g.failed failed
    change (m'.cell cell).failure = none at sound
    rw [sound] at failed'
    cases failed'

theorem Machine.Good.stepSame (h : M.Good a K) (g : M.memory.Grows m') (ok : MemoryOk a K m')
    (same : m'.spaces.size = M.memory.spaces.size)
    (idle : ∀ id, (m'.cell id).evaluating = (M.memory.cell id).evaluating)
    (pending : M.memory.NothingMorePending m') (held : m'.held = M.memory.held) :
    Machine.Passes a K M { M with memory := m' } := by
  obtain ⟨good, grows⟩ := h.step g ok (Memory.fresh_of_same same) idle pending
    fun _ _ alive => held ▸ alive
  exact ⟨good, grows, rfl, idle, held⟩

/-! ## What keeps memory all right -/

namespace MemoryOk

theorem captured_grows (h : MemoryOk a K m) (g : m.Grows m') {id : ClosureId} {i : Nat} {v : Value}
    {origin : CellId} (found : (m.closure id)[i]? = some (.value v origin)) :
    (m'.cell origin).value = some v :=
  have value := h.captured id i v origin found
  (g.cell origin (Memory.hasCell_of_value value).1).value v value

theorem newSpace (h : MemoryOk a K m) {s : Space}
    (bare : s.template.scope = Analysis.globalScope → s.cells = #[])
    (laid : s.template.scope ≠ Analysis.globalScope → s.Laid a K ∧ s.Placed a m)
    (around : ∀ e, s.enclosing = some e → e ∈ m.held) : MemoryOk a K (m.newSpace s).2 := by
  have g := Memory.grows_newSpace m s
  have cases : ∀ id, id < (m.newSpace s).2.spaces.size → id = m.spaces.size ∨
      id < m.spaces.size := by
    intro id hid
    rw [Memory.size_spaces_newSpace] at hid
    exact (Nat.lt_succ_iff_lt_or_eq.mp hid).symm
  refine ⟨fun id hid he => ?_, fun id hid he => ?_, fun id hid he => ?_, fun id i v o found => ?_,
    h.filled, fun id hid => (h.function id hid).grows g,
    Memory.inside_newSpace h.inside fun e same => (h.held e (around e same)).1,
    fun site cell found => (h.pinned site cell found).grows g, fun id alive =>
      ?_, fun id lasts => ?_⟩
  · rw [Memory.space_newSpace] at he ⊢
    rcases cases id hid with rfl | old
    · rw [if_pos rfl] at he ⊢
      exact bare he
    · rw [if_neg (Nat.ne_of_lt old)] at he ⊢
      exact h.bare id old he
  · rw [Memory.space_newSpace] at he ⊢
    rcases cases id hid with rfl | old
    · rw [if_pos rfl] at he ⊢
      exact (laid he).1
    · rw [if_neg (Nat.ne_of_lt old)] at he ⊢
      exact h.laid id old he
  · rw [Memory.space_newSpace] at he ⊢
    rcases cases id hid with rfl | old
    · rw [if_pos rfl] at he ⊢
      exact (laid he).2.grows g
    · rw [if_neg (Nat.ne_of_lt old)] at he ⊢
      exact (h.placed id old he).grows g
  · exact h.captured_grows g found
  · rw [Memory.size_spaces_newSpace, Memory.space_newSpace]
    rcases List.mem_cons.mp alive with rfl | alive
    · rw [if_pos rfl]
      exact ⟨Nat.lt_succ_self _, fun e same => List.mem_cons_of_mem _ (around e same)⟩
    · obtain ⟨old, closed⟩ := h.held id alive
      rw [if_neg (Nat.ne_of_lt old)]
      exact ⟨Nat.lt_succ_of_lt old, fun e same => List.mem_cons_of_mem _ (closed e same)⟩
  · rcases cases id lasts.known with rfl | old
    · exact List.mem_cons_self ..
    · exact List.mem_cons_of_mem _ (h.lasting id (lasts.before g old))

theorem modifyCell (h : MemoryOk a K m) {id : CellId} {f : Cell → Cell} (has : m.HasCell id)
    (later : (m.cell id).Later (f (m.cell id)))
    (ok : ∀ σ, (m.cell id).Ok a K σ → (f (m.cell id)).Ok a K σ) :
    MemoryOk a K (m.modifyCell id f) := by
  have g := Memory.grows_modifyCell has later
  have size := Memory.size_spaces_modifyCell m id f
  have template : ∀ other, ((m.modifyCell id f).space other).template = (m.space other).template :=
    fun other => (Memory.space_modifyCell_later m id f other).template
  refine ⟨fun other ho he => ?_, fun other ho he => ?_, fun other ho he => ?_,
    fun cl i v o found => h.captured_grows g found, h.filled,
    fun fn hf => (h.function fn hf).grows g, fun other e he => ?_,
    fun site cell found => (h.pinned site cell found).grows g, fun other alive => ?_,
    fun other lasts => h.lasting other (lasts.before g (size ▸ lasts.known))⟩
  · rw [size] at ho
    rw [template] at he
    have none := h.bare other ho he
    rw [← Array.size_eq_zero_iff, Memory.size_cells_modifyCell, none]
    rfl
  · rw [size] at ho
    rw [template] at he
    have laid := h.laid other ho he
    by_cases changed : other = id.space
    · subst changed
      have cells : ((m.modifyCell id f).space id.space).cells =
          (m.space id.space).cells.modify id.slot f := by
        rw [Memory.space_modifyCell, if_pos ⟨rfl, ho⟩]
      refine ⟨fun i => ?_, fun i c hc => ?_⟩
      · rw [template, cells, Array.getElem?_modify, ← laid.symbols i]
        by_cases hi : id.slot = i
        · subst hi
          rw [if_pos rfl, has.getElem?]
          simp only [Option.map_some]
          rw [later.shape]
        · rw [if_neg hi]
      · rw [cells, Array.getElem?_modify] at hc
        rw [template]
        by_cases hi : id.slot = i
        · subst hi
          rw [if_pos rfl, has.getElem?] at hc
          cases hc
          exact ok _ (laid.cell _ _ has.getElem?)
        · rw [if_neg hi] at hc
          exact laid.cell i c hc
    · rw [Memory.space_modifyCell, if_neg (fun hc => changed hc.1)]
      exact laid
  · rw [size] at ho
    rw [template] at he
    have placed := (h.placed other ho he).grows g
    have same := Memory.space_modifyCell_later m id f other
    refine ⟨fun n kind => ?_, fun n kind => ?_⟩
    · rw [same.template] at kind ⊢
      rw [same.enclosing, same.closure]
      exact placed.block n kind
    · rw [same.template] at kind
      rw [same.closure]
      exact placed.function n kind
  · rw [Memory.enclosing_modifyCell] at he
    exact h.inside other e he
  · rw [size, Memory.enclosing_modifyCell]
    exact h.held other alive

theorem newClosure (h : MemoryOk a K m) {captured : List Captured}
    (values : ∀ (i : Nat) v origin, captured[i]? = some (.value v origin) →
      (m.cell origin).value = some v)
    (filled : ∀ i : Nat, captured[i]? ≠ some .empty) : MemoryOk a K (m.newClosure captured).2 := by
  have g := Memory.grows_newClosure m captured
  refine ⟨h.bare, h.laid, fun id hid he => (h.placed id hid he).grows g,
    fun id i v o found => ?_, fun id i => ?_, fun id hid => (h.function id hid).grows g, h.inside,
    fun site cell found => (h.pinned site cell found).grows g, h.held,
    fun id lasts => h.lasting id (lasts.before g lasts.known)⟩
  · rw [Memory.closure_newClosure] at found
    split at found
    · exact values i v o found
    · exact h.captured id i v o found
  · rw [Memory.closure_newClosure]
    split
    · exact filled i
    · exact h.filled id i

/-- A captured symbol that is settled gets the value of its cell. -/
theorem fill (h : MemoryOk a K m) {id : ClosureId} {index : Nat} {v : Value}
    (origin : ∀ cell, (m.closure id)[index]? = some (.pending cell) →
      (m.cell cell).value = some v) :
    MemoryOk a K (m.fill id index v) := by
  have g := Memory.grows_fill m id index v
  refine ⟨h.bare, h.laid, fun other hid he => (h.placed other hid he).grows g,
    fun other i w o found => ?_, fun other i found => ?_,
    fun other hid => (h.function other hid).grows g, h.inside,
    fun site cell found => (h.pinned site cell found).grows g, h.held,
    fun id lasts => h.lasting id (lasts.before g lasts.known)⟩
  · change (m.cell o).value = some w
    rcases Memory.getElem?_closure_fill found with same | ⟨rfl, rfl, c, before, became⟩
    · exact h.captured other i w o same
    · cases c with
      | empty => exact absurd before (h.filled other i)
      | value known from' =>
        cases became
        exact h.captured other i w o before
      | pending cell =>
        cases became
        exact origin o before
  · rcases Memory.getElem?_closure_fill found with same | ⟨-, -, c, -, became⟩
    · exact h.filled other i same
    · cases c <;> cases became

theorem newFunction (h : MemoryOk a K m) {f : FunctionObject} (ok : f.Ok a K m) :
    MemoryOk a K (m.newFunction f).2 := by
  have g := Memory.grows_newFunction m f
  refine ⟨h.bare, h.laid, fun id hid he => (h.placed id hid he).grows g, h.captured, h.filled,
    fun id hid => ?_, h.inside, fun site cell found => (h.pinned site cell found).grows g, h.held,
    fun id lasts => h.lasting id (lasts.before g lasts.known)⟩
  rw [Memory.function_newFunction]
  split
  · exact ok.grows g
  · next ne =>
    refine (h.function id ?_).grows g
    change id < (m.functions.push f).size at hid
    rw [Array.size_push] at hid
    exact Nat.lt_of_le_of_ne (Nat.le_of_lt_succ hid) ne

theorem newObject (h : MemoryOk a K m) : MemoryOk a K m.newObject.2 := by
  have g := Memory.grows_newObject m
  exact ⟨h.bare, h.laid, fun id hid he => (h.placed id hid he).grows g, h.captured, h.filled,
    fun id hid => (h.function id hid).grows g, h.inside,
    fun site cell found => (h.pinned site cell found).grows g, h.held,
    fun id lasts => h.lasting id (lasts.before g lasts.known)⟩

/-- Buffers have nothing to do with spaces. -/
theorem withScratch (h : MemoryOk a K m) (pool : Pool) (g : m.Grows { m with scratch := pool }) :
    MemoryOk a K { m with scratch := pool } :=
  ⟨h.bare, h.laid, fun id hid he => (h.placed id hid he).grows g, h.captured, h.filled,
    fun id hid => (h.function id hid).grows g, h.inside,
    fun site cell found => (h.pinned site cell found).grows g, h.held,
    fun id lasts => h.lasting id (lasts.before g lasts.known)⟩

/-- The newest space that is alive may be dropped, unless it was laid out for good. -/
theorem drop (h : MemoryOk a K m) {held : List SpaceId} (newest : m.held = space :: held)
    (closed : ∀ id ∈ held, ∀ e, (m.space id).enclosing = some e → e ∈ held)
    (passing : ¬m.Lasting a space) : MemoryOk a K (m.drop space) := by
  have g := m.grows_drop space
  have left := Memory.held_drop_of_cons newest
  refine ⟨h.bare, h.laid, fun id hid he => (h.placed id hid he).grows g, h.captured, h.filled,
    fun id hid => (h.function id hid).grows g, h.inside,
    fun site cell found => (h.pinned site cell found).grows g, fun id alive =>
      ?_, fun id lasts => ?_⟩
  · rw [left] at alive ⊢
    exact ⟨(h.held id (newest ▸ List.mem_cons_of_mem _ alive)).1, closed id alive⟩
  · have before := lasts.before g lasts.known
    have alive := h.lasting id before
    rw [newest] at alive
    rw [left]
    refine (List.mem_cons.mp alive).resolve_left fun same => passing (same ▸ before)

end MemoryOk

/-- What is in the buffers is of no account. -/
theorem Machine.Good.withScratch (good : M.Good a K) {pool : Pool}
    (g : M.memory.Grows { M.memory with scratch := pool }) :
    Machine.Passes a K M (M.withScratch pool) :=
  good.stepSame g (good.memory.withScratch pool g) rfl (fun _ => rfl) (fun _ _ _ found => found) rfl

/-! ## Spaces for an evaluation -/

/-- What a step leaves behind that began in a new space, once nobody holds the space any more. -/
theorem Machine.Opens.dropped (h : Machine.Opens a K M M' space) (before : M.Good a K)
    (good : M''.Good a K) (grows : M'.Grows M'') (held : M''.memory.held = M'.memory.held) :
    Machine.Good a K (M''.dropped space) ∧ M.Grows (M''.dropped space) ∧
      (M''.dropped space).memory.held = M.memory.held := by
  have left : (M''.dropped space).memory.held = M.memory.held :=
    Memory.held_drop_of_cons (held.trans h.held)
  have both := h.grows.trans grows
  have new : space < M'.memory.spaces.size :=
    (h.good.memory.held space (h.held ▸ List.mem_cons_self ..)).1
  have ok := good.memory.drop (held.trans h.held) (fun id alive e around => by
      obtain ⟨known, closed⟩ := before.memory.held id alive
      rw [(both.memory.space id known).enclosing] at around
      exact closed e around)
    fun lasts => h.passing (lasts.before grows.memory new)
  have agrees := good.toAgrees.later (M''.memory.grows_drop space) ok (Memory.fresh_of_same rfl)
  exact ⟨⟨agrees, good.waits, good.held⟩,
    ⟨both.memory.trans (M''.memory.grows_drop space), both.units, both.fresh, both.overlooks,
      fun id _ alive => left ▸ alive⟩, left⟩

/-- A step that began in a new space leaves nothing under way once nobody holds the space any
more. -/
theorem Machine.Opens.passes (h : Machine.Opens a K M M' space) (before : M.Good a K)
    (passes : Machine.Passes a K M' M'') : Machine.Passes a K M (M''.dropped space) := by
  obtain ⟨good, grows, held⟩ := h.dropped before passes.good passes.grows passes.rests.held
  exact ⟨good, grows, passes.rests.stack.trans h.stack,
    fun id => (passes.rests.evaluating id).trans (h.evaluating id), held⟩

end CellScript
