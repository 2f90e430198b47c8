import CellScript.Proofs.Code.Functions
import CellScript.Proofs.Memory.Budget

/-!
# Definitions of functions that capture each other

Creating a function asks for all definitions that it captures. Where all definitions hold functions
this goes on until each way leads back to a definition that is being computed, whose value is left
pending, or to one that is known. So every definition gets its function, however they refer to each
other, and nothing ever fails. Each cell that is asked for is one less that can be, which bounds how
deeply this nests.

* `Memory.Knotted` — what holds of memory all the time
* `Eval.force_gives` — a definition gives a function
* `Machine.Good.settled_of_idle` — when nothing is being computed any more, nothing is pending
-/

namespace CellScript

open Code (CapturePlan Op)

variable {α β : Type} {a : Analysis} {K : FunctionId → Ty → Prop} {units : SpaceId}
  {cells : Finset CellId} {m m' : Memory} {M M' : Machine}

/-! ## Memory -/

/-- The value is a function of memory. -/
def Memory.HoldsFunction (m : Memory) (v : Value) : Prop :=
  ∃ id signature, v = .function id signature ∧ id < m.functions.size

theorem Memory.HoldsFunction.grows {v : Value} (h : m.HoldsFunction v) (g : m.Grows m') :
    m'.HoldsFunction v := by
  obtain ⟨id, signature, rfl, lt⟩ := h
  exact ⟨id, signature, rfl, Nat.lt_of_lt_of_le lt g.functions⟩

/-- The symbol is a definition, and was captured from the cell that is reached from the units. -/
structure Captured.Reached (a : Analysis) (units : SpaceId) (m : Memory) (c : Captured) : Prop where
  definition : a.IsDefinition (m.cell c.origin).shape.symbol
  path : ∃ path, a.arena.SlotPath (m.cell c.origin).shape.symbol path ∧ m.Path units path c.origin

/-- A path ends in a cell. -/
theorem Memory.Path.has {space : SpaceId} {path : List Nat} {id : CellId}
    (h : m.Path space path id) :
    m.HasCell id := by
  induction h with
  | last has => exact has
  | step _ _ _ ih => exact ih

theorem Captured.Reached.grows {c : Captured} (h : c.Reached a units m) (g : m.Grows m') :
    c.Reached a units m' := by
  obtain ⟨definition, path, leads, reaches⟩ := h
  have shape := (g.cell _ reaches.has.1).shape
  exact ⟨by rw [shape]; exact definition, path, by rw [shape]; exact leads, reaches.grows g⟩

/-- The cells are all that there are, and those of definitions compute functions. Whatever has been
computed is a function of a literal, and nothing has failed. -/
structure Memory.Knotted (a : Analysis) (units : SpaceId) (cells : Finset CellId) (m : Memory) :
    Prop where
  cells : ∀ id, id ∈ cells ↔ m.HasCell id
  makes : ∀ id, m.HasCell id → a.IsDefinition (m.cell id).shape.symbol →
    Compiler.MakesFunction a (m.cell id).shape
  literal : m.Literal
  sound : ∀ id, (m.cell id).failure = none
  function : ∀ id v, (m.cell id).value = some v → m.HoldsFunction v
  reached : ∀ (id : ClosureId) (i : Nat) c, (m.closure id)[i]? = some c → c.Reached a units m

theorem Memory.cell_of_spaces (same : m'.spaces = m.spaces) (id : CellId) :
    m'.cell id = m.cell id := by
  rw [cell, cell, space, space, same]

/-- A later memory without new cells is in order, if all that it has newly come to hold is. -/
theorem Memory.Knotted.grows (h : m.Knotted a units cells) (g : m.Grows m')
    (size : m'.spaces.size = m.spaces.size) (literal : m'.Literal)
    (sound : ∀ id, (m'.cell id).failure = none)
    (function : ∀ id v, (m'.cell id).value = some v → m'.HoldsFunction v)
    (reached : ∀ id, m.closures.size ≤ id → ∀ (i : Nat) c, (m'.closure id)[i]? = some c →
      c.Reached a units m') : m'.Knotted a units cells := by
  have has : ∀ id, m'.HasCell id ↔ m.HasCell id := fun id =>
    ⟨fun has => ⟨size ▸ has.1, by rw [← (g.space _ (size ▸ has.1)).size]; exact has.2⟩,
      fun has => has.grows g⟩
  refine ⟨fun id => (h.cells id).trans (has id).symm, fun id hid definition => ?_, literal, sound,
    function, fun id i c found => ?_⟩
  · rw [(g.cell id (size ▸ hid.1)).shape] at definition ⊢
    exact h.makes id ((has id).mp hid) definition
  · by_cases old : id < m.closures.size
    · have same := congrArg (·[i]?) (g.origins id old)
      simp only [List.getElem?_map, found, Option.map_some] at same
      obtain ⟨c', found', origin⟩ := Option.map_eq_some_iff.mp same.symm
      obtain ⟨definition, path⟩ := (h.reached id i c' found').grows g
      rw [origin] at definition path
      exact ⟨definition, path⟩
    · exact reached id (Nat.le_of_not_lt old) i c found

/-- A step that changes no cell, and whose new closures are in order. -/
theorem Memory.Knotted.later (h : m.Knotted a units cells) (g : m.Grows m') (spares : m.Spares m')
    (reached : ∀ id, m.closures.size ≤ id → ∀ (i : Nat) c, (m'.closure id)[i]? = some c →
      c.Reached a units m') : m'.Knotted a units cells := by
  have cell := Memory.cell_of_spaces spares.spaces
  refine h.grows g (congrArg Array.size spares.spaces) (spares.literal h.literal) (fun id => ?_)
    (fun id v value => ?_) reached
  · rw [cell]
    exact h.sound id
  · rw [cell] at value
    exact (h.function id v value).grows g

theorem Memory.closure_of_le {id : ClosureId} (h : m.closures.size ≤ id) : m.closure id = [] := by
  rw [closure, Array.getD_eq_getD_getElem?, Array.getElem?_eq_none h]
  rfl

/-- Without new closures nothing is captured anew. -/
theorem Memory.reached_of_size (size : m'.closures.size = m.closures.size) (id : ClosureId)
    (new : m.closures.size ≤ id) (i : Nat) (c : Captured) (found : (m'.closure id)[i]? = some c) :
    c.Reached a units m' := by
  rw [closure_of_le (by rw [size]; exact new)] at found
  cases found

/-- The cell may be asked for. -/
structure Memory.Asks (a : Analysis) (m : Memory) (id : CellId) : Prop where
  has : m.HasCell id
  definition : a.IsDefinition (m.cell id).shape.symbol
  idle : (m.cell id).evaluating = false

/-- A definition stands outside all functions and blocks. -/
theorem MemoryOk.alive_of_definition (ok : MemoryOk a K m) (rooted : a.Rooted) {id : CellId}
    (has : m.HasCell id) (definition : a.IsDefinition (m.cell id).shape.symbol) :
    id.space ∈ m.held := by
  obtain ⟨o, kind⟩ := definition.static
  exact ok.alive_of_static rooted has (by rw [kind]; rfl)

namespace Eval

/-- The step has a result of which `post` holds, and leaves memory in order. -/
def Gives (a : Analysis) (K : FunctionId → Ty → Prop) (units : SpaceId) (cells : Finset CellId)
    (x : Eval α) (M : Machine) (post : α → Machine → Prop) : Prop :=
  ∃ v M', x M = .ok v M' ∧ Machine.Passes a K M M' ∧ M'.memory.Knotted a units cells ∧ post v M'

/-- A safe step that has a result is over. -/
theorem passes_of_ok {x y : Eval α} {P : α → Machine → Prop} {v : α} (h : Safe a K x y M P)
    (ran : y M = .ok v M') : Machine.Passes a K M M' := by
  have outcome := h.2
  rw [ran] at outcome
  exact outcome.1

namespace Gives

variable {x : Eval α} {P : α → Machine → Prop} {Q : β → Machine → Prop}

theorem pure {v : α} (good : M.Good a K) (knotted : M.memory.Knotted a units cells) (h : P v M) :
    Gives a K units cells (Pure.pure v) M P :=
  ⟨v, M, rfl, good.passes, knotted, h⟩

theorem bind {f : α → Eval β} (h : Gives a K units cells x M P)
    (rest : ∀ v M', Machine.Passes a K M M' → M'.memory.Knotted a units cells → P v M' →
      Gives a K units cells (f v) M' Q) : Gives a K units cells (x >>= f) M Q := by
  obtain ⟨v, M', ran, passes, knotted, holds⟩ := h
  obtain ⟨w, M'', ran', passes', rest⟩ := rest v M' passes knotted holds
  exact ⟨w, M'', (bind_of_ok ran f).trans ran', passes.trans passes', rest⟩

/-- The first step leaves the machine as it is. -/
theorem found {v : α} {f : α → Eval β} (h : x M = .ok v M)
    (rest : Gives a K units cells (f v) M Q) :
    Gives a K units cells (x >>= f) M Q := by
  obtain ⟨w, M', ran, rest⟩ := rest
  exact ⟨w, M', (bind_of_ok h f).trans ran, rest⟩

end Gives

/-! ## Creating functions -/

/-- Demands for cells are met, as long as no more than a number of cells are left to be asked
for. -/
def Meets (a : Analysis) (K : FunctionId → Ty → Prop) (units : SpaceId) (cells : Finset CellId)
    (s : Supply) (n : Nat) : Prop :=
  ∀ {M : Machine} {id : CellId}, M.Good a K → M.context.units = some units →
    M.memory.Knotted a units cells → M.memory.Asks a id → M.memory.load cells ≤ n →
      Gives a K units cells (s (.force id)) M fun v M' => M'.memory.HoldsFunction v

variable {s : Supply} {n : Nat}

/-- What is left to be asked for does not grow. -/
theorem load_le_of_passes (knotted : M.memory.Knotted a units cells)
    (passes : Machine.Passes a K M M') :
    M'.memory.load cells ≤ M.memory.load cells :=
  Memory.load_le_of_grows passes.grows.memory passes.rests.evaluating
    fun id mem => (knotted.cells id).mp mem

/-- **A definition is captured** with its function, or is left pending while it is being
computed. -/
theorem capture_gives (meets : Meets a K units cells s n) (rooted : a.Rooted) (good : M.Good a K)
    (attached : M.context.units = some units) (knotted : M.memory.Knotted a units cells)
    (enough : M.memory.load cells ≤ n) {plan : CapturePlan} (takes : plan.Takes a)
    (space : SpaceId) :
    Gives a K units cells (capture s space plan) M fun c M' => c.Reached a units M'.memory := by
  obtain ⟨ref, t, path, rfl, definition, site, address, leads⟩ := takes
  obtain ⟨id, reaches, symbol, has, -⟩ := (good.attached units attached).path good.memory rooted
    definition.known leads
  have reached : Captured.Reached a units M.memory (.pending id) :=
    ⟨by rw [← symbol] at definition; exact definition,
      path, by rw [← symbol] at leads; exact leads, reaches⟩
  have found : resolve space ref M = .ok id M := by
    have first : Eval.units M = .ok units M := by
      rw [Eval.units, bind_of_ok (rfl : Eval.context M = .ok M.context M), attached]
      rfl
    rw [resolve, address]
    simp only [absolute, site]
    rw [bind_of_ok first]
    exact walk_of_path reaches
  unfold capture
  refine Gives.found found (Gives.found (rfl : Eval.memory M = .ok M.memory M) ?_)
  cases hv : (M.memory.cell id).value with
  | some v =>
    simp only [hv]
    exact .pure good knotted ⟨reached.definition, reached.path⟩
  | none =>
    simp only [hv]
    split
    · exact .pure good knotted reached
    · next idle =>
      refine (meets good attached knotted ⟨has, by rw [symbol]; exact definition,
        Bool.eq_false_iff.mpr idle⟩ enough).bind fun v M' passes knotted' _ =>
          .pure passes.good knotted' ?_
      have later := reached.grows passes.grows.memory
      exact ⟨later.definition, later.path⟩

/-- All that a function captures is captured. -/
theorem captureAll_gives (meets : Meets a K units cells s n) (rooted : a.Rooted) (space : SpaceId)
    (plans : List CapturePlan) (takes : ∀ plan ∈ plans, plan.Takes a) (good : M.Good a K)
    (attached : M.context.units = some units) (knotted : M.memory.Knotted a units cells)
    (enough : M.memory.load cells ≤ n) :
    Gives a K units cells (plans.mapM (capture s space)) M
      fun cs M' => ∀ c ∈ cs, c.Reached a units M'.memory := by
  induction plans generalizing M with
  | nil => exact .pure good knotted fun c mem => by cases mem
  | cons plan rest ih =>
    rw [List.forall_mem_cons] at takes
    rw [List.mapM_cons]
    refine (capture_gives meets rooted good attached knotted enough takes.1 space).bind
      fun c M₁ passes₁ knotted₁ first => ?_
    refine (ih takes.2 passes₁.good (by rw [passes₁.grows.units]; exact attached) knotted₁
      ((load_le_of_passes knotted passes₁).trans enough)).bind
        fun cs M₂ passes₂ knotted₂ others => ?_
    exact .pure passes₂.good knotted₂
      (List.forall_mem_cons.mpr ⟨first.grows passes₂.grows.memory, others⟩)

/-- Parameters without default need no evaluation. -/
theorem evalDefaults_of_plain (s : Supply) (space : SpaceId) (params : List Code.Param)
    (plain : ∀ p ∈ params, p.default = none) (M : Machine) :
    Code.evalDefaults s space params M = .ok (params.map fun _ => .nil) M := by
  induction params with
  | nil => rfl
  | cons p rest ih =>
    obtain ⟨name, ty, default⟩ := p
    rw [List.forall_mem_cons] at plain
    obtain ⟨rfl, rest'⟩ := plain
    rw [Code.evalDefaults, bind_of_ok (ih rest')]
    rfl

/-- **An operation that makes a function does so**, whatever the function captures. -/
theorem op_gives (meets : Meets a K units cells s n) (serves : s.Serves a K s)
    (idle : s.watch = .idle) (rooted : a.Rooted) {σ : ScopeId} {space : SpaceId} (good : M.Good a K)
    (attached : M.context.units = some units) (fits : M.Fits space (some σ))
    (knotted : M.memory.Knotted a units cells) (enough : M.memory.load cells ≤ n) {op : Op}
    (makes : op.MakesFunction a) (ok : op.Ok a K (some σ)) :
    Gives a K units cells (op.eval s space) M fun v M' => M'.memory.HoldsFunction v := by
  have safe := Op.eval_safe serves rooted op good fits ok
  suffices h : ∃ v M', op.eval s space M = .ok v M' ∧ M'.memory.Knotted a units cells ∧
      M'.memory.HoldsFunction v by
    obtain ⟨v, M', ran, knotted', function⟩ := h
    exact ⟨v, M', ran, passes_of_ok safe ran, knotted', function⟩
  cases makes with
  | @constant span id signature =>
    refine ⟨.function id signature, M, ?_, knotted, id, signature, rfl, ?_⟩
    · rw [Op.eval, idle]
      rfl
    · exact ((good.attached units attached).known id signature.returns (ok id signature rfl)).1
  | @function span region params returns body template captures plain takes =>
    obtain ⟨cs, M₁, captured, passes₁, knotted₁, reached⟩ :=
      captureAll_gives meets rooted space captures takes good attached knotted enough
    -- The function is created with its closure, in which each captured symbol is reached.
    have closed : (M₁.memory.newClosure cs).2.Knotted a units cells := by
      refine knotted₁.later (Memory.grows_newClosure M₁.memory cs) ⟨rfl, rfl, fun h => h⟩
        fun id new i c found => ?_
      rw [Memory.closure_newClosure] at found
      split at found
      · exact (reached c (List.mem_of_getElem? found)).grows (Memory.grows_newClosure M₁.memory cs)
      · rw [Memory.closure_of_le new] at found
        cases found
    obtain ⟨f, context, literal, ran⟩ :
        ∃ (f : FunctionObject) (context : Context), f.body.IsLiteral ∧
        Op.eval s space ⟨span, .function params returns body template captures region⟩ M =
          .ok (.function M₁.memory.functions.size f.signature)
            ⟨((M₁.memory.newClosure cs).2.newFunction f).2, context⟩ := by
      refine ⟨⟨⟨params.map fun p => (p.ty, p.name), returns⟩, params.map fun _ => .nil,
        .literal body template M₁.memory.closures.size region⟩,
        { M₁.context with deferred := M₁.context.deferred ++ pendings M₁.memory.closures.size cs },
        ⟨_, _, _, _, rfl⟩, ?_⟩
      rw [Op.eval, idle]
      refine located_of_ok ?_ span
      rw [Code.Action.eval, bind_of_ok (evalDefaults_of_plain s space params plain M),
        bind_of_ok captured, bind_of_ok (newClosure_eq cs M₁)]
      rfl
    refine ⟨_, _, ran, closed.later (Memory.grows_newFunction _ f) ⟨rfl, rfl, fun h =>
      h.newFunction literal⟩
      (Memory.reached_of_size rfl), _, _, rfl, ?_⟩
    change M₁.memory.functions.size < (M₁.memory.functions.push f).size
    rw [Array.size_push]
    exact Nat.lt_succ_self _

/-! ## Cells -/

/-- A function stays what it is where functions are expected. -/
theorem cast_function {id : FunctionId} {signature : Signature} {ty : Ty}
    (h : ty = .any ∨ ty = .function) (M : Machine) : cast (.function id signature) ty M =
      .ok (.function id signature) { M with memory := M.memory.newObject.2 } := by
  rcases h with rfl | rfl <;> rfl

/-- Settling captured symbols changes nothing but closures. -/
theorem fillAll_same (v : Value) (waiting : List Deferral) (m : Memory) :
    m.Grows (waiting.foldl (fun m d => m.fill d.closure d.index v) m) ∧
      (waiting.foldl (fun m d => m.fill d.closure d.index v) m).spaces = m.spaces ∧
      (waiting.foldl (fun m d => m.fill d.closure d.index v) m).functions = m.functions ∧
      (waiting.foldl (fun m d => m.fill d.closure d.index v) m).closures.size =
        m.closures.size := by
  induction waiting generalizing m with
  | nil => exact ⟨.refl m, rfl, rfl, rfl⟩
  | cons d rest ih =>
    obtain ⟨grows, spaces, functions, closures⟩ := ih (m.fill d.closure d.index v)
    exact ⟨(Memory.grows_fill m d.closure d.index v).trans grows, spaces, functions,
      closures.trans (Array.size_modify ..)⟩

/-- **The computation of a definition gives a function.** -/
theorem compute_gives (meets : Meets a K units cells s n) (serves : s.Serves a K s)
    (idle : s.watch = .idle) (rooted : a.Rooted) (good : M.Good a K)
    (attached : M.context.units = some units) (knotted : M.memory.Knotted a units cells)
    (enough : M.memory.load cells ≤ n) {id : CellId} (has : M.memory.HasCell id)
    (definition : a.IsDefinition (M.memory.cell id).shape.symbol) :
    Gives a K units cells (compute s id (M.memory.cell id).shape) M
      fun v M' => M'.memory.HoldsFunction v := by
  have alive := good.memory.alive_of_definition rooted has definition
  have safe :=
    compute_safe serves rooted good (Option.isSome_iff_exists.mpr ⟨units, attached⟩) has alive
  obtain ⟨ty, op, init, makes⟩ := knotted.makes id has definition
  have ok := (good.memory.cell has).shape.init
  rw [init] at ok
  have under : ∀ frame, Gives a K units cells (op.eval s id.space)
      { M with context := M.context.push frame } fun v M' => M'.memory.HoldsFunction v :=
    fun frame =>
    op_gives meets serves idle rooted (good.withStack (frame :: M.context.stack)) attached
      ⟨Option.isSome_iff_exists.mpr ⟨units, attached⟩, has.1, rfl, good.memory.scope_ne has, alive⟩
      knotted enough makes ok
  obtain ⟨v, M₁, ran, passes₁, knotted₁, f, signature, rfl, lt⟩ := under _
  have computed : compute s id (M.memory.cell id).shape M = .ok (.function f signature)
      ⟨M₁.memory.newObject.2, M₁.context.pop⟩ := by
    have inner := located_of_ok ((bind_of_ok ran fun v => cast v (M.memory.cell id).shape.ty).trans
      (cast_function ty M₁)) (M.memory.cell id).shape.span
    rw [compute, init]
    simp only
    rw [bind_of_ok (rfl : Eval.memory M = .ok M.memory M), if_pos alive]
    exact inFrame_of_ok inner
  exact ⟨_, _, computed, passes_of_ok safe computed, knotted₁.later (Memory.grows_newObject _)
    ⟨rfl, rfl, fun h => h⟩ (Memory.reached_of_size rfl), f, signature, rfl, lt⟩

/-- Memory is in order while a cell is computed. -/
theorem marked_knotted (knotted : M.memory.Knotted a units cells) {id : CellId}
    (has : M.memory.HasCell id) (grows : M.Grows (marked M id)) :
    (marked M id).memory.Knotted a units cells := by
  refine knotted.grows grows.memory (Memory.size_spaces_modifyCell ..) knotted.literal
    (fun other => ?_) (fun other v value => ?_) (Memory.reached_of_size rfl)
  · rw [failure_marked has]
    exact knotted.sound other
  · rw [marked, Memory.cell_modifyCell has] at value
    split at value
    · next same =>
      exact knotted.function id v value
    · exact knotted.function other v value

/-- Memory is in order once a cell has its function. -/
theorem settle_knotted (knotted : M.memory.Knotted a units cells) (good : M.Good a K) {id : CellId}
    {v w : Value} (has : M.memory.HasCell id) (function : M.memory.HoldsFunction v)
    (h : settle id v M = .ok w M') : M'.memory.Knotted a units cells := by
  have grows₁ := (unmarked_ok good.memory has).2
  have has₁ := has.grows grows₁
  have grows₂ :=
    Memory.grows_modifyCell (f := fun c => c.withValue v) has₁ (Cell.later_withValue _ v)
  obtain ⟨grows, spaces, functions, closures⟩ : ((unmarked M.memory id).bind id v).Grows M'.memory ∧
      M'.memory.spaces = ((unmarked M.memory id).bind id v).spaces ∧
      M'.memory.functions = M.memory.functions ∧
      M'.memory.closures.size = M.memory.closures.size := by
    cases h
    exact fillAll_same _ _ _
  have bound := Memory.cell_of_spaces spaces
  have later := (grows₁.trans grows₂).trans grows
  have size : M'.memory.spaces.size = M.memory.spaces.size := by
    rw [spaces]
    exact (Memory.size_spaces_modifyCell ..).trans (Memory.size_spaces_modifyCell ..)
  have literal : M'.memory.Literal := by
    intro f lt
    rw [functions] at lt
    rw [Memory.function, functions]
    exact knotted.literal f lt
  refine knotted.grows later size literal (fun other => ?_) (fun other u value => ?_)
    (Memory.reached_of_size closures)
  · rw [bound, Memory.bind, Memory.cell_modifyCell has₁]
    split
    · rw [Cell.withValue, cell_unmarked has]
      exact knotted.sound id
    · next ne =>
      rw [unmarked, Memory.cell_modifyCell has, if_neg ne]
      exact knotted.sound other
  · refine Memory.HoldsFunction.grows ?_ later
    rw [bound, Memory.bind, Memory.cell_modifyCell has₁] at value
    split at value
    · rw [Cell.value_withValue, cell_unmarked has] at value
      cases hv : (M.memory.cell id).value with
      | none =>
        simp only [hv, Option.none_or, Option.some.injEq] at value
        exact value ▸ function
      | some kept =>
        simp only [hv, Option.some_or, Option.some.injEq] at value
        exact value ▸ knotted.function id kept hv
    · next ne =>
      rw [unmarked, Memory.cell_modifyCell has, if_neg ne] at value
      exact knotted.function other u value

/-- A cell without value and failure that is not being computed counts for something. -/
theorem load_pos {id : CellId} (empty : (m.cell id).value = none)
    (sound : (m.cell id).failure = none) (idle : (m.cell id).evaluating = false) :
    0 < (m.cell id).load := by
  have blank : (m.cell id).isBlank = true := by
    rw [Cell.isBlank, empty, sound, idle]
    rfl
  rw [Cell.load, blank]
  exact Nat.lt_of_lt_of_le Nat.zero_lt_one (Nat.le_add_right 1 _)

/-- A definition that nobody has asked for gives a function, if those do that it captures. -/
theorem force_gives (meets : Meets a K units cells s n) (serves : s.Serves a K s)
    (idle : s.watch = .idle) (rooted : a.Rooted) (good : M.Good a K)
    (attached : M.context.units = some units) (knotted : M.memory.Knotted a units cells)
    (enough : M.memory.load cells ≤ n + 1) {id : CellId} (asks : M.memory.Asks a id)
    (empty : (M.memory.cell id).value = none) :
    Gives a K units cells (force s id) M fun v M' => M'.memory.HoldsFunction v := by
  obtain ⟨has, definition, free⟩ := asks
  obtain ⟨good₁, grows₁⟩ := marked_good good has empty (knotted.sound id)
  have knotted₁ := marked_knotted knotted has grows₁
  have shape₁ := (grows₁.memory.cell id has.1).shape
  have less : (marked M id).memory.load cells ≤ n := by
    have counted := Memory.load_modifyCell (f := fun c => { c with evaluating := true }) has
      ((knotted.cells id).mpr has) (by simp [Cell.load, Cell.isBlank])
    have := load_pos empty (knotted.sound id) free
    change (M.memory.modifyCell id _).load cells ≤ n
    omega
  obtain ⟨v, M₂, ran, passes₂, knotted₂, function⟩ := compute_gives meets serves idle rooted good₁
    (by rw [grows₁.units]; exact attached) knotted₁ less (has.grows grows₁.memory)
    (by rw [shape₁]; exact definition)
  rw [shape₁] at ran
  have forced := (force_forced serves rooted good (Option.isSome_iff_exists.mpr ⟨units, attached⟩)
    ⟨has, .inl (good.memory.alive_of_definition rooted has definition)⟩).2
  have ends : force s id M = settle id v M₂ := by
    rw [force_of_blank empty ⟨free, knotted.sound id⟩, bind_of_ok (attempt_of_ok ran)]
  rw [ends] at forced
  cases hs : settle id v M₂ with
  | error stop M₃ => cases hs
  | ok w M₃ =>
    rw [hs] at forced
    have knotted₃ := settle_knotted knotted₂ passes₂.good
      ((has.grows grows₁.memory).grows passes₂.grows.memory) function hs
    exact ⟨w, M₃, ends.trans hs, forced.1, knotted₃, knotted₃.function id w forced.2⟩

/-- **Every definition gives a function**, however definitions refer to each other. The fuel that is
needed is what is left to be asked for: each definition on the way takes its cell off that. -/
theorem ofFuel_meets (rooted : a.Rooted) (n : Nat) : Meets a K units cells (.ofFuel (n + 1)) n := by
  induction n with
  | zero =>
    intro M id good attached knotted asks enough
    cases hv : (M.memory.cell id).value with
    | some v => exact ⟨v, M, force_of_value hv, good.passes, knotted, knotted.function id v hv⟩
    | none =>
      have counts := load_pos hv (knotted.sound id) asks.idle
      have all := Finset.single_le_sum (f := fun id => (M.memory.cell id).load)
        (fun _ _ => Nat.zero_le _) ((knotted.cells id).mpr asks.has)
      exact absurd (Nat.lt_of_lt_of_le counts (all.trans enough)) (Nat.lt_irrefl 0)
  | succ n ih =>
    intro M id good attached knotted asks enough
    cases hv : (M.memory.cell id).value with
    | some v => exact ⟨v, M, force_of_value hv, good.passes, knotted, knotted.function id v hv⟩
    | none =>
      exact force_gives ih (Supply.serves rooted Watch.idle_allows (n + 1)) rfl rooted good attached
        knotted enough asks hv

end Eval

/-! ## When a request is over -/

/-- Where nothing is being computed and nothing has failed, nobody waits, and whatever was captured
has the value of its cell. -/
theorem Machine.Good.settled_of_idle (good : M.Good a K)
    (idle : ∀ id, (M.memory.cell id).evaluating = false)
      (sound : ∀ id, (M.memory.cell id).failure = none) :
    M.context.deferred = [] ∧ ∀ (id : ClosureId) (i : Nat) c, (M.memory.closure id)[i]? = some c →
        ∃ v, c = .value v c.origin ∧ (M.memory.cell c.origin).value = some v := by
  have free : ∀ cell, ¬(M.memory.cell cell).Withheld := by
    rintro cell (busy | failed)
    · rw [idle] at busy
      cases busy
    · rw [sound] at failed
      cases failed
  refine ⟨List.eq_nil_iff_forall_not_mem.mpr fun d mem => free d.cell (good.held d mem),
    fun id i c found => ?_⟩
  cases c with
  | empty => exact absurd found (good.memory.filled id i)
  | value v origin => exact ⟨v, rfl, good.memory.captured id i v origin found⟩
  | pending cell => exact absurd (good.waits id i cell found) (free cell)

end CellScript
