import CellScript.Proofs.Eval.Demand
import CellScript.Proofs.Eval.Grows
import CellScript.Proofs.Eval.Sealed

/-!
# Comprehensions as nested loops

All heads of a comprehension share one layout, cells are bound once and keep their value, and a copy
of the block carries over every value there is. That the iterations are isolated all the same is due
to the order of the heads: when a head is reached, the cells of the heads before it hold values and
no other cell has been asked for. So the block amounts to a list of values. A generator puts each of
its items at the end of the list, in a copy of the block that is made for this item and is gone
afterwards, a definition is computed then and there, and whatever happens in a copy leaves the block
as it was.

* `Machine.Holds` — the block amounts to a list of values
* `Machine.Reached` — a head is reached, with the values of the heads before
* `HeadsRun` — the heads as loops in one another, each with the values of those before
* `Code.runHeads_run` — heads in order run so
-/

namespace CellScript

open Code (Op Head Slot Template HeadsInOrder)

/-! ## Loops -/

/-- What a comprehension runs through: the items of a list in order, the values of a dictionary in
order, nothing for nil. -/
inductive Value.Generates : Value → List Value → Prop
  | nil : Generates .nil []
  | list (id : ObjectId) (items : List Value) : Generates (.list id items) items
  | dict (id : ObjectId) (entries : List (String × Value)) :
      Generates (.dict id entries) (entries.map (·.2))

namespace Machine

/-- The cells of the block hold these values, one each from the first cell on, and nobody has asked
for any other cell. -/
structure Holds (M : Machine) (block : SpaceId) (values : List Value) : Prop where
  value : ∀ slot, (M.memory.cell ⟨block, slot⟩).value = values[slot]?
  blank : ∀ slot, values.length ≤ slot → (M.memory.cell ⟨block, slot⟩).isBlank = true

/-- The machine with a copy of a block, which is the newest space. -/
def forked (M : Machine) (block : SpaceId) : Machine := { M with memory := (M.memory.fork block).2 }

/-- The machine with a cell bound. -/
def bound (M : Machine) (id : CellId) (v : Value) : Machine :=
  { M with memory := M.memory.bind id v }

end Machine

/-- How a run of heads ends: with the values of the body, or for another reason. -/
abbrev Ending := EStateM.Result Stop Machine (List Value)

/-- Values that come before those of a run. -/
def Ending.prepend (vs : List Value) : Ending → Ending
  | .ok ws M => .ok (vs ++ ws) M
  | .error stop M => .error stop M

section Runs

variable (fuel : Nat) (body : Op)

mutual

/-- The heads are run as loops in one another, from a block whose cells hold the values of the heads
before. The value of a definition is computed when the head is reached, and no earlier. What follows
a condition that does not hold contributes nothing. -/
inductive HeadsRun : SpaceId → List Value → List Head → Machine → Ending → Prop
  | body {block : SpaceId} {values : List Value} {v : Value} {M M' : Machine}
      (holds : M.Holds block values) (gives : body.eval (.ofFuel fuel) block M = .ok v M') :
      HeadsRun block values [] M (.ok [v] M')
  | body_stops {block : SpaceId} {values : List Value} {stop : Stop} {M M' : Machine}
      (holds : M.Holds block values) (stops : body.eval (.ofFuel fuel) block M = .error stop M') :
      HeadsRun block values [] M (.error stop M')
  | generator {block : SpaceId} {values items : List Value} {ty : Ty} {source : Op}
      {rest : List Head} {v : Value} {M M' : Machine} {ending : Ending}
      (holds : M.Holds block values) (gives : source.eval (.ofFuel fuel) block M = .ok v M')
      (generates : v.Generates items) (each : ItemsRun block values ty rest items M' ending) :
      HeadsRun block values (.generator values.length ty source :: rest) M ending
  | generator_stops {block : SpaceId} {values : List Value} {ty : Ty} {source : Op}
      {rest : List Head} {stop : Stop} {M M' : Machine} (holds : M.Holds block values)
      (stops : source.eval (.ofFuel fuel) block M = .error stop M') :
      HeadsRun block values (.generator values.length ty source :: rest) M (.error stop M')
  | generator_fails {block : SpaceId} {values : List Value} {ty : Ty} {source : Op}
      {rest : List Head} {v : Value} {M M' : Machine} (holds : M.Holds block values)
      (gives : source.eval (.ofFuel fuel) block M = .ok v M') (no : ∀ items, ¬v.Generates items) :
      HeadsRun block values (.generator values.length ty source :: rest) M
        (.error (.raised (.cannotGenerate v)) M')
  | definition {block : SpaceId} {values : List Value} {shape : Slot} {rest : List Head} {v : Value}
      {less : Nat} {M M₁ M₂ : Machine} {ending : Ending} (holds : M.Holds block values)
      (here : (M.memory.cell ⟨block, values.length⟩).shape = shape)
      (defined : shape.init.isSome = true) (fueled : fuel = less + 1)
      (computed : Eval.compute (.ofFuel less) ⟨block, values.length⟩ shape
        (Eval.marked M ⟨block, values.length⟩) = .ok v M₁)
      (settled : Eval.settle ⟨block, values.length⟩ v M₁ = .ok v M₂)
      (run : HeadsRun block (values ++ [v]) rest M₂ ending) :
      HeadsRun block values (.definition values.length :: rest) M ending
  | definition_stops {block : SpaceId} {values : List Value} {rest : List Head} {stop : Stop}
      {M M' : Machine} (holds : M.Holds block values)
      (stops : Supply.ofFuel fuel (.force ⟨block, values.length⟩) M = .error stop M') :
      HeadsRun block values (.definition values.length :: rest) M (.error stop M')
  | condition {block : SpaceId} {values : List Value} {op : Op} {rest : List Head} {v : Value}
      {M M' : Machine} {ending : Ending} (holds : M.Holds block values)
      (gives : op.eval (.ofFuel fuel) block M = .ok v M') (truthy : v.truthy = true)
      (run : HeadsRun block values rest M' ending) :
      HeadsRun block values (.condition op :: rest) M ending
  | condition_falsy {block : SpaceId} {values : List Value} {op : Op} {rest : List Head} {v : Value}
      {M M' : Machine} (holds : M.Holds block values)
      (gives : op.eval (.ofFuel fuel) block M = .ok v M') (falsy : v.truthy = false) :
      HeadsRun block values (.condition op :: rest) M (.ok [] M')
  | condition_stops {block : SpaceId} {values : List Value} {op : Op} {rest : List Head}
      {stop : Stop} {M M' : Machine} (holds : M.Holds block values)
      (stops : op.eval (.ofFuel fuel) block M = .error stop M') :
      HeadsRun block values (.condition op :: rest) M (.error stop M')

/-- The heads after a generator are run for its items, one after the other. Each run has a copy of
the block, in which the cell of the generator is bound to the item, cast to the type of the
generator. When the run is over, however it ends, nobody holds the copy any more. Before every item
the block itself holds the same values. -/
inductive ItemsRun : SpaceId → List Value → Ty → List Head → List Value → Machine → Ending → Prop
  | done {block : SpaceId} {values : List Value} {ty : Ty} {rest : List Head} {M : Machine}
      (holds : M.Holds block values) : ItemsRun block values ty rest [] M (.ok [] M)
  | item {block : SpaceId} {values items vs : List Value} {ty : Ty} {rest : List Head}
      {item w : Value} {M M₁ M₂ : Machine} {ending : Ending} (holds : M.Holds block values)
      (casts : Eval.cast item ty (M.forked block) = .ok w M₁)
      (run : HeadsRun M.memory.spaces.size (values ++ [w]) rest
        (M₁.bound ⟨M.memory.spaces.size, values.length⟩ w) (.ok vs M₂))
      (others : ItemsRun block values ty rest items (M₂.dropped M.memory.spaces.size) ending) :
      ItemsRun block values ty rest (item :: items) M (ending.prepend vs)
  | cast_stops {block : SpaceId} {values items : List Value} {ty : Ty} {rest : List Head}
      {item : Value} {stop : Stop} {M M' : Machine} (holds : M.Holds block values)
      (stops : Eval.cast item ty (M.forked block) = .error stop M') :
      ItemsRun block values ty rest (item :: items) M
        (.error stop (M'.dropped M.memory.spaces.size))
  | item_stops {block : SpaceId} {values items : List Value} {ty : Ty} {rest : List Head}
      {item w : Value} {stop : Stop} {M M₁ M₂ : Machine} (holds : M.Holds block values)
      (casts : Eval.cast item ty (M.forked block) = .ok w M₁)
      (run : HeadsRun M.memory.spaces.size (values ++ [w]) rest
        (M₁.bound ⟨M.memory.spaces.size, values.length⟩ w) (.error stop M₂)) :
      ItemsRun block values ty rest (item :: items) M
        (.error stop (M₂.dropped M.memory.spaces.size))

end

end Runs

variable {a : Analysis} {K : FunctionId → Ty → Prop} {σ : ScopeId} {block : SpaceId}
  {values items : List Value} {slots : List Slot} {v w : Value} {M M' : Machine} {fuel : Nat}

theorem Value.generated_of_generates (h : v.Generates items) : v.generated = .ok items := by
  cases h <;> rfl

/-- What cannot be run through is an error. -/
theorem Value.generates_or (v : Value) : (∃ items, v.Generates items) ∨
    (∀ items, ¬v.Generates items) ∧ v.generated = .error (.cannotGenerate v) := by
  cases v with
  | nil => exact .inl ⟨_, .nil⟩
  | list id items => exact .inl ⟨_, .list id items⟩
  | dict id entries => exact .inl ⟨_, .dict id entries⟩
  | _ => exact .inr ⟨fun _ h => (by cases h), rfl⟩

/-! ## Blocks -/

namespace Machine

/-- The block was laid out from these slots. -/
def LaidOut (M : Machine) (block : SpaceId) (slots : List Slot) : Prop :=
  ∀ i : Nat, ((M.memory.space block).cells[i]?).map (·.shape) = slots[i]?

theorem LaidOut.grows (h : M.LaidOut block slots) (known : block < M.memory.spaces.size)
    (g : M.memory.Grows M'.memory) : M'.LaidOut block slots :=
  fun i => (g.shape known i).trans (h i)

theorem LaidOut.hasCell (h : M.LaidOut block slots) {i : Nat} {shape : Slot}
    (there : slots[i]? = some shape) :
    M.memory.HasCell ⟨block, i⟩ ∧ (M.memory.cell ⟨block, i⟩).shape = shape := by
  obtain ⟨c, hc, same⟩ := Option.map_eq_some_iff.mp ((h i).trans there)
  obtain ⟨has, eq⟩ := @Memory.hasCell_of_getElem? M.memory ⟨block, i⟩ c hc
  exact ⟨has, eq ▸ same⟩

/-- **As long as the block stays sealed it amounts to the same values.** -/
theorem Holds.later (h : M.Holds block values) (known : block < M.memory.spaces.size)
    (later : M.Respects block values.length M') : M'.Holds block values := by
  refine ⟨fun slot => ?_, later.sealed.memory.blank⟩
  by_cases early : slot < values.length
  · rw [List.getElem?_eq_getElem early]
    exact (later.grows.cell ⟨block, slot⟩ known).value _
      ((h.value slot).trans (List.getElem?_eq_getElem early))
  · have blank := later.sealed.memory.blank slot (Nat.le_of_not_lt early)
    rw [Cell.isBlank, Bool.and_eq_true, Bool.and_eq_true, Option.isNone_iff_eq_none] at blank
    rw [blank.1.1, List.getElem?_eq_none (Nat.le_of_not_lt early)]

/-- One more cell has got its value. -/
theorem Holds.snoc (h : M.Holds block values) (known : block < M.memory.spaces.size)
    (later : M.Respects block (values.length + 1) M')
    (value : (M'.memory.cell ⟨block, values.length⟩).value = some v) :
    M'.Holds block (values ++ [v]) := by
  have blank : ∀ slot, (values ++ [v]).length ≤ slot →
      (M'.memory.cell ⟨block, slot⟩).isBlank = true :=
    fun slot le => later.sealed.memory.blank slot (by simpa using le)
  refine ⟨fun slot => ?_, blank⟩
  rcases Nat.lt_trichotomy slot values.length with early | rfl | late
  · rw [List.getElem?_append_left early, List.getElem?_eq_getElem early]
    exact (later.grows.cell ⟨block, slot⟩ known).value _
      ((h.value slot).trans (List.getElem?_eq_getElem early))
  · rw [value, List.getElem?_append_right (Nat.le_refl _), Nat.sub_self]
    rfl
  · have none_ := blank slot (by rw [List.length_append]; exact late)
    rw [Cell.isBlank, Bool.and_eq_true, Bool.and_eq_true, Option.isNone_iff_eq_none] at none_
    rw [none_.1.1, List.getElem?_eq_none (by rw [List.length_append]; exact late)]

/-- A head is reached: the block is one of the scope, it holds the values of the heads before, and
no way leads to its other cells. -/
structure Reached (a : Analysis) (K : FunctionId → Ty → Prop) (σ : ScopeId) (slots : List Slot)
    (M : Machine) (block : SpaceId) (values : List Value) : Prop where
  good : M.Good a K
  fits : M.Fits block (some σ)
  «sealed» : M.Sealed block values.length
  holds : M.Holds block values
  laid : M.LaidOut block slots

/-- Whatever goes well and keeps the block sealed leads to the next head. -/
theorem Reached.later (h : M.Reached a K σ slots block values) (passes : M.Passes a K M')
    (keeps : M.Respects block values.length M') : M'.Reached a K σ slots block values :=
  ⟨passes.good, h.fits.grows passes.grows, keeps.sealed, h.holds.later h.sealed.memory.known keeps,
    h.laid.grows h.sealed.memory.known keeps.grows⟩

/-- So does what gives the next cell its value. -/
theorem Reached.snoc (h : M.Reached a K σ slots block values) (passes : M.Passes a K M')
    (keeps : M.Respects block (values.length + 1) M')
    (value : (M'.memory.cell ⟨block, values.length⟩).value = some v) :
    M'.Reached a K σ slots block (values ++ [v]) :=
  ⟨passes.good, h.fits.grows passes.grows, List.length_append ▸ keeps.sealed,
    h.holds.snoc h.sealed.memory.known keeps value, h.laid.grows h.sealed.memory.known keeps.grows⟩

/-- What is evaluated at a head leaves the block as it is. -/
theorem Reached.evaluated (h : M.Reached a K σ slots block values) (rooted : a.Rooted) {op : Op}
    (ok : op.Ok a K (some σ)) (awaits : op.Awaits values.length)
    (ran : op.eval (.ofFuel fuel) block M = .ok v M') : M'.Reached a K σ slots block values := by
  have serves := Supply.serves (K := K) rooted Watch.idle_allows fuel
  have outcome := (op.eval_safe serves rooted h.good h.fits ok).2
  have keeps :=
    (op.eval_respects (Supply.ofFuel_respects block _ fuel) (h.sealed.own awaits)).of_ok ran
  rw [ran] at outcome
  exact h.later outcome.1 keeps

end Machine

/-! ## Definitions -/

namespace Eval

/-- **A cell that nobody has asked for is computed now**, and what comes out is the value it
keeps. -/
theorem force_computes {less : Nat} {id : CellId} (rooted : a.Rooted) (good : M.Good a K)
    (attached : M.context.units.isSome = true) (has : M.memory.HasCell id)
    (alive : id.space ∈ M.memory.held) (blank : (M.memory.cell id).isBlank = true)
    (forced : force (.ofFuel less) id M = .ok v M') :
    ∃ M₁, compute (.ofFuel less) id (M.memory.cell id).shape (marked M id) = .ok v M₁ ∧
      settle id v M₁ = .ok v M' := by
  rw [Cell.isBlank, Bool.and_eq_true, Bool.and_eq_true, Option.isNone_iff_eq_none,
    Option.isNone_iff_eq_none, Bool.not_eq_true'] at blank
  obtain ⟨⟨empty, sound⟩, idle⟩ := blank
  rw [force_of_blank empty ⟨idle, sound⟩, bind_eq_ok] at forced
  obtain ⟨r, M₁, tried, ends⟩ := forced
  cases computed : compute (.ofFuel less) id (M.memory.cell id).shape (marked M id) with
  | ok w M₂ =>
    rw [attempt_of_ok computed] at tried
    cases tried
    obtain ⟨-, M₃, settled, -, -⟩ :=
      settle_computed (Supply.serves rooted Watch.idle_allows less) rooted
      good attached has alive empty ⟨idle, sound⟩ computed
    change settle id w M₁ = .ok v M' at ends
    obtain ⟨rfl, rfl⟩ : w = v ∧ M₃ = M' := by
      rw [settled] at ends
      cases ends
      exact ⟨rfl, rfl⟩
    exact ⟨M₁, rfl, settled⟩
  | error stop M₂ =>
    cases stop with
    | raised e =>
      rw [attempt_of_raised computed] at tried
      cases tried
      cases ends
    | exhausted =>
      rw [attempt_of_exhausted computed] at tried
      cases tried
    | refused =>
      rw [attempt_of_refused computed] at tried
      cases tried

end Eval

/-! ## Runs -/

namespace Code

open Eval

/-- Heads that take the slots from a number on find that many. -/
theorem HeadsInOrder.le {heads : List Head} {count : Nat} (h : HeadsInOrder slots count heads) :
    count ≤ slots.length := by
  induction heads generalizing count with
  | nil => exact Nat.le_of_eq h
  | cons head rest ih =>
    cases head with
    | generator slot ty source => exact Nat.le_of_succ_le (ih h.2.2.2)
    | definition slot => exact Nat.le_of_succ_le (ih h.2.2)
    | condition op => exact ih h.2

variable {body : Op} {rest : List Head} {ty : Ty} {item : Value}

/-- What is done for one item of a generator. -/
def iterate (fuel : Nat) (body : Op) (block : SpaceId) (slot : Nat) (ty : Ty) (rest : List Head)
    (item : Value) : Eval (List Value) :=
  within (·.fork block) fun iteration => do
    let id ← ask (·.cellIn iteration slot)
    bindCell id (← Eval.cast item ty)
    runHeads (.ofFuel fuel) (fun inner => body.eval (.ofFuel fuel) inner) iteration rest

/-- The values that a step gives for all items, in order. -/
def iterateAll (f : Value → Eval (List Value)) (items : List Value) : Eval (List Value) := do
  let values ← items.mapM f
  return values.flatten

theorem runHeads_generator (fuel : Nat) (body : Op) (block : SpaceId) (slot : Nat) (ty : Ty)
    (source : Op) (rest : List Head) :
    runHeads (.ofFuel fuel) (fun inner => body.eval (.ofFuel fuel) inner) block
      (.generator slot ty source :: rest) = (do
        let items ← ofExcept (← source.eval (.ofFuel fuel) block).generated
        iterateAll (iterate fuel body block slot ty rest) items) := by
  rw [runHeads]
  cases fuel <;> rfl

/-- The values of the items come one after the other. -/
theorem iterateAll_of_ok {f : Value → Eval (List Value)} {vs : List Value}
    (first : f item M = .ok vs M') :
    iterateAll f (item :: items) M = Ending.prepend vs (iterateAll f items M') := by
  rw [iterateAll, iterateAll, List.mapM_cons]
  cases others : items.mapM f M' with
  | error stop M'' =>
    rw [bind_of_error others, bind_of_error ((bind_of_ok first _).trans (bind_of_error others _))]
    rfl
  | ok vss M'' =>
    rw [bind_of_ok others, bind_of_ok ((bind_of_ok first _).trans (bind_of_ok others _))]
    rfl

theorem iterateAll_of_error {f : Value → Eval (List Value)} {stop : Stop}
    (first : f item M = .error stop M') : iterateAll f (item :: items) M = .error stop M' := by
  rw [iterateAll, List.mapM_cons]
  exact bind_of_error (bind_of_error first _) _

/-- The item is cast and bound in a copy of the block. -/
theorem iterate_eq {slot : Nat} (lt : slot < (M.memory.space block).cells.size) :
    iterate fuel body block slot ty rest item M = holding M.memory.spaces.size (do
      bindCell ⟨M.memory.spaces.size, slot⟩ (← Eval.cast item ty)
      runHeads (.ofFuel fuel) (fun inner => body.eval (.ofFuel fuel) inner)
        M.memory.spaces.size rest)
        (M.forked block) := by
  have found : ask (·.cellIn M.memory.spaces.size slot) (M.forked block) =
      .ok ⟨M.memory.spaces.size, slot⟩ (M.forked block) := by
    refine ask_of_ok ((Memory.cellIn_eq_ok_iff ..).mpr ⟨?_, rfl⟩)
    show slot < ((M.memory.newSpace _).2.space M.memory.spaces.size).cells.size
    rw [Memory.space_newSpace, if_pos rfl]
    simpa using lt
  rw [iterate, within_apply]
  exact holding_congr (bind_of_ok found _) _

/-- A copy of the block has been made for an item, and the next head is reached there. -/
structure Begun (a : Analysis) (K : FunctionId → Ty → Prop) (σ : ScopeId) (slots : List Slot)
    (block : SpaceId) (values : List Value) (w : Value) (M N : Machine) : Prop where
  reached : N.Reached a K σ slots M.memory.spaces.size (values ++ [w])
  opens : Machine.Opens a K M (M.forked block) M.memory.spaces.size
  passes : (M.forked block).Passes a K N
  keeps : M.Respects block values.length N
  apart : N.memory.Apart block M.memory.spaces.size
  beside : (N.memory.space M.memory.spaces.size).enclosing = (N.memory.space block).enclosing

/-- A copy of a sealed block is sealed, amounts to the same values and has the same layout. -/
theorem forked_copies (now : M.Sealed block values.length) (holds : M.Holds block values)
    (laid : M.LaidOut block slots) : (M.forked block).Sealed M.memory.spaces.size values.length ∧
      (M.forked block).Holds M.memory.spaces.size values ∧
      (M.forked block).LaidOut M.memory.spaces.size slots := by
  have copied : (M.forked block).memory.space M.memory.spaces.size =
      { M.memory.space block with
        cells :=
          (M.memory.space block).cells.map fun c =>
            { Cell.ofSlot c.shape with value := c.value } } := by
    show (M.memory.newSpace _).2.space M.memory.spaces.size = _
    rw [Memory.space_newSpace, if_pos rfl]
  have «sealed» := now.memory.fork_copy
  refine ⟨⟨«sealed», fun u hu => ?_⟩, ⟨fun slot => ?_, «sealed».blank⟩, fun i => ?_⟩
  · have apart := now.units u hu
    exact ⟨Nat.lt_trans apart.known «sealed».known, Nat.ne_of_lt apart.known⟩
  · rw [← holds.value slot, Memory.cell_eq, Memory.cell_eq, copied]
    simp only [Array.getElem?_map]
    cases (M.memory.space block).cells[slot]? <;> rfl
  · rw [copied, ← laid i]
    simp only [Array.getElem?_map, Option.map_map]
    rfl

/-- The copy of a block of a scope is one too, with the item bound to a slot of its type. -/
theorem bound_passes (rooted : a.Rooted) (good : M.Good a K) (fits : M.Fits block (some σ))
    (dynamic : (a.arena.scope σ).kind.isDynamic = true) {slot : Nat}
    (typed : a.arena.SlotOf σ slot ty) (casts : Eval.cast item ty (M.forked block) = .ok w M') :
    Machine.Opens a K M (M.forked block) M.memory.spaces.size ∧
      (M.forked block).Passes a K (M'.bound ⟨M.memory.spaces.size, slot⟩ w) ∧
      (M'.bound ⟨M.memory.spaces.size, slot⟩ w).Fits M.memory.spaces.size (some σ) := by
  obtain ⟨t, found, type⟩ := typed
  obtain ⟨opens, fits₁, free⟩ := good.fork rooted fits dynamic
  change Machine.Opens a K M (M.forked block) M.memory.spaces.size at opens
  change (M.forked block).Fits M.memory.spaces.size (some σ) at fits₁
  have cast := (cast_open opens.good free item ty).2
  rw [casts] at cast
  obtain ⟨passes, holds, blank⟩ := cast
  obtain ⟨-, there, scope, ne, -⟩ := fits₁.grows passes.grows
  obtain ⟨has, symbol⟩ := passes.good.memory.hasCell there scope ne found
  have binds := bind_step passes.good has (blank slot) (by
    rw [(passes.good.memory.cell has).shape.ty, symbol, type]
    exact holds)
  exact ⟨opens, passes.trans binds, (fits₁.grows passes.grows).grows binds.grows⟩

/-- **The copy amounts to the values of the block with the item at the end**, and the block is left
as it was. -/
theorem begun (rooted : a.Rooted) (now : M.Reached a K σ slots block values)
    (dynamic : (a.arena.scope σ).kind.isDynamic = true) (typed : a.arena.SlotOf σ values.length ty)
    (lt : values.length < slots.length) (casts : Eval.cast item ty (M.forked block) = .ok w M') :
    Begun a K σ slots block values w M (M'.bound ⟨M.memory.spaces.size, values.length⟩ w) := by
  have known := now.sealed.memory.known
  obtain ⟨copy, holds, laid⟩ := forked_copies now.sealed now.holds now.laid
  obtain ⟨opens, passes, fits⟩ := bound_passes rooted now.good now.fits dynamic typed casts
  have forks : M.Respects block values.length (M.forked block) :=
    now.sealed.step (Memory.grows_newSpace _ _) now.sealed.memory.fork
  have apart : (M.forked block).memory.Apart block M.memory.spaces.size :=
    newSpace_apart now.sealed _
  have beside : ((M.forked block).memory.space M.memory.spaces.size).enclosing =
      (M.memory.space block).enclosing := by
    show ((M.memory.newSpace _).2.space M.memory.spaces.size).enclosing = _
    rw [Memory.space_newSpace, if_pos rfl]
  -- Nothing but the identity of a new object comes between the copy and the binding.
  have casting := (cast_respects forks.sealed item ty).of_ok casts
  have casting' := (cast_respects copy item ty).of_ok casts
  have more : M'.Sealed M.memory.spaces.size (values.length + 1) :=
    ⟨casting'.sealed.memory.mono (Nat.le_succ _), casting'.sealed.units⟩
  have bound : bindCell ⟨M.memory.spaces.size, values.length⟩ w M' =
    .ok ⟨⟩ (M'.bound ⟨M.memory.spaces.size, values.length⟩ w) := rfl
  have binding := (bindCell_respects casting.sealed
    (fun same => absurd same (Nat.ne_of_gt known)) w).of_ok bound
  have binding' := (bindCell_respects more (fun _ => Nat.lt_succ_self _) w).of_ok bound
  have grows := casting.grows.trans binding.grows
  have all := forks.trans (casting.trans binding)
  have value : ((M'.bound ⟨M.memory.spaces.size, values.length⟩ w).memory.cell
      ⟨M.memory.spaces.size, values.length⟩).value = some w := by
    have has := (laid.hasCell (List.getElem?_eq_getElem lt)).1.grows casting.grows
    have blank := casting'.sealed.memory.blank values.length (Nat.le_refl _)
    rw [Cell.isBlank, Bool.and_eq_true, Bool.and_eq_true, Option.isNone_iff_eq_none] at blank
    exact Memory.value_bind_self has blank.1.1
  refine ⟨⟨passes.good, fits, List.length_append ▸ binding'.sealed,
    holds.snoc copy.memory.known ⟨grows, binding'.sealed⟩ value,
      laid.grows copy.memory.known grows⟩, opens,
    passes, all, apart.grows grows, ?_⟩
  rw [(grows.space _ copy.memory.known).enclosing, beside, (all.grows.space block known).enclosing]

section Heads

variable (rooted : a.Rooted) (dynamic : (a.arena.scope σ).kind.isDynamic = true)
  (hBody : body.Ok a K (some σ))

include rooted dynamic hBody

/-- Heads that are run in a copy leave the block alone. Nobody holds the copy when they are over. -/
theorem Begun.left {vs : List Value} {N : Machine} (start : Begun a K σ slots block values w M N)
    (now : M.Reached a K σ slots block values) (ok : headsOk a K σ rest)
    (ran : runHeads (.ofFuel fuel) (fun inner => body.eval (.ofFuel fuel) inner)
      M.memory.spaces.size rest N = .ok vs M') :
    (M'.dropped M.memory.spaces.size).Reached a K σ slots block values := by
  have serves := Supply.serves (K := K) rooted Watch.idle_allows fuel
  have supply := Supply.ofFuel_respects block values.length fuel
  have outcome := (runHeads_safe serves rooted rest dynamic (fun good fits =>
    (body.eval_safe serves rooted good fits hBody).mono fun _ _ _ _ _ => trivial) start.reached.good
    start.reached.fits ok).2
  have keeps := (runHeads_respects supply rest (fun h => body.eval_respects supply h)
    start.apart (start.keeps.sealed.beside start.apart start.beside)
    (start.keeps.sealed.beside start.apart start.beside)).of_ok ran
  rw [ran] at outcome
  have all := start.keeps.trans keeps
  exact now.later (start.opens.passes now.good (start.passes.trans outcome.1))
    (all.trans (all.sealed.step (Memory.grows_drop ..) (all.sealed.memory.drop _)))

/-- **The items of a generator are run one after the other**, if the heads after the generator run
as loops from each copy. -/
theorem iterateAll_run (typed : a.arena.SlotOf σ values.length ty)
    (order : HeadsInOrder slots (values.length + 1) rest) (ok : headsOk a K σ rest)
    (ih : ∀ {copy : SpaceId} {known : List Value} {N : Machine}, N.Reached a K σ slots copy known →
      HeadsInOrder slots known.length rest → headsOk a K σ rest →
        HeadsRun fuel body copy known rest N (runHeads (.ofFuel fuel)
          (fun inner => body.eval (.ofFuel fuel) inner) copy rest N))
    (items : List Value) {M : Machine} (now : M.Reached a K σ slots block values) :
    ItemsRun fuel body block values ty rest items M
      (iterateAll (iterate fuel body block values.length ty rest) items M) := by
  have lt := order.le
  induction items generalizing M with
  | nil => exact .done now.holds
  | cons item items others =>
    have size : values.length < (M.memory.space block).cells.size :=
      (now.laid.hasCell (List.getElem?_eq_getElem lt)).1.2
    have runs : iterate fuel body block values.length ty rest item M = _ := iterate_eq size
    cases casts : Eval.cast item ty (M.forked block) with
    | error stop M₁ =>
      rw [iterateAll_of_error (runs.trans (holding_of_error (bind_of_error casts _) _))]
      exact .cast_stops now.holds casts
    | ok w M₁ =>
      have start := begun rooted now dynamic typed lt casts
      have length : (values ++ [w]).length = values.length + 1 := List.length_append
      have inner := ih start.reached (length ▸ order) ok
      cases ran : runHeads (.ofFuel fuel) (fun inner => body.eval (.ofFuel fuel) inner)
          M.memory.spaces.size rest (M₁.bound ⟨M.memory.spaces.size, values.length⟩ w) with
      | error stop M₂ =>
        rw [ran] at inner
        rw [iterateAll_of_error (runs.trans (holding_of_error ((bind_of_ok casts _).trans ran) _))]
        exact .item_stops now.holds casts inner
      | ok vs M₂ =>
        rw [ran] at inner
        rw [iterateAll_of_ok (runs.trans (holding_of_ok ((bind_of_ok casts _).trans ran) _))]
        exact .item now.holds casts inner (others (start.left rooted dynamic hBody now ok ran))

/-- **Heads in order run as loops in one another**, from a block that amounts to the values of the
heads before. -/
theorem runHeads_run (fuel : Nat) (heads : List Head) {block : SpaceId} {values : List Value}
    {M : Machine} (now : M.Reached a K σ slots block values)
    (order : HeadsInOrder slots values.length heads) (ok : headsOk a K σ heads) :
    HeadsRun fuel body block values heads M
      (runHeads (.ofFuel fuel) (fun inner => body.eval (.ofFuel fuel) inner) block heads M) := by
  induction heads generalizing block values M with
  | nil =>
    rw [runHeads]
    cases ran : body.eval (.ofFuel fuel) block M with
    | ok v M' =>
      rw [bind_of_ok ran]
      exact .body now.holds ran
    | error stop M' =>
      rw [bind_of_error ran]
      exact .body_stops now.holds ran
  | cons head rest ih =>
    cases head with
    | generator slot ty source =>
      obtain ⟨rfl, awaits, -, later⟩ := order
      obtain ⟨typed, hSource, ok⟩ := ok
      rw [runHeads_generator]
      cases ran : source.eval (.ofFuel fuel) block M with
      | error stop M' =>
        rw [bind_of_error ran]
        exact .generator_stops now.holds ran
      | ok v M' =>
        rw [bind_of_ok ran]
        rcases v.generates_or with ⟨items, generates⟩ | ⟨no, fails⟩
        · rw [Value.generated_of_generates generates]
          exact .generator now.holds ran generates (iterateAll_run rooted dynamic hBody typed later
            ok ih items (now.evaluated rooted hSource awaits ran))
        · rw [fails]
          exact .generator_fails now.holds ran no
    | definition slot =>
      obtain ⟨rfl, ⟨shape, init, there, defined⟩, later⟩ := order
      have known := now.sealed.memory.known
      obtain ⟨has, same⟩ := now.laid.hasCell there
      have found : ask (·.cellIn block values.length) M = .ok ⟨block, values.length⟩ M :=
        ask_of_ok ((Memory.cellIn_eq_ok_iff ..).mpr ⟨has.2, rfl⟩)
      rw [runHeads, bind_of_ok found]
      cases forced : Supply.ofFuel fuel (.force ⟨block, values.length⟩) M with
      | error stop M' =>
        rw [bind_of_error forced]
        exact .definition_stops now.holds forced
      | ok v M' =>
        have serves := Supply.serves (K := K) rooted Watch.idle_allows fuel
        have alive : block ∈ M.memory.held := now.fits.2.2.2.2
        have outcome := (serves.force M _ now.good now.fits.1 ⟨has, .inl alive⟩).2
        have more : M.Sealed block (values.length + 1) :=
          ⟨now.sealed.memory.mono (Nat.le_succ _), now.sealed.units⟩
        have keeps := ((Supply.ofFuel_respects block _ fuel).force more
          ⟨known, fun _ => Nat.lt_succ_self _⟩).of_ok forced
        rw [forced] at outcome
        rw [bind_of_ok forced]
        cases fuel with
        | zero => cases forced
        | succ less =>
          obtain ⟨M₁, computed, settled⟩ := force_computes rooted now.good now.fits.1 has alive
            (now.holds.blank _ (Nat.le_refl _)) forced
          have length : (values ++ [v]).length = values.length + 1 := List.length_append
          exact .definition now.holds same (by rw [defined]; rfl) rfl (same ▸ computed) settled
            (ih (now.snoc outcome.1 keeps outcome.2) (length ▸ later) ok.2)
    | condition op =>
      obtain ⟨awaits, later⟩ := order
      rw [runHeads]
      cases ran : op.eval (.ofFuel fuel) block M with
      | error stop M' =>
        rw [bind_of_error ran]
        exact .condition_stops now.holds ran
      | ok v M' =>
        rw [bind_of_ok ran]
        cases truthy : v.truthy with
        | false => exact .condition_falsy now.holds ran truthy
        | true =>
          exact .condition now.holds ran truthy
            (ih (now.evaluated rooted ok.1 awaits ran) later ok.2)

end Heads

end Code

/-! ## Whole comprehensions -/

/-- The values of a run as a list. -/
def Ending.toList : Ending → EStateM.Result Stop Machine Value
  | .ok vs M => Eval.newList vs M
  | .error stop M => .error stop M

/-- The operation, if it is a comprehension, runs its heads as loops in one another from a new block
in which no cell has a value, and gives the list of the values. Nobody holds the block when that is
over. This is so whatever the fuel. -/
def Code.Op.RunsNested (op : Op) (space : SpaceId) (M : Machine) : Prop :=
  ∀ template heads body, op.action = .forEach template heads body → ∀ fuel, ∃ ending,
    HeadsRun fuel body M.memory.spaces.size [] heads
      { M with memory := (M.memory.child template space).2 } ending ∧
    op.eval (.ofFuel fuel) space M =
      Eval.located op.span (Eval.holding M.memory.spaces.size fun _ => ending.toList) M

/-- A comprehension lays out a block, runs its heads there and makes a list of the values. -/
theorem Code.eval_forEach (fuel : Nat) (span : Span) (template : Template) (heads : List Head)
    (body : Op) {space : SpaceId} :
    Op.eval (.ofFuel fuel) space ⟨span, .forEach template heads body⟩ M =
      Eval.located span (Eval.holding M.memory.spaces.size fun _ => Ending.toList
        (Code.runHeads (.ofFuel fuel) (fun inner => body.eval (.ofFuel fuel) inner)
          M.memory.spaces.size heads { M with memory := (M.memory.child template space).2 }))
            M := by
  have idle : Op.eval (.ofFuel fuel) space ⟨span, .forEach template heads body⟩ M =
      Eval.located span (Code.Action.eval (.ofFuel fuel) space
        (.forEach template heads body)) M := by
    rw [Op.eval]
    cases fuel <;> rfl
  have run : Code.Action.eval (.ofFuel fuel) space (.forEach template heads body) M =
      Eval.holding M.memory.spaces.size (fun _ => Ending.toList
        (Code.runHeads (.ofFuel fuel) (fun inner => body.eval (.ofFuel fuel) inner)
          M.memory.spaces.size heads { M with memory := (M.memory.child template space).2 }))
            M := by
    rw [Code.Action.eval]
    refine (Eval.within_apply ..).trans (Eval.holding_congr ?_ _)
    change (Code.runHeads (.ofFuel fuel) (fun inner => body.eval (.ofFuel fuel) inner)
      M.memory.spaces.size heads >>= fun values => Eval.newList values)
        { M with memory := (M.memory.child template space).2 } = _
    cases ran : Code.runHeads (.ofFuel fuel) (fun inner => body.eval (.ofFuel fuel) inner)
        M.memory.spaces.size heads { M with memory := (M.memory.child template space).2 } with
    | ok vs M' => exact Eval.bind_of_ok ran _
    | error stop M' => exact Eval.bind_of_error ran _
  rw [idle]
  simp only [Eval.located, run]

/-- A new block is sealed from the first slot on, and amounts to no values. -/
theorem Machine.child_holds (founded : M.memory.Founded)
    (units : ∀ u, M.context.units = some u → u < M.memory.spaces.size) {template : Template}
    (order : Code.SlotsInOrder template.slots) {space : SpaceId}
    (known : space < M.memory.spaces.size) :
    Machine.Sealed { M with memory := (M.memory.child template space).2 } M.memory.spaces.size 0 ∧
    Machine.Holds { M with memory := (M.memory.child template space).2 } M.memory.spaces.size [] ∧
    Machine.LaidOut { M with memory := (M.memory.child template space).2 } M.memory.spaces.size
      template.slots := by
  have laid : ((M.memory.child template space).2.space M.memory.spaces.size) =
      Space.ofTemplate template (some space) (M.memory.space space).closure := by
    rw [Memory.child, Memory.space_newSpace, if_pos rfl]
  have «sealed» : (M.memory.child template space).2.Sealed M.memory.spaces.size 0 := by
    refine founded.sealed (fun e he => ?_) (fun i c hc => ?_) (fun i c hc _ => ?_)
      fun i c init hc found => ?_
    · cases he
      exact known
    · obtain ⟨slot, -, rfl⟩ := Eval.cell_of_template hc
      rfl
    · obtain ⟨slot, -, rfl⟩ := Eval.cell_of_template hc
      rfl
    · obtain ⟨slot, there, rfl⟩ := Eval.cell_of_template hc
      exact order i slot init there found
  refine ⟨⟨«sealed», fun u hu => ⟨Nat.lt_trans (units u hu) «sealed».known,
    Nat.ne_of_lt (units u hu)⟩⟩,
    ⟨fun slot => ?_, «sealed».blank⟩, fun i => ?_⟩
  · have blank := «sealed».blank slot (Nat.zero_le _)
    rw [Cell.isBlank, Bool.and_eq_true, Bool.and_eq_true, Option.isNone_iff_eq_none] at blank
    exact blank.1.1
  · rw [laid]
    show (((template.slots.map Cell.ofSlot).toArray)[i]?).map (·.shape) = template.slots[i]?
    rw [List.getElem?_toArray, List.getElem?_map, Option.map_map]
    exact Option.map_id_apply

end CellScript
