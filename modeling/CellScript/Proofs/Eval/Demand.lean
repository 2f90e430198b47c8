import CellScript.Eval.Demand
import CellScript.Proofs.Eval.Op

/-!
# Demands are met safely

Cells compute values of their type and calls give results of the type that the function promises,
with any fuel. The induction is on the fuel: each level meets its demands with the level below.

* `Eval.settle_computed`, `Eval.force_safe` — the value of a cell
* `Eval.call_safe` — the result of a call
* `Watch.Allows` — whoever watches has no reason to interfere
* `Supply.serves` — demands are met alike under such a watch and under none
-/

namespace CellScript

variable {a : Analysis} {K : FunctionId → Ty → Prop} {s s' : Supply} {m : Memory}
  {M : Machine}

namespace Eval

/-! ## Cells -/

/-- A change of what is known about the computation of a cell. -/
theorem modifyCell_ok (ok : MemoryOk a K m) {id : CellId} (has : m.HasCell id) {f : Cell → Cell}
    (later : (m.cell id).Later (f (m.cell id))) (value : (f (m.cell id)).value = (m.cell id).value)
    (members : (f (m.cell id)).members = (m.cell id).members)
    (failure : ∀ e, (f (m.cell id)).failure = some e → e.Ordinary)
    (consistent : (f (m.cell id)).Consistent) : MemoryOk a K (m.modifyCell id f) := by
  refine ok.modifyCell has later fun σ ok => ⟨?_, fun v hv => ?_, failure, consistent,
    fun bare => ?_⟩
  · rw [later.shape]
    exact ok.shape
  · rw [value] at hv
    rw [later.shape]
    exact ok.value v hv
  · rw [later.shape] at bare
    rw [members]
    exact ok.bare bare

/-- The machine in which a cell is computed. -/
def marked (M : Machine) (id : CellId) : Machine :=
  { M with memory := M.memory.modifyCell id fun c => { c with evaluating := true } }

theorem evaluating_marked {id : CellId} (has : M.memory.HasCell id) (other : CellId) :
    ((marked M id).memory.cell other).evaluating =
      if other = id then true else (M.memory.cell other).evaluating := by
  rw [marked, Memory.cell_modifyCell has]
  split <;> rfl

theorem failure_marked {id : CellId} (has : M.memory.HasCell id) (other : CellId) :
    ((marked M id).memory.cell other).failure = (M.memory.cell other).failure := by
  rw [marked, Memory.cell_modifyCell has]
  split
  · next he => rw [he]
  · rfl

/-- The computation of a cell without value and failure may begin. -/
theorem marked_good (good : M.Good a K) {id : CellId} (has : M.memory.HasCell id)
    (empty : (M.memory.cell id).value = none) (sound : (M.memory.cell id).failure = none) :
    (marked M id).Good a K ∧ M.Grows (marked M id) := by
  have later : (M.memory.cell id).Later { M.memory.cell id with evaluating := true } :=
    ⟨rfl, fun _ h => h, fun _ h => h, fun _ h => h⟩
  have g := Memory.grows_modifyCell (f := fun c => { c with evaluating := true }) has later
  have ok : MemoryOk a K (marked M id).memory := modifyCell_ok good.memory has later rfl rfl
    (good.memory.cell has).failure ⟨fun _ => ⟨empty, sound⟩, fun v value => by
      change (M.memory.cell id).value = some v at value
      rw [empty] at value
      cases value⟩
  have fresh := Memory.fresh_of_same (Memory.size_spaces_modifyCell M.memory id fun c =>
    { c with evaluating := true })
  have withheld : ∀ cell, (M.memory.cell cell).Withheld →
      ((marked M id).memory.cell cell).Withheld := by
    intro cell h
    rw [Cell.Withheld, failure_marked has, evaluating_marked has]
    split
    · exact .inl rfl
    · exact h
  refine ⟨⟨good.later g ok fresh, fun cl i cell found => withheld cell (good.waits cl i cell found),
    fun d hd => withheld d.cell (good.held d hd)⟩, g, rfl, fresh, fun cell ⟨kept, waiting⟩ => ?_,
    fun _ _ alive => alive⟩
  rw [failure_marked has] at kept
  exact ⟨kept, waiting⟩

/-- The value of a cell is computed in the space of the cell. -/
theorem compute_safe (serves : s.Serves a K s') (rooted : a.Rooted) (good : M.Good a K)
    (attached : M.context.units.isSome = true) {id : CellId} (has : M.memory.HasCell id)
    (alive : id.space ∈ M.memory.held) :
    Safe a K (compute s id (M.memory.cell id).shape) (compute s' id (M.memory.cell id).shape) M
      fun v _ => (M.memory.cell id).shape.ty.Holds v := by
  have ok := (good.memory.cell has).shape.init
  unfold compute
  cases hi : (M.memory.cell id).shape.init with
  | none => exact .pure good (Ty.holds_nil _)
  | some init =>
    rw [hi] at ok
    refine Safe.memory ?_
    rw [if_pos alive, if_pos alive]
    refine .inFrame ?_ fun _ _ _ h => h
    refine .located ?_ _
    have fits : Machine.Fits { M with context := M.context.push (.at' (M.memory.cell id).shape.name
        (M.memory.cell id).shape.span) } id.space (some (M.memory.space id.space).template.scope) :=
      ⟨attached, has.1, rfl, good.memory.scope_ne has, alive⟩
    refine (Code.Op.eval_safe serves rooted init (good.withStack _) fits ok).bind
      fun v M₁ good₁ _ _ => ?_
    exact cast_safe good₁ v _

/-- What has become of memory once deferrals have got their value. -/
structure Filled (a : Analysis) (K : FunctionId → Ty → Prop) (m : Memory) (waiting : List Deferral)
    (m' : Memory) : Prop where
  ok : MemoryOk a K m'
  grows : m.Grows m'
  spaces : m'.spaces = m.spaces
  held : m'.held = m.held
  /-- They are pending no longer, and nothing else has become so. -/
  pending : ∀ (id : ClosureId) (i : Nat) cell, (m'.closure id)[i]? = some (.pending cell) →
    (m.closure id)[i]? = some (.pending cell) ∧ ∀ d ∈ waiting, ¬(id = d.closure ∧ i = d.index)

/-- Whatever waits for a cell is filled with its value. -/
theorem fillAll_filled {id : CellId} {v : Value} (waiting : List Deferral) (ok : MemoryOk a K m)
    (value : (m.cell id).value = some v)
    (wait : ∀ d ∈ waiting, d.cell = id ∧ ∃ c,
      (m.closure d.closure)[d.index]? = some c ∧ c.origin = d.cell) :
    Filled a K m waiting (waiting.foldl (fun m d => m.fill d.closure d.index v) m) := by
  induction waiting generalizing m with
  | nil => exact ⟨ok, .refl m, rfl, rfl, fun _ _ _ found => ⟨found, fun _ h => by cases h⟩⟩
  | cons d rest ih =>
    rw [List.forall_mem_cons] at wait
    obtain ⟨⟨rfl, c, found, origin⟩, wait⟩ := wait
    have first := Memory.grows_fill m d.closure d.index v
    have ok₁ : MemoryOk a K (m.fill d.closure d.index v) := ok.fill fun cell pending => by
      rw [found] at pending
      cases pending
      rw [← value, ← origin]
      rfl
    have rest := ih ok₁ value fun d' hd' => by
      obtain ⟨same, c', found', origin'⟩ := wait d' hd'
      have entry := congrArg (·[d'.index]?) (first.origins d'.closure (closure_lt found'))
      simp only [List.getElem?_map, found', Option.map_some, Option.map_eq_some_iff] at entry
      obtain ⟨c'', found'', origin''⟩ := entry
      exact ⟨same, c'', found'', origin''.trans origin'⟩
    refine ⟨rest.ok, first.trans rest.grows, rest.spaces, rest.held, fun other i cell pending => ?_⟩
    obtain ⟨pending, apart⟩ := rest.pending other i cell pending
    obtain ⟨pending, ne⟩ := Memory.pending_fill pending
    exact ⟨pending, List.forall_mem_cons.mpr ⟨ne, apart⟩⟩

/-- The machine is all right, the cell is no longer being computed, and nothing else has changed in
what is under way. -/
structure Releases (a : Analysis) (K : FunctionId → Ty → Prop) (M : Machine) (id : CellId)
    (M' : Machine) : Prop where
  good : M'.Good a K
  grows : M.Grows M'
  stack : M'.context.stack = M.context.stack
  evaluating : ∀ other, (M'.memory.cell other).evaluating =
    if other = id then false else (M.memory.cell other).evaluating
  held : M'.memory.held = M.memory.held

/-- The computation of a cell is over, and nobody waits for it any longer. Whatever is still pending
for the cell will be so for good, which only a failure allows. -/
theorem releases_of (good : M.Good a K) (id : CellId) (grows : M.memory.Grows m)
    (ok : MemoryOk a K m) (same : m.spaces.size = M.memory.spaces.size)
    (held : m.held = M.memory.held)
    (evaluating : ∀ other, (m.cell other).evaluating =
      if other = id then false else (M.memory.cell other).evaluating)
    (pending : M.memory.NothingMorePending m)
    (ended : (m.cell id).failure.isSome = true ∨
      ∀ (cl : ClosureId) (i : Nat), (m.closure cl)[i]? ≠ some (.pending id)) :
    Releases a K M id ⟨m, M.context.release id⟩ := by
  have fresh := Memory.fresh_of_same same
  have agrees := good.later grows ok fresh
  have withheld : ∀ cell, cell ≠ id → (M.memory.cell cell).Withheld → (m.cell cell).Withheld :=
    fun cell ne h => h.later grows (by rw [evaluating, if_neg ne])
  have released : ∀ d ∈ (M.context.release id).deferred, d ∈ M.context.deferred ∧ d.cell ≠ id := by
    intro d hd
    obtain ⟨mem, ne⟩ := List.mem_filter.mp hd
    exact ⟨mem, fun he => by simp [he] at ne⟩
  refine ⟨⟨⟨ok, fun d hd => agrees.deferred d (released d hd).1, agrees.attached⟩,
    fun cl i cell found => ?_, fun d hd => ?_⟩,
    ⟨grows, rfl, fresh, fun cell ⟨sound, cl, i, found, absent⟩ => ?_, fun _ _ alive =>
      held ▸ alive⟩,
    rfl, evaluating, held⟩
  · by_cases he : cell = id
    · subst he
      exact ended.elim .inr fun none => absurd found (none cl i)
    · exact withheld cell he (good.waits cl i cell (pending cl i cell found))
  · obtain ⟨mem, ne⟩ := released d hd
    exact withheld d.cell ne (good.held d mem)
  · change (m.cell cell).failure = none at sound
    have ne : cell ≠ id := by
      rintro rfl
      rcases ended with failed | none
      · rw [sound] at failed
        cases failed
      · exact none cl i found
    refine ⟨Option.not_isSome_iff_eq_none.mp fun failed => ?_, cl, i, pending cl i cell found,
      fun mem => absent (List.mem_filter.mpr ⟨mem, by simpa using ne⟩)⟩
    have failed := grows.failed failed
    rw [sound] at failed
    cases failed

/-- The memory in which the computation of a cell has ended. -/
def unmarked (m : Memory) (id : CellId) : Memory :=
  m.modifyCell id fun c => { c with evaluating := false }

theorem cell_unmarked {id : CellId} (has : m.HasCell id) :
    (unmarked m id).cell id = { m.cell id with evaluating := false } :=
  Memory.cell_modifyCell_self has _

theorem evaluating_unmarked {id : CellId} (has : m.HasCell id) (other : CellId) :
    ((unmarked m id).cell other).evaluating = if other =
      id then false else (m.cell other).evaluating := by
  rw [unmarked, Memory.cell_modifyCell has]
  split <;> rfl

theorem unmarked_ok (ok : MemoryOk a K m) {id : CellId} (has : m.HasCell id) :
    MemoryOk a K (unmarked m id) ∧ m.Grows (unmarked m id) := by
  have later : (m.cell id).Later { m.cell id with evaluating := false } :=
    ⟨rfl, fun _ h => h, fun _ h => h, fun _ h => h⟩
  exact ⟨modifyCell_ok ok has later rfl rfl (ok.cell has).failure
    ⟨fun busy => (by cases busy), (ok.cell has).consistent.single⟩,
      Memory.grows_modifyCell has later⟩

/-- **A cell that has computed a value of its type keeps it.** -/
theorem settle_eq (good : M.Good a K) {id : CellId} {v : Value} (has : M.memory.HasCell id)
    (busy : (M.memory.cell id).evaluating = true) (holds : (M.memory.cell id).shape.ty.Holds v)
    (seen : ¬M.Overlooks id) :
    ∃ M', settle id v M = .ok v M' ∧ Releases a K M id M' ∧ (M'.memory.cell id).value = some v := by
  obtain ⟨empty, sound⟩ := (good.memory.consistent id).busy busy
  obtain ⟨ok₁, grows₁⟩ := unmarked_ok good.memory has
  have has₁ := has.grows grows₁
  have cell₁ := cell_unmarked has
  -- The cell had no value so far.
  have ok₂ :=
    ok₁.bind has₁ (v := v) (by rw [cell₁]; exact ⟨rfl, sound⟩) (by rw [cell₁]; exact holds)
  have grows₂ :=
    Memory.grows_modifyCell (f := fun c => c.withValue v) has₁ (Cell.later_withValue _ v)
  have value : (((unmarked M.memory id).bind id v).cell id).value = some v :=
    Memory.value_bind_self has₁ (by rw [cell₁]; exact empty)
  have agrees := good.later (grows₁.trans grows₂) ok₂ (Memory.fresh_of_same
    ((Memory.size_spaces_modifyCell ..).trans (Memory.size_spaces_modifyCell ..)))
  have filled := fillAll_filled (M.context.waitingFor id) ok₂ value fun d hd => by
    obtain ⟨mem, same⟩ := List.mem_filter.mp hd
    exact ⟨eq_of_beq same, agrees.deferred d mem⟩
  have cells : ∀ other, (((M.context.waitingFor id).foldl (fun m d => m.fill d.closure d.index v)
      ((unmarked M.memory id).bind id v)).cell other) =
        ((unmarked M.memory id).bind id v).cell other := by
    intro other
    rw [Memory.cell, Memory.cell, Memory.space, Memory.space, filled.spaces]
  refine ⟨_, ?_, releases_of good id ((grows₁.trans grows₂).trans filled.grows) filled.ok ?_
    filled.held (fun other => ?_) (fun cl i cell found => (filled.pending cl i cell found).1)
    (.inr fun cl i found => ?_), ?_⟩
  · show EStateM.Result.ok (((_ : Memory).cell id).value.getD v) _ = _
    rw [show ((Memory.modifyCell _ _ _).bind id v).cell id =
      ((unmarked M.memory id).bind id v).cell id from rfl]
    simp only [value, Option.getD_some]
    rfl
  · rw [filled.spaces]
    exact (Memory.size_spaces_modifyCell ..).trans (Memory.size_spaces_modifyCell ..)
  · rw [cells, ← evaluating_unmarked has, Memory.bind, Memory.cell_modifyCell has₁]
    split
    · next he => rw [he]; rfl
    · rfl
  · -- Whatever was pending for the cell was waited for, and has been filled.
    obtain ⟨before, apart⟩ := filled.pending cl i id found
    refine seen ⟨sound, cl, i, before, fun mem => ?_⟩
    exact apart ⟨id, cl, i⟩ (List.mem_filter.mpr ⟨mem, beq_self_eq_true _⟩) ⟨rfl, rfl⟩
  · exact (congrArg Cell.value (cells id)).trans value

/-- **A cell whose computation has failed keeps the exception.** -/
theorem settleFailure_eq (good : M.Good a K) {id : CellId} {e : Exception}
    (has : M.memory.HasCell id) (busy : (M.memory.cell id).evaluating = true)
    (ordinary : e.Ordinary) :
    ∃ M', settleFailure id e M = .error (.raised e) M' ∧ Releases a K M id M' ∧
      (M'.memory.cell id).failure = some e := by
  obtain ⟨empty, sound⟩ := (good.memory.consistent id).busy busy
  obtain ⟨ok₁, grows₁⟩ := unmarked_ok good.memory has
  have has₁ := has.grows grows₁
  have failed : Cell.withFailure ((unmarked M.memory id).cell id) e =
      { M.memory.cell id with evaluating := false, failure := some e } := by
    rw [cell_unmarked has, Cell.withFailure]
    simp only [sound, Option.none_or]
  have failure : (((unmarked M.memory id).modifyCell id fun c => c.withFailure e).cell id).failure =
      some e := by
    rw [Memory.cell_modifyCell_self has₁, failed]
  have later :
      ((unmarked M.memory id).cell id).Later (((unmarked M.memory id).cell id).withFailure e) :=
    ⟨rfl, fun _ h => h, fun _ h => h, fun _ h => by
      rw [cell_unmarked has] at h
      rw [sound] at h
      cases h⟩
  have ok₂ := modifyCell_ok (f := fun c => c.withFailure e) ok₁ has₁ later rfl rfl
    (fun e' he' => by rw [failed] at he'; cases he'; exact ordinary)
    ⟨fun busy => (by rw [failed] at busy; cases busy),
      fun v value => (by rw [failed] at value; rw [empty] at value; cases value)⟩
  refine ⟨_, ?_, releases_of good id (grows₁.trans (Memory.grows_modifyCell has₁ later)) ok₂
    ((Memory.size_spaces_modifyCell ..).trans (Memory.size_spaces_modifyCell ..)) rfl
    (fun other => ?_) (fun _ _ _ found => found) (.inl (by rw [failure]; rfl)), failure⟩
  · show EStateM.Result.error (Stop.raised (((_ : Memory).cell id).failure.getD e)) _ = _
    rw [show (Memory.modifyCell (Memory.modifyCell _ _ _) id _).cell id =
      ((unmarked M.memory id).modifyCell id fun c => c.withFailure e).cell id from rfl]
    simp only [failure, Option.getD_some]
    rfl
  · rw [← evaluating_unmarked has, Memory.cell_modifyCell has₁]
    split
    · next he => rw [he]; rfl
    · rfl

theorem force_of_value {id : CellId} {v : Value} (value : (M.memory.cell id).value = some v) :
    force s id M = .ok v M := by
  unfold force
  rw [bind_of_ok (rfl : Eval.memory M = .ok M.memory M)]
  simp only [value]
  rfl

theorem force_of_failure {id : CellId} {e : Exception} (empty : (M.memory.cell id).value = none)
    (failure : (M.memory.cell id).failure = some e) : force s id M = .error (.raised e) M := by
  unfold force
  rw [bind_of_ok (rfl : Eval.memory M = .ok M.memory M)]
  simp only [empty, failure]
  rfl

theorem force_of_busy {id : CellId} (good : M.Good a K)
    (busy : (M.memory.cell id).evaluating = true) :
    force s id M = .error (.raised (cyclic M id)) M := by
  obtain ⟨empty, sound⟩ := (good.memory.consistent id).busy busy
  unfold force
  rw [bind_of_ok (rfl : Eval.memory M = .ok M.memory M)]
  simp only [empty, sound, busy, if_true]
  rfl

/-- A cell that nobody has asked for is computed. -/
theorem force_of_blank {id : CellId} (empty : (M.memory.cell id).value = none)
    (free : (M.memory.cell id).Open) :
    force s id M = (attempt (compute s id (M.memory.cell id).shape) >>= fun r => match r with
      | .ok v => settle id v
      | .error e => settleFailure id e) (marked M id) := by
  unfold force
  rw [bind_of_ok (rfl : Eval.memory M = .ok M.memory M)]
  simp only [empty, free.sound, free.idle, Bool.false_eq_true, if_false]
  rfl

/-- The result is what the cell keeps from then on. An exception is not kept if the cell was being
computed already. -/
def Forced (a : Analysis) (K : FunctionId → Ty → Prop) (M : Machine) (id : CellId) :
    EStateM.Result Stop Machine Value → Prop
  | .ok v M' => Machine.Passes a K M M' ∧ (M'.memory.cell id).value = some v
  | .error stop M' => M'.Good a K ∧ M.Grows M' ∧ stop.Leaves M M' ∧
      ∀ e, stop = .raised e → M.Denies id e M'

/-- Nobody is overlooked who waits for a cell that is asked for the first time. -/
theorem marked_seen (good : M.Good a K) {id : CellId} (has : M.memory.HasCell id)
    (empty : (M.memory.cell id).value = none) (free : (M.memory.cell id).Open) :
    ¬(marked M id).Overlooks id := by
  intro overlooked
  obtain ⟨-, cl, i, pending, -⟩ := (marked_good good has empty free.sound).2.overlooks id overlooked
  -- Nothing is pending for a cell that is neither being computed nor has failed.
  rcases good.waits cl i id pending with now | failed
  · rw [free.idle] at now
    cases now
  · rw [free.sound] at failed
    cases failed

/-- A cell that is asked for the first time is computed safely. -/
theorem compute_marked (serves : s.Serves a K s') (rooted : a.Rooted) (good : M.Good a K)
    (attached : M.context.units.isSome = true) {id : CellId} (has : M.memory.HasCell id)
    (alive : id.space ∈ M.memory.held)
    (empty : (M.memory.cell id).value = none) (free : (M.memory.cell id).Open) :
    Safe a K (compute s id (M.memory.cell id).shape) (compute s' id (M.memory.cell id).shape)
      (marked M id) fun v _ => (M.memory.cell id).shape.ty.Holds v := by
  obtain ⟨good₁, grows₁⟩ := marked_good good has empty free.sound
  have compute := compute_safe serves rooted good₁ (by rw [grows₁.units]; exact attached)
    (has.grows grows₁.memory) alive
  rwa [(grows₁.memory.cell id has.1).shape] at compute

/-- **What a cell computes that is asked for the first time is the value it keeps.** -/
theorem settle_computed (serves : s.Serves a K s') (rooted : a.Rooted) (good : M.Good a K)
    (attached : M.context.units.isSome = true) {id : CellId} (has : M.memory.HasCell id)
    (alive : id.space ∈ M.memory.held)
    (empty : (M.memory.cell id).value = none) (free : (M.memory.cell id).Open) {v : Value}
    {M' : Machine} (computed : compute s' id (M.memory.cell id).shape (marked M id) = .ok v M') :
    Machine.Passes a K (marked M id) M' ∧
      ∃ M'', settle id v M' = .ok v M'' ∧ Releases a K M' id M'' ∧
        (M''.memory.cell id).value = some v := by
  obtain ⟨-, outcome⟩ := compute_marked serves rooted good attached has alive empty free
  rw [computed] at outcome
  obtain ⟨passes, holds⟩ := outcome
  have grows := (marked_good good has empty free.sound).2.memory
  have shape := (passes.grows.memory.cell id (has.grows grows).1).shape
  rw [(grows.cell id has.1).shape] at shape
  refine ⟨passes, settle_eq passes.good ((has.grows grows).grows passes.grows.memory) ?_
    (by rwa [shape]) fun overlooked => marked_seen good has empty free
      (passes.grows.overlooks id overlooked)⟩
  rw [passes.rests.evaluating, evaluating_marked has, if_pos rfl]

/-- **Forcing a cell gives what the cell keeps from then on.** -/
theorem force_forced (serves : s.Serves a K s') (rooted : a.Rooted) (good : M.Good a K)
    (attached : M.context.units.isSome = true) {id : CellId} (answers : M.memory.Answers id) :
    force s id M = force s' id M ∧ Forced a K M id (force s' id M) := by
  have has := answers.has
  cases hv : (M.memory.cell id).value with
  | some v =>
    rw [force_of_value hv, force_of_value hv]
    exact ⟨rfl, good.passes, hv⟩
  | none =>
  cases hf : (M.memory.cell id).failure with
  | some e =>
    rw [force_of_failure hv hf, force_of_failure hv hf]
    refine ⟨rfl, good, .refl M, ⟨(good.memory.cell has).failure e hf, .refl M⟩, fun e' he => ?_⟩
    cases he
    exact .inl hf
  | none =>
  by_cases busy : (M.memory.cell id).evaluating = true
  · rw [force_of_busy good busy, force_of_busy good busy]
    refine ⟨rfl, good, .refl M, ⟨?_, .refl M⟩, fun e' he => ?_⟩
    · exact ((Exception.ordinary_of _ (by decide)).orSpan _).orTrace _
    · cases he
      exact .inr ⟨busy, rfl, rfl⟩
  · have idle := Bool.eq_false_iff.mpr busy
    have alive : id.space ∈ M.memory.held := answers.alive.resolve_right fun withheld => by
      rcases withheld with now | failed
      · exact busy now
      · rw [hf] at failed
        cases failed
    have grows₁ := (marked_good good has hv hf).2
    have evaluating₁ := evaluating_marked has
    rw [force_of_blank hv ⟨idle, hf⟩, force_of_blank hv ⟨idle, hf⟩]
    -- Nothing else than the cell was under way in between.
    have rests : ∀ {M₂ M₃ : Machine}, (marked M id).Rests M₂ →
        Releases a K M₂ id M₃ → M.Rests M₃ := by
      intro M₂ M₃ rests₂ releases
      refine ⟨releases.stack.trans rests₂.stack, fun other => ?_, releases.held.trans rests₂.held⟩
      rw [releases.evaluating, rests₂.evaluating, evaluating₁]
      split
      · next he => rw [he, idle]
      · rfl
    obtain ⟨same, outcome⟩ := compute_marked serves rooted good attached has alive hv ⟨idle, hf⟩
    cases hc : Eval.compute s' id (M.memory.cell id).shape (marked M id) with
    | ok v M₂ =>
      rw [hc] at same
      obtain ⟨passes₂, M₃, settled, releases, value⟩ :=
        settle_computed serves rooted good attached has alive hv ⟨idle, hf⟩ hc
      rw [bind_of_ok (attempt_of_ok same), bind_of_ok (attempt_of_ok hc)]
      change settle id v M₂ = settle id v M₂ ∧ Forced a K M id (settle id v M₂)
      rw [settled]
      exact ⟨rfl, ⟨releases.good, (grows₁.trans passes₂.grows).trans releases.grows,
        rests passes₂.rests releases⟩, value⟩
    | error stop M₂ =>
      rw [hc] at same outcome
      obtain ⟨good₂, grows₂, leaves⟩ := outcome
      cases stop with
      | raised e =>
        obtain ⟨M₃, settled, releases, failure⟩ := settleFailure_eq good₂ (e := e)
          ((has.grows grows₁.memory).grows grows₂.memory)
          (by rw [leaves.2.evaluating, evaluating₁, if_pos rfl]) leaves.1
        rw [bind_of_ok (attempt_of_raised same), bind_of_ok (attempt_of_raised hc)]
        change settleFailure id e M₂ = settleFailure id e M₂ ∧
          Forced a K M id (settleFailure id e M₂)
        rw [settled]
        refine ⟨rfl, releases.good, (grows₁.trans grows₂).trans releases.grows,
          ⟨leaves.1, rests leaves.2 releases⟩, fun e' he => ?_⟩
        cases he
        exact .inl failure
      | exhausted =>
        rw [bind_of_error (attempt_of_exhausted same), bind_of_error (attempt_of_exhausted hc)]
        refine ⟨rfl, good₂, grows₁.trans grows₂, ⟨leaves.1, fun other busy => leaves.2 other ?_⟩,
          fun e he => by cases he⟩
        rw [evaluating₁]
        split
        · rfl
        · exact busy
      | refused => exact leaves.elim

/-- **Forcing a cell is safe, and gives the value that the cell has from then on.** -/
theorem force_safe (serves : s.Serves a K s') (rooted : a.Rooted) (good : M.Good a K)
    (attached : M.context.units.isSome = true) {id : CellId} (answers : M.memory.Answers id) :
    Safe a K (force s id) (force s' id) M fun v M' => (M'.memory.cell id).value = some v := by
  obtain ⟨same, forced⟩ := force_forced serves rooted good attached answers
  refine ⟨same, ?_⟩
  cases hy : force s' id M with
  | ok v M' =>
    rw [hy] at forced
    exact forced
  | error stop M' =>
    rw [hy] at forced
    exact ⟨forced.1, forced.2.1, forced.2.2.1⟩

/-- A cell that was forced and has no value tells why. -/
theorem force_denies (serves : s.Serves a K s') (rooted : a.Rooted) (good : M.Good a K)
    (attached : M.context.units.isSome = true) {id : CellId} (answers : M.memory.Answers id)
    {e : Exception} {M' : Machine} (raised : force s' id M = .error (.raised e) M') :
    M.Denies id e M' := by
  obtain ⟨-, forced⟩ := force_forced serves rooted good attached answers
  rw [raised] at forced
  exact forced.2.2.2 e rfl

/-! ## Calls -/

/-- The parameters of a call get values of their types. -/
theorem bindParams_safe (serves : s.Serves a K s') (good : M.Good a K) {σ : ScopeId}
    {space : SpaceId} (fits : M.Fits space (some σ)) (free : M.memory.Open space)
    {params : List (Ty × String)}
    (types : (a.arena.scope σ).slots.map (fun t => (a.arena.symbol t).ty) = params.map (·.1))
    (args : List Value) :
    Safe a K (bindParams s space params args) (bindParams s' space params args) M
      fun _ M' => M'.memory.Open space := by
  unfold bindParams
  refine Safe.forM _ good free fun entry mem M' good' grows' free' => ?_
  obtain ⟨⟨param, arg⟩, slot⟩ := entry
  have known : a.arena.SlotOf σ slot param.1 := by
    have found := List.mem_zipIdx_iff_getElem?.mp mem
    rw [List.getElem?_zip_eq_some] at found
    have type := congrArg (·[slot]?) types
    simp only [List.getElem?_map, found.1, Option.map_some, Option.map_eq_some_iff] at type
    exact type
  refine (cast_open good' free' arg param.1).bind fun v M₁ good₁ grows₁ ⟨holds, free₁⟩ => ?_
  exact bindSlot_safe serves good₁ ((fits.grows grows').grows grows₁) free₁ known holds

/-- A number that denotes no function denotes one that gives nil. -/
theorem function_of_le {m : Memory} {id : FunctionId} (h : m.functions.size ≤ id) :
    m.function id = default := by
  rw [Memory.function, Array.getD_eq_getD_getElem?, Array.getElem?_eq_none h]
  rfl

/-- A call of such a function has a space without slots. -/
theorem callSpace_default_opens (good : M.Good a K) :
    Machine.Opens a K M { M with memory := (M.memory.callSpace default default).2 }
      (M.memory.callSpace default default).1 := by
  have here : (M.memory.callSpace default default).2.space M.memory.spaces.size =
      .ofTemplate default none (some default) := by
    rw [Memory.callSpace, Memory.space_newSpace, if_pos rfl]
  have bare : ∀ id, M.memory.spaces.size ≤ id.space →
      (M.memory.callSpace default default).2.HasCell id →
        ((M.memory.callSpace default default).2.cell id).shape.members = none := by
    intro id new has
    have same : id.space = M.memory.spaces.size := by
      have lt := has.1
      rw [Memory.callSpace, Memory.size_spaces_newSpace] at lt
      exact Nat.le_antisymm (Nat.le_of_lt_succ lt) new
    have slot := has.2
    rw [same, here] at slot
    exact absurd slot (Nat.not_lt_zero _)
  have idle : ∀ id, ((M.memory.callSpace default default).2.cell id).evaluating =
      (M.memory.cell id).evaluating :=
    fun id => Memory.evaluating_newSpace _ (fun i c hc => by cases hc) id
  obtain ⟨good', grows⟩ :=
    good.step (Memory.grows_newSpace _ _) (good.memory.newSpace (fun _ => rfl)
    (fun ne => absurd rfl ne) fun e none => by cases none) bare idle (fun _ _ _ found => found)
    fun _ _ alive => List.mem_cons_of_mem _ alive
  exact ⟨good', grows, rfl, idle, rfl, fun lasts => lasts.scope (congrArg (·.template.scope) here)⟩

/-- The body of a function, in the space of a call. -/
theorem body_safe (serves : s.Serves a K s') (rooted : a.Rooted) (good : M.Good a K)
    {σ : Option ScopeId} {space : SpaceId} (fits : M.Fits space σ) {body : Code.Op}
    (ok : body.Ok a K σ) (frame : Frame) (ty : Ty) :
    Safe a K (inFrame frame do cast (← body.eval s space) ty)
      (inFrame frame do cast (← body.eval s' space) ty) M fun v _ => ty.Holds v := by
  refine .inFrame ?_ fun _ _ _ h => h
  have fits' : Machine.Fits { M with context := M.context.push frame } space σ := by
    cases σ with
    | none => trivial
    | some σ => exact fits
  refine (Code.Op.eval_safe serves rooted body (good.withStack _) fits' ok).bind
    fun v M₁ good₁ _ _ => ?_
  exact cast_safe good₁ v ty

/-- Arguments may be handed on in a buffer. -/
theorem forward_safe (good : M.Good a K) (fixed : List (Option Value)) (args : List Value)
    {x y : List Value → Eval Value} {P : Value → Prop}
    (h : ∀ args M', M'.Good a K → M.Grows M' → Safe a K (x args) (y args) M' fun v _ => P v) :
    Safe a K (forward fixed args x) (forward fixed args y) M fun v _ => P v := by
  unfold forward
  split
  · have taken := good.withScratch M.memory.grows_rest
    exact .withBuffer good (fun _ => h _ _ taken.good taken.grows) fun _ _ _ holds => holds
  · exact h _ M good (.refl M)

/-- **A call gives a result of the type that the function promises.** -/
theorem call_safe (serves : s.Serves a K s') (rooted : a.Rooted) (good : M.Good a K)
    (attached : M.context.units.isSome = true) (id : FunctionId) (args : List Value) :
    Safe a K (call s id args) (call s' id args) M
      fun v _ => (M.memory.function id).signature.returns.Holds v := by
  unfold call
  refine Safe.memory ?_
  simp only
  split
  · exact .raise good (Exception.ordinary_of _ (by decide))
  · by_cases known : id < M.memory.functions.size
    · have ok := good.memory.function id known
      unfold FunctionObject.Ok at ok
      split
      · next body template closure region hb =>
        simp only [hb] at ok
        obtain ⟨n, inner, kind, hTemplate, hBody, types, closes, -⟩ := ok
        obtain ⟨step, fits₁, free⟩ := good.callSpace rooted attached kind hTemplate closes
        refine .within good step ?_ fun _ _ _ h => h
        refine (bindParams_safe serves step.good fits₁ free types _).bind
          fun _ M₂ good₂ grows₂ _ => ?_
        exact body_safe serves rooted good₂ (fits₁.grows grows₂) hBody _ _
      · next target fixed hb =>
        simp only [hb] at ok
        refine forward_safe good fixed _ fun args M' good' grows' =>
          (serves.call M' target args good' (grows'.units ▸ attached)).mono fun v _ _ _ h => ?_
        rcases ok with returns | ⟨known, returns⟩
        · rw [returns]
          exact Ty.holds_any v
        · rw [grows'.memory.function target known] at h
          rw [← returns]
          exact h
    · rw [function_of_le (Nat.le_of_not_lt known)]
      -- There are no parameters to bind, and the body looks at nothing.
      have opens := callSpace_default_opens good
      refine .within good opens ?_ fun _ _ _ h => h
      refine Safe.found (v := ⟨⟩) rfl ?_
      have ok : (default : Code.Op).Ok a K none := fun _ _ h => by cases h
      refine body_safe serves rooted opens.good (σ := none) ?_ ok _ _
      exact trivial

end Eval

/-! ## All levels of fuel -/

/-- Whoever watches an operation that finds all it looks at, and reads what it is about, lets it go
on as it is. -/
def Watch.Allows (a : Analysis) (K : FunctionId → Ty → Prop) (watch : Watch) : Prop :=
  ∀ (M : Machine) (op : Code.Op) (σ : Option ScopeId) (space : SpaceId) (x y : Eval Value),
    M.Good a K → M.Fits space σ → op.Ok a K σ → op.ReadsTarget a space M (y M) →
    Safe a K x y M (fun v _ => op.staticType.Admits v) →
    Safe a K (watch op space x) y M fun v _ => op.staticType.Admits v

/-- Whoever watches lets every step go on as it is that is safe. -/
def Watch.Lenient (a : Analysis) (K : FunctionId → Ty → Prop) (watch : Watch) : Prop :=
  ∀ (M : Machine) (op : Code.Op) (σ : Option ScopeId) (space : SpaceId) (x y : Eval Value),
    M.Good a K → M.Fits space σ → op.Ok a K σ →
    Safe a K x y M (fun v _ => op.staticType.Admits v) →
    Safe a K (watch op space x) y M fun v _ => op.staticType.Admits v

theorem Watch.idle_allows : Watch.idle.Allows a K := fun _ _ _ _ _ _ _ _ _ _ h => h

/-- **With any fuel, demands are met safely, and alike under a watch and under none.** -/
theorem Supply.serves (rooted : a.Rooted) {watch : Watch} (allows : watch.Allows a K) (fuel : Nat) :
    (Supply.watched watch fuel).Serves a K (Supply.ofFuel fuel) := by
  induction fuel with
  | zero =>
    refine ⟨fun M id good _ _ => ?_, fun M id _ _ _ e M' raised => (by cases raised),
      fun M id args good _ => ?_, fun M id v good has free holds =>
        Eval.bindCell_safe good has free holds, allows⟩
    · exact ⟨rfl, good, .refl M, rfl, fun _ busy => busy⟩
    · exact ⟨rfl, good, .refl M, rfl, fun _ busy => busy⟩
  | succ fuel ih =>
    exact ⟨fun M id good attached answers => Eval.force_safe ih rooted good attached answers,
      fun M id good attached answers e M' raised =>
        Eval.force_denies ih rooted good attached answers raised,
      fun M id args good attached => Eval.call_safe ih rooted good attached id args,
      fun M id v good has free holds => Eval.bindCell_safe good has free holds, allows⟩

end CellScript
