import CellScript.Eval.Lemmas
import CellScript.Proofs.Memory.Good

/-!
# Steps that keep the machine all right

`Safe` compares two steps that are the same but for who watches: from a machine that agrees with
analysis both end alike, in a later machine that agrees with analysis, and neither in an internal
error nor in a refusal.

* `Safe` — two steps in one machine, with what holds of the result
* `Safe.bind`, `Safe.attempt`, `Safe.inFrame`, `Safe.mapM` — the rules that put steps together
-/

namespace CellScript

variable {α β : Type} {a : Analysis} {K : FunctionId → Ty → Prop}

/-- The step may end this way. -/
def Stop.Ordinary : Stop → Prop
  | .raised e => e.Ordinary
  | .exhausted => True
  | .refused => False

/-- A step that ends this way may leave the machine behind, in which the same spaces are alive.
Where fuel has run out, more may be under way than before. -/
def Stop.Leaves (M M' : Machine) : Stop → Prop
  | .raised e => e.Ordinary ∧ M.Rests M'
  | .exhausted => M'.memory.held = M.memory.held ∧
    ∀ id, (M.memory.cell id).evaluating = true → (M'.memory.cell id).evaluating = true
  | .refused => False

theorem Stop.Leaves.ordinary {stop : Stop} {M M' : Machine} (h : stop.Leaves M M') :
    stop.Ordinary := by
  cases stop with
  | raised e => exact h.1
  | exhausted => trivial
  | refused => exact h

/-- A step before, if it is over, leaves nothing more under way. -/
theorem Stop.Leaves.after {stop : Stop} {M M' M'' : Machine} (h : stop.Leaves M' M'')
    (rests : M.Rests M') : stop.Leaves M M'' := by
  cases stop with
  | raised e => exact ⟨h.1, rests.trans h.2⟩
  | exhausted => exact ⟨h.1.trans rests.held, fun id busy =>
    h.2 id (by rw [rests.evaluating]; exact busy)⟩
  | refused => exact h

/-- So does a step after it. -/
theorem Stop.Leaves.before {stop : Stop} {M M' M'' : Machine} (h : stop.Leaves M M')
    (rests : M'.Rests M'') : stop.Leaves M M'' := by
  cases stop with
  | raised e => exact ⟨h.1, h.2.trans rests⟩
  | exhausted => exact ⟨rests.held.trans h.1, fun id busy =>
    (rests.evaluating id).trans (h.2 id busy)⟩
  | refused => exact h

/-- A step that began in the machine has ended well, with a result of which `post` holds, or in an
ordinary way. -/
def Outcome (a : Analysis) (K : FunctionId → Ty → Prop) (M : Machine) (post : α → Machine → Prop) :
    EStateM.Result Stop Machine α → Prop
  | .ok v M' => Machine.Passes a K M M' ∧ post v M'
  | .error stop M' => M'.Good a K ∧ M.Grows M' ∧ stop.Leaves M M'

/-- Both steps end alike, and as they should. -/
def Safe (a : Analysis) (K : FunctionId → Ty → Prop) (x y : Eval α) (M : Machine)
    (post : α → Machine → Prop) : Prop :=
  x M = y M ∧ Outcome a K M post (y M)

/-- The stack has no part in what is kept. -/
theorem Machine.Good.withStack {M : Machine} (h : M.Good a K) (stack : List Frame) :
    Machine.Good a K { M with context := { M.context with stack := stack } } :=
  ⟨⟨h.memory, h.deferred, h.attached⟩, h.waits, h.held⟩

namespace Safe

variable {x y : Eval α} {M M' : Machine} {post P : α → Machine → Prop} {Q : β → Machine → Prop}

/-! ## Single steps -/

theorem pure {v : α} (good : M.Good a K) (h : post v M) :
    Safe a K (Pure.pure v) (Pure.pure v) M post :=
  ⟨rfl, good.passes, h⟩

theorem raise {e : Exception} (good : M.Good a K) (h : e.Ordinary) :
    Safe a K (Eval.raise e) (Eval.raise e) M post :=
  ⟨rfl, good, .refl M, h, .refl M⟩

theorem ofExcept {r : Except Exception α} (good : M.Good a K) (orderly : Orderly r)
    (h : ∀ v, r = .ok v → post v M) : Safe a K (Eval.ofExcept r) (Eval.ofExcept r) M post := by
  cases r with
  | ok v => exact pure good (h v rfl)
  | error e => exact raise good (orderly e rfl).1

/-- An outcome of the value library of which nothing more is asked. -/
theorem orderly {r : Except Exception α} (good : M.Good a K) (h : Orderly r) :
    Safe a K (Eval.ofExcept r) (Eval.ofExcept r) M fun _ _ => True :=
  ofExcept good h fun _ _ => trivial

theorem create {f : Memory → α × Memory}
    (step : Machine.Passes a K M { M with memory := (f M.memory).2 })
    (h : post (f M.memory).1 { M with memory := (f M.memory).2 }) :
    Safe a K (Eval.create f) (Eval.create f) M post :=
  ⟨rfl, step, h⟩

theorem modifyMemory {f : Memory → Memory} {post : PUnit → Machine → Prop}
    (step : Machine.Passes a K M { M with memory := f M.memory })
    (h : post ⟨⟩ { M with memory := f M.memory }) :
    Safe a K (Eval.modifyMemory f) (Eval.modifyMemory f) M post :=
  ⟨rfl, step, h⟩

/-! ## Steps put together -/

theorem mono (h : Safe a K x y M P) (imp : ∀ v M', M'.Good a K → M.Grows M' → P v M' → post v M') :
    Safe a K x y M post := by
  refine ⟨h.1, ?_⟩
  have outcome := h.2
  cases hy : y M with
  | ok v M' =>
    rw [hy] at outcome
    obtain ⟨passes, holds⟩ := outcome
    exact ⟨passes, imp v M' passes.good passes.grows holds⟩
  | error stop M' =>
    rw [hy] at outcome
    exact outcome

/-- The second step may count on whatever the first one leaves as it was. -/
theorem bindPasses {f g : α → Eval β} (h : Safe a K x y M P)
    (rest : ∀ v M', Machine.Passes a K M M' → P v M' → Safe a K (f v) (g v) M' Q) :
    Safe a K (x >>= f) (y >>= g) M Q := by
  obtain ⟨same, outcome⟩ := h
  cases hy : y M with
  | ok v M' =>
    rw [hy] at outcome same
    obtain ⟨⟨good, grows, rests⟩, holds⟩ := outcome
    obtain ⟨same', outcome'⟩ := rest v M' ⟨good, grows, rests⟩ holds
    refine ⟨?_, ?_⟩
    · rw [Eval.bind_of_ok same, Eval.bind_of_ok hy, same']
    · rw [Eval.bind_of_ok hy]
      cases hg : g v M' with
      | ok w M'' =>
        rw [hg] at outcome'
        obtain ⟨passes, holds'⟩ := outcome'
        exact ⟨⟨passes.good, grows.trans passes.grows, rests.trans passes.rests⟩, holds'⟩
      | error stop M'' =>
        rw [hg] at outcome'
        exact ⟨outcome'.1, grows.trans outcome'.2.1, outcome'.2.2.after rests⟩
  | error stop M' =>
    rw [hy] at outcome same
    refine ⟨?_, ?_⟩
    · rw [Eval.bind_of_error same, Eval.bind_of_error hy]
    · rw [Eval.bind_of_error hy]
      exact outcome

theorem bind {f g : α → Eval β} (h : Safe a K x y M P)
    (rest : ∀ v M', M'.Good a K → M.Grows M' → P v M' → Safe a K (f v) (g v) M' Q) :
    Safe a K (x >>= f) (y >>= g) M Q :=
  h.bindPasses fun v M' passes holds => rest v M' passes.good passes.grows holds

/-- The first step leaves the machine as it is. -/
theorem found {v : α} {f g : α → Eval β} (h : x M = .ok v M) (rest : Safe a K (f v) (g v) M Q) :
    Safe a K (x >>= f) (x >>= g) M Q := by
  rw [Safe, Eval.bind_of_ok h, Eval.bind_of_ok h]
  exact rest

theorem created {f : Memory → α × Memory} {g g' : α → Eval β}
    (step : Machine.Passes a K M { M with memory := (f M.memory).2 })
    (rest : Machine.Good a K { M with memory := (f M.memory).2 } →
      Safe a K (g (f M.memory).1) (g' (f M.memory).1) { M with memory := (f M.memory).2 } Q) :
    Safe a K (Eval.create f >>= g) (Eval.create f >>= g') M Q := by
  have first : Safe a K (Eval.create f) (Eval.create f) M fun v M' =>
      v = (f M.memory).1 ∧ M' = { M with memory := (f M.memory).2 } := create step ⟨rfl, rfl⟩
  refine first.bind fun v M' good _ he => ?_
  obtain ⟨hv, hM⟩ := he
  subst hv hM
  exact rest good

theorem modified {f : Memory → Memory} {g g' : PUnit → Eval β}
    (step : Machine.Passes a K M { M with memory := f M.memory })
    (rest : Machine.Good a K { M with memory := f M.memory } →
      Safe a K (g ⟨⟩) (g' ⟨⟩) { M with memory := f M.memory } Q) :
    Safe a K (Eval.modifyMemory f >>= g) (Eval.modifyMemory f >>= g') M Q := by
  have first : Safe a K (Eval.modifyMemory f) (Eval.modifyMemory f) M fun _ M' =>
      M' = { M with memory := f M.memory } := modifyMemory step rfl
  refine first.bind fun _ M' good _ he => ?_
  subst he
  exact rest good

theorem memory {f g : Memory → Eval β} (h : Safe a K (f M.memory) (g M.memory) M Q) :
    Safe a K (Eval.memory >>= f) (Eval.memory >>= g) M Q := h

theorem context {f g : Context → Eval β} (h : Safe a K (f M.context) (g M.context) M Q) :
    Safe a K (Eval.context >>= f) (Eval.context >>= g) M Q := h

/-! ## Exceptions on their way out -/

theorem attempt (h : Safe a K x y M P) : Safe a K (Eval.attempt x) (Eval.attempt y) M
    fun r M' => match r with
      | .ok v => P v M'
      | .error e => e.Ordinary := by
  obtain ⟨same, outcome⟩ := h
  refine ⟨by rw [Eval.attempt, Eval.attempt, same], ?_⟩
  cases hy : y M with
  | ok v M' =>
    rw [hy] at outcome
    rw [Eval.attempt_of_ok hy]
    exact outcome
  | error stop M' =>
    rw [hy] at outcome
    cases stop with
    | raised e =>
      rw [Eval.attempt_of_raised hy]
      exact ⟨⟨outcome.1, outcome.2.1, outcome.2.2.2⟩, outcome.2.2.1⟩
    | exhausted =>
      rw [Eval.attempt_of_exhausted hy]
      exact outcome
    | refused => exact outcome.2.2.elim

theorem located (h : Safe a K x y M P) (span : Span) :
    Safe a K (Eval.located span x) (Eval.located span y) M P := by
  obtain ⟨same, outcome⟩ := h
  refine ⟨by rw [Eval.located, Eval.located, same], ?_⟩
  cases hy : y M with
  | ok v M' =>
    rw [hy] at outcome
    rw [Eval.located_of_ok hy]
    exact outcome
  | error stop M' =>
    rw [hy] at outcome
    cases stop with
    | raised e =>
      rw [Eval.located_of_raised hy]
      exact ⟨outcome.1, outcome.2.1, Exception.Ordinary.orSpan outcome.2.2.1 span, outcome.2.2.2⟩
    | exhausted =>
      rw [Eval.located_of_exhausted hy]
      exact outcome
    | refused => exact outcome.2.2.elim

theorem inFrame {frame : Frame}
    (h : Safe a K x y { M with context := M.context.push frame } P)
    (stack : ∀ v M' rest, P v M' → P v { M' with context := { M'.context with stack := rest } }) :
    Safe a K (Eval.inFrame frame x) (Eval.inFrame frame y) M P := by
  obtain ⟨same, outcome⟩ := h
  have left : ∀ {M' : Machine}, Machine.Passes a K { M with context := M.context.push frame } M' →
      Machine.Passes a K M { M' with context := M'.context.pop } := fun passes =>
    ⟨Machine.Good.withStack passes.good _, ⟨passes.grows.memory, passes.grows.units,
      passes.grows.fresh, passes.grows.overlooks, passes.grows.alive⟩,
      congrArg List.tail passes.rests.stack, passes.rests.evaluating, passes.rests.held⟩
  refine ⟨by unfold Eval.inFrame; simp only [same], ?_⟩
  cases hy : y { M with context := M.context.push frame } with
  | ok v M' =>
    rw [hy] at outcome
    rw [Eval.inFrame_of_ok hy]
    exact ⟨left outcome.1, stack v M' _ outcome.2⟩
  | error stop M' =>
    rw [hy] at outcome
    obtain ⟨good, grows, leaves⟩ := outcome
    cases stop with
    | raised e =>
      rw [Eval.inFrame_of_raised hy]
      have passes := left ⟨good, grows, leaves.2⟩
      exact ⟨passes.good, passes.grows, Exception.Ordinary.orTrace leaves.1 _, passes.rests⟩
    | exhausted =>
      rw [Eval.inFrame_of_exhausted hy]
      exact ⟨Machine.Good.withStack good _,
        ⟨grows.memory, grows.units, grows.fresh, grows.overlooks, grows.alive⟩, leaves⟩
    | refused => exact leaves.elim

/-! ## What is held while a step runs -/

/-- A step in a new space, which is over in the end. -/
theorem within {f : Memory → SpaceId × Memory} {x y : SpaceId → Eval α} (good : M.Good a K)
    (opens : Machine.Opens a K M { M with memory := (f M.memory).2 } (f M.memory).1)
    (h : Safe a K (x (f M.memory).1) (y (f M.memory).1) { M with memory := (f M.memory).2 } P)
    (kept : ∀ v M' space, P v M' → post v (M'.dropped space)) :
    Safe a K (Eval.within f x) (Eval.within f y) M post := by
  obtain ⟨same, outcome⟩ := h
  rw [Safe, Eval.within_apply, Eval.within_apply]
  refine ⟨by unfold Eval.holding; rw [same], ?_⟩
  cases hy : y (f M.memory).1 { M with memory := (f M.memory).2 } with
  | ok v M' =>
    rw [hy] at outcome
    rw [Eval.holding_of_ok hy]
    exact ⟨opens.passes good outcome.1, kept v M' _ outcome.2⟩
  | error stop M' =>
    rw [hy] at outcome
    obtain ⟨good', grows, leaves⟩ := outcome
    rw [Eval.holding_of_error hy]
    cases stop with
    | raised e =>
      have passes := opens.passes good ⟨good', grows, leaves.2⟩
      exact ⟨passes.good, passes.grows, leaves.1, passes.rests⟩
    | exhausted =>
      obtain ⟨good₂, grows₂, held₂⟩ := opens.dropped good good' grows leaves.1
      exact ⟨good₂, grows₂, held₂, fun id busy => leaves.2 id ((opens.evaluating id).trans busy)⟩
    | refused => exact leaves.elim

/-- A step that takes a buffer and puts it back. -/
theorem withBuffer {x y : List Value → Eval α} (good : M.Good a K)
    (h : ∀ buffer, Safe a K (x buffer) (y buffer) (M.withScratch M.memory.scratch.rest) P)
    (kept : ∀ v M' pool, P v M' → post v (M'.withScratch pool)) :
    Safe a K (Eval.withBuffer x) (Eval.withBuffer y) M post := by
  have taken := good.withScratch M.memory.grows_rest
  obtain ⟨same, outcome⟩ := h (M.memory.scratch.buffer 0)
  refine ⟨by unfold Eval.withBuffer; rw [same], ?_⟩
  cases hy : y (M.memory.scratch.buffer 0) (M.withScratch M.memory.scratch.rest) with
  | ok v M' =>
    rw [hy] at outcome
    rw [Eval.withBuffer_of_ok hy]
    exact ⟨(taken.trans outcome.1).trans (outcome.1.good.withScratch M'.memory.grows_give),
      kept v M' _ outcome.2⟩
  | error stop M' =>
    rw [hy] at outcome
    obtain ⟨good', grows, leaves⟩ := outcome
    have back := good'.withScratch M'.memory.grows_give
    rw [Eval.withBuffer_of_error hy]
    exact ⟨back.good, (taken.grows.trans grows).trans back.grows,
      (leaves.after taken.rests).before back.rests⟩

/-! ## Loops -/

/-- Each item is turned into a result that is related to it, also later on. -/
theorem mapM {R : α → β → Machine → Prop} {f g : α → Eval β} (as : List α) (good : M.Good a K)
    (later : ∀ v w M M', M.Grows M' → R v w M → R v w M')
    (step : ∀ v ∈ as, ∀ M', M'.Good a K → M.Grows M' → Safe a K (f v) (g v) M' (R v)) :
    Safe a K (as.mapM f) (as.mapM g) M fun ws M' => List.Forall₂ (fun v w => R v w M') as ws := by
  induction as generalizing M with
  | nil =>
    rw [List.mapM_nil, List.mapM_nil]
    exact pure good .nil
  | cons v rest ih =>
    rw [List.mapM_cons, List.mapM_cons]
    refine (step v (List.mem_cons_self ..) M good (.refl M)).bind
      fun w M₁ good₁ grows₁ related => ?_
    refine (ih good₁ fun v hv M' good' grows' => step v (List.mem_cons_of_mem _ hv) M' good'
      (grows₁.trans grows')).bind fun ws M₂ good₂ grows₂ all => ?_
    exact pure good₂ (.cons (later _ _ _ _ grows₂ related) all)

/-- Every round keeps an invariant. -/
theorem forM {P : Machine → Prop} {f g : α → Eval PUnit} (as : List α) (good : M.Good a K)
    (start : P M)
    (step : ∀ v ∈ as, ∀ M', M'.Good a K → M.Grows M' → P M' → Safe a K (f v) (g v) M' fun _ => P) :
    Safe a K (as.forM f) (as.forM g) M fun _ => P := by
  induction as generalizing M with
  | nil => exact pure good start
  | cons v rest ih =>
    show Safe a K (f v >>= fun _ => rest.forM f) (g v >>= fun _ => rest.forM g) M _
    refine (step v (List.mem_cons_self ..) M good (.refl M) start).bind
      fun _ M₁ good₁ grows₁ holds => ?_
    exact ih good₁ holds fun v hv M' good' grows' => step v (List.mem_cons_of_mem _ hv) M' good'
      (grows₁.trans grows')

theorem foldlM {P : β → Machine → Prop} {f g : β → α → Eval β} (as : List α) {b : β}
    (good : M.Good a K) (start : P b M)
    (step : ∀ b v M', M'.Good a K → M.Grows M' → P b M' → Safe a K (f b v) (g b v) M' P) :
    Safe a K (as.foldlM f b) (as.foldlM g b) M P := by
  induction as generalizing M b with
  | nil => exact pure good start
  | cons v rest ih =>
    rw [List.foldlM_cons, List.foldlM_cons]
    refine (step b v M good (.refl M) start).bind fun b' M₁ good₁ grows₁ holds => ?_
    exact ih good₁ holds fun b v M' good' grows' => step b v M' good' (grows₁.trans grows')

end Safe

/-! ## New lists and dictionaries -/

namespace Eval

variable {M : Machine}

theorem newObject_safe (good : M.Good a K) :
    Safe a K (create Memory.newObject) (create Memory.newObject) M fun _ _ => True :=
  .create (good.stepSame (Memory.grows_newObject _) good.memory.newObject rfl (fun _ => rfl)
    (fun _ _ _ h => h) rfl) trivial

theorem newList_safe (good : M.Good a K) (items : List Value) :
    Safe a K (newList items) (newList items) M fun v _ => v.ty = .list :=
  (newObject_safe good).bind fun _ _ good' _ _ => .pure good' rfl

theorem newDict_safe (good : M.Good a K) (entries : Entries Value) :
    Safe a K (newDict entries) (newDict entries) M fun v _ => v.ty = .dict :=
  (newObject_safe good).bind fun _ _ good' _ _ => .pure good' rfl

theorem cast_safe (good : M.Good a K) (v : Value) (ty : Ty) :
    Safe a K (cast v ty) (cast v ty) M fun w _ => ty.Holds w :=
  (newObject_safe good).bind fun _ _ good' _ _ =>
    .ofExcept good' (Value.cast_orderly _ v ty) fun _ h => Value.cast_holds h

end Eval

end CellScript
