import CellScript.Proofs.Eval.Respects

/-!
# Evaluation respects sealed blocks

What looks at the first cells of a sealed block only asks for no later one, whatever functions are
called and whatever cells are computed on the way: a function reaches what it has captured, and what
was captured is no later cell either. The induction is on the fuel, and at each level on the
operation.

* `Supply.Respects` — sealed blocks stay sealed while demands are met
* `Code.Op.eval_respects` — an operation that looks at the first cells only respects the block
* `Eval.force_respects`, `Eval.call_respects` — so does the computation of a cell that may be asked
  for, and so does every call
* `Supply.ofFuel_respects` — sealed blocks stay sealed while demands are met, with any fuel
-/

namespace CellScript

open Code (Op Template)

variable {block space : SpaceId} {count : Nat} {M M' : Machine} {s : Supply}

/-- Sealed blocks stay sealed while the supply meets a demand that may be made. -/
structure Supply.Respects (block : SpaceId) (count : Nat) (s : Supply) : Prop where
  force : ∀ {M : Machine} {id : CellId}, M.Sealed block count → M.memory.Allows block count id →
    Eval.Respects block count (s (.force id)) M fun _ _ => True
  call : ∀ {M : Machine} (id : FunctionId) (args : List Value), M.Sealed block count →
    Eval.Respects block count (s (.call id args)) M fun _ _ => True
  bind : ∀ {M : Machine} {id : CellId} (v : Value), M.Sealed block count → id.Early block count →
    Eval.Respects block count (s.bind id v) M fun _ _ => True
  watch : ∀ {M : Machine} (op : Op) (space : SpaceId) (x : Eval Value),
    Eval.Respects block count x M (fun _ _ => True) →
    Eval.Respects block count (s.watch op space x) M fun _ _ => True

/-! ## New spaces -/

namespace Eval

/-- A new space is laid out beside the block. -/
theorem newSpace_apart (now : M.Sealed block count) (new : Space) :
    (M.memory.newSpace new).2.Apart block M.memory.spaces.size := by
  refine ⟨?_, Nat.ne_of_gt now.memory.known⟩
  rw [Memory.size_spaces_newSpace]
  exact Nat.lt_succ_self _

/-- The cells of a new space that is laid out from a template. -/
theorem cell_of_template {t : Template} {e : Option SpaceId} {closure : Option ClosureId} {i : Nat}
    {c : Cell} (hc : (Space.ofTemplate t e closure).cells[i]? = some c) :
    ∃ slot, t.slots[i]? = some slot ∧ c = Cell.ofSlot slot := by
  change ((t.slots.map Cell.ofSlot).toArray)[i]? = some c at hc
  rw [List.getElem?_toArray, List.getElem?_map, Option.map_eq_some_iff] at hc
  obtain ⟨slot, found, rfl⟩ := hc
  exact ⟨slot, found, rfl⟩

/-- A block laid out in a space. -/
theorem child_respects {t : Template}
    (h : M.Heeds block count space fun more depth => t.Below more (depth + 1)) :
    Respects block count (create (·.child t space)) M
      fun inner M' => M'.Inside block space inner := by
  refine .create h.sealed (Memory.grows_newSpace _ _) ?_ ⟨newSpace_apart h.sealed _, ?_⟩
  · refine h.sealed.memory.newSpace (fun e he => ?_)
      (fun i c hc => ?_) fun i c init hc found e he => ?_
    · cases he
      exact h.known
    · obtain ⟨slot, -, rfl⟩ := cell_of_template hc
      rfl
    · obtain ⟨slot, there, rfl⟩ := cell_of_template hc
      cases he
      intro depth outer more later
      have below := (Code.template_below_iff t).mp (h.heeds depth outer more later) slot
        (List.mem_of_getElem? there)
      change slot.init = some init at found
      rwa [found] at below
  · show ((M.memory.child t space).2.space M.memory.spaces.size).enclosing = _
    rw [Memory.child, Memory.space_newSpace, if_pos rfl]
    rfl

/-- A block laid out again, beside the first. -/
theorem fork_respects (now : M.Sealed block count) (apart : M.memory.Apart block space) :
    Respects block count (create (·.fork space)) M fun copy M' => M'.memory.Apart block copy ∧
      (M'.memory.space copy).enclosing = (M'.memory.space space).enclosing := by
  refine .create now (Memory.grows_newSpace _ _) ?_ ⟨newSpace_apart now _, ?_⟩
  · refine now.memory.newSpace (fun e he => ?_) (fun i c hc => ?_) fun i c init hc found e he => ?_
    · exact Nat.lt_trans (now.memory.inside space e he) apart.known
    · change ((M.memory.space space).cells.map _)[i]? = some c at hc
      rw [Array.getElem?_map, Option.map_eq_some_iff] at hc
      obtain ⟨old, -, rfl⟩ := hc
      rfl
    · change ((M.memory.space space).cells.map _)[i]? = some c at hc
      rw [Array.getElem?_map, Option.map_eq_some_iff] at hc
      obtain ⟨old, there, rfl⟩ := hc
      have same : (M.memory.cell ⟨space, i⟩).shape.init = some init := by
        rw [Memory.cell_eq, there]
        exact found
      intro depth outer
      refine now.memory.init ⟨space, i⟩ init apart.other same (depth + 1) ?_
      rw [Memory.outward?, he]
      exact outer
  · show ((M.memory.fork space).2.space M.memory.spaces.size).enclosing =
      ((M.memory.fork space).2.space space).enclosing
    rw [Memory.fork, Memory.space_newSpace, Memory.space_newSpace, if_pos rfl,
      if_neg (Nat.ne_of_lt apart.known)]

/-- The space of a call has nothing around it. -/
theorem callSpace_respects (now : M.Sealed block count) (t : Template) (closure : ClosureId) :
    Respects block count (create (·.callSpace t closure)) M fun inner M' =>
      M'.memory.Apart block inner ∧ (M'.memory.space inner).enclosing = none := by
  refine .create now (Memory.grows_newSpace _ _) ?_ ⟨newSpace_apart now _, ?_⟩
  · refine now.memory.newSpace (fun e he => by cases he) (fun i c hc => ?_)
      fun i c init hc found e he => by cases he
    obtain ⟨slot, -, rfl⟩ := cell_of_template hc
    rfl
  · show ((M.memory.callSpace t closure).2.space M.memory.spaces.size).enclosing = _
    rw [Memory.callSpace, Memory.space_newSpace, if_pos rfl]
    rfl

end Eval

/-! ## Parts of the evaluator -/

namespace Eval

variable (respects : s.Respects block count)

include respects

theorem bindSlot_respects (apart : M.memory.Apart block space) (now : M.Sealed block count)
    (slot : Nat) (v : Value) : Respects block count (bindSlot s space slot v) M fun _ _ => True :=
  (cellIn_respects now space slot fun same => absurd same apart.other).bind
    fun _ _ keeps allows => respects.bind v keeps.sealed allows.2.early

theorem bindSlots_respects (apart : M.memory.Apart block space) (now : M.Sealed block count)
    (bindings : Bindings) : Respects block count (bindSlots s space bindings) M fun _ _ => True :=
  .forM bindings now fun _ _ _ keeps =>
    bindSlot_respects respects (apart.grows keeps.grows) keeps.sealed _ _

theorem callWith_respects (now : M.Sealed block count) (id : FunctionId)
    (args : List CallArgument) :
    Respects block count (callWith s id args) M fun _ _ => True := by
  unfold callWith
  split
  · exact respects.call id _ now
  · exact .asked now fun values _ => respects.call id values now

/-- A catch clause gets to know of the exception in a space of its own. -/
theorem bindCaught_respects (apart : M.memory.Apart block space) (now : M.Sealed block count)
    (error trace : Option Nat) (e : Exception) :
    Respects block count (bindCaught s error trace e space) M fun _ _ => True := by
  have receive : ∀ {M : Machine} (slot : Option Nat) (value : ObjectId → Value),
      M.Sealed block count → M.memory.Apart block space → Respects block count
        (slot.forM fun slot => do bindSlot s space slot (value (← create Memory.newObject))) M
        fun _ _ => True := by
    intro M slot value now apart
    cases slot with
    | none => exact .pure now trivial
    | some slot =>
      exact (newObject_respects now).bind fun id M₁ keeps₁ _ =>
        bindSlot_respects respects (apart.grows keeps₁.grows) keeps₁.sealed slot _
  exact (receive error _ now apart).bind fun _ M₁ keeps₁ _ =>
    receive trace _ keeps₁.sealed (apart.grows keeps₁.grows)

omit respects in
/-- A captured symbol that is pending leads to a cell that may be asked for. -/
theorem allows_of_captured (now : M.Sealed block count) {closure : ClosureId} {index : Nat}
    {c : Captured} (found : M.memory.captured closure index = .ok c) (cell : CellId)
    (pending : c = .pending cell) :
    M.memory.Allows block count cell := by
  unfold Memory.captured at found
  split at found
  · next there =>
    cases found
    exact now.memory.pending closure index cell (pending ▸ there)
  · cases found

theorem captured_respects (now : M.Sealed block count) (closure : ClosureId) (index : Nat) :
    Respects block count (captured s closure index) M fun _ _ => True := by
  refine .asked now fun c found => ?_
  have allows := allows_of_captured now found
  cases c with
  | empty => exact .pure now trivial
  | value v origin => exact .pure now trivial
  | pending cell =>
    refine (respects.force now (allows cell rfl)).bind fun v M₁ keeps₁ _ => ?_
    exact (Respects.modifyMemory keeps₁.sealed (Memory.grows_fill _ closure index v)
      (keeps₁.sealed.memory.fill closure index v)).last fun _ _ now => .pure now trivial

theorem reference_respects {ref : Code.CellRef} (h : M.Heeds block count space (ref.Below · ·)) :
    Respects block count (reference s space ref) M fun _ _ => True := by
  unfold reference
  split
  · refine Respects.memory ?_
    split
    · exact captured_respects respects h.sealed _ _
    · exact .raise h.sealed
  · exact (resolve_respects h).bind fun id _ keeps allows => respects.force keeps.sealed allows

/-- What is captured pending may be asked for. -/
theorem capture_respects {plan : Code.CapturePlan}
    (h : M.Heeds block count space (plan.Below · ·)) :
    Respects block count (capture s space plan) M fun c M' =>
      ∀ cell, c = .pending cell → M'.memory.Allows block count cell := by
  cases plan with
  | propagate index =>
    refine Respects.memory ?_
    split
    · refine .asked h.sealed fun c found => .pure h.sealed fun cell settled => ?_
      have allows := allows_of_captured h.sealed found
      cases c with
      | empty => cases settled
      | value v origin => cases settled
      | pending other =>
        rw [Memory.settled] at settled
        split at settled <;> cases settled
        exact allows cell rfl
    · exact .raise h.sealed
  | cell ref =>
    refine (resolve_respects h).bind fun id M₁ keeps₁ allows => Respects.memory ?_
    simp only
    split
    · exact .pure keeps₁.sealed fun cell settled => by cases settled
    · split
      · refine .pure keeps₁.sealed fun cell settled => ?_
        cases settled
        exact allows
      · exact (respects.force keeps₁.sealed allows).bind fun v _ keeps₂ _ =>
          .pure keeps₂.sealed fun cell settled => by cases settled

end Eval

/-! ## Operations -/

namespace Code

open Eval

variable (respects : s.Respects block count)

include respects

set_option linter.unusedSectionVars false

mutual

/-- **An operation that looks at the first cells of a sealed block only respects the block.** -/
theorem Op.eval_respects : ∀ (op : Op) {space : SpaceId} {M : Machine},
    M.Heeds block count space (op.Below · ·) →
    Eval.Respects block count (op.eval s space) M fun _ _ => True
  | ⟨span, action⟩, _, _, h => by
    rw [Op.eval]
    exact respects.watch _ _ _ ((action.eval_respects h).located span)

theorem Action.eval_respects : ∀ (action : Action) {space : SpaceId} {M : Machine},
    M.Heeds block count space (action.Below · ·) →
    Eval.Respects block count (action.eval s space) M fun _ _ => True
  | .constant v, _, _, h => .pure h.sealed trivial
  | .fail fault, _, _, h => .raise h.sealed
  | .reference ref _, _, _, h => reference_respects respects h
  | .list items, _, _, h => by
    rw [Action.eval]
    exact (evalItems_respects items h).last fun vs _ now => newList_respects now vs
  | .patchedList segments, _, _, h => by
    rw [Action.eval]
    exact (evalListSegments_respects segments h).last fun vs _ now => newList_respects now vs
  | .dict entries, _, _, h => by
    rw [Action.eval]
    exact (evalEntries_respects entries [] h).last fun es _ now => newDict_respects now es
  | .mergedDict segments, _, _, h => by
    rw [Action.eval]
    exact (evalDictSegments_respects segments [] h).last fun es _ now => newDict_respects now es
  | .function params returns body template captures region, _, _, h => by
    rw [Action.eval]
    refine (evalDefaults_respects params h.left).bind fun defaults M₁ keeps₁ _ => ?_
    have plans := h.right.later keeps₁
    refine (Respects.mapM
      (Q := fun (c : Captured) M' => ∀ cell, c = .pending cell → M'.memory.Allows block count cell)
      captures plans.sealed (fun c M' M'' later allows cell pending =>
        (allows cell pending).grows later.grows)
      fun plan mem M' keeps => capture_respects respects
        ((plans.later keeps).imp fun _ _ below => below plan mem)).bind
          fun captured M₂ keeps₂ allows => ?_
    exact (newClosure_respects keeps₂.sealed captured fun cell mem => allows _ mem cell rfl).last
      fun closure _ now => newFunction_respects now _
  | .call callee args, _, _, h => by
    rw [Action.eval]
    refine (callee.eval_respects h.left).bind fun v M₁ keeps₁ _ => ?_
    cases v with
    | function id signature =>
      exact (evalArguments_respects args (h.right.later keeps₁)).last
        fun vs _ now => callWith_respects respects now id vs
    | _ => exact .raise keeps₁.sealed
  | .fixedCall id _ args, _, _, h => by
    rw [Action.eval]
    exact (evalOps_respects args h).last fun vs _ now => respects.call id vs now
  | .curry callee args, _, _, h => by
    rw [Action.eval]
    refine (callee.eval_respects h.left).bind fun v M₁ keeps₁ _ => ?_
    cases v with
    | function id signature =>
      exact (evalNamed_respects args (h.right.later keeps₁)).last
        fun vs _ now => curry_respects now id vs
    | _ => exact .raise keeps₁.sealed
  | .letIn template body, _, _, h => by
    rw [Action.eval]
    exact (child_respects h.left).bind fun inner M₁ keeps₁ inside =>
      (body.eval_respects ((h.right.later keeps₁).inside inside)).holding inner
  | .ifElse c t e, _, _, h => by
    rw [Action.eval]
    refine (c.eval_respects h.left).bind fun v M₁ keeps₁ _ => ?_
    split
    · exact t.eval_respects (h.right.left.later keeps₁)
    · exact e.eval_respects (h.right.right.later keeps₁)
  | .matchOn subject lines, _, _, h => by
    rw [Action.eval]
    exact (subject.eval_respects h.left).bind fun v M₁ keeps₁ _ =>
      evalLines_respects lines v (h.right.later keeps₁)
  | .forEach template heads body, _, _, h => by
    rw [Action.eval]
    refine (child_respects h.left).bind fun inner M₁ keeps₁ inside => ?_
    have values := (runHeads_respects heads (fun h => body.eval_respects h) inside.apart
      ((h.right.left.later keeps₁).inside inside) ((h.right.right.later keeps₁).inside inside)).last
      fun vs _ now => newList_respects now vs
    exact values.holding inner
  | .binary op mode l r, _, _, h => by
    have left := l.eval_respects h.left
    have right : ∀ {M' : Machine}, Machine.Respects block count _ M' → _ := fun {M'} keeps =>
      r.eval_respects (h.right.later keeps)
    cases op with
    | and | or =>
      rw [Action.eval]
      refine left.bind fun v M₁ keeps₁ _ => ?_
      split
      all_goals first
        | exact .pure keeps₁.sealed trivial
        | exact (right keeps₁).last fun w _ now => .pure now trivial
    | _ =>
      simp only [Action.eval]
      exact left.bind fun v M₁ keeps₁ _ => (right keeps₁).last fun w _ now => .outcome now
  | .unary op e, _, _, h => by
    rw [Action.eval]
    exact (e.eval_respects h).last fun v _ now => .outcome now
  | .cast e ty, _, _, h => by
    rw [Action.eval]
    exact (e.eval_respects h).last fun v _ now => cast_respects now v ty
  | .isOf e ty, _, _, h => by
    rw [Action.eval]
    exact (e.eval_respects h).last fun v _ now => .pure now trivial
  | .access container keys, _, _, h => by
    rw [Action.eval]
    refine (container.eval_respects h.left).bind fun v M₁ keeps₁ _ => ?_
    exact (evalOps_respects keys (h.right.later keeps₁)).last fun vs _ now => .outcome now
  | .keyAccess container key, _, _, h => by
    rw [Action.eval]
    exact (container.eval_respects h).last fun v _ now => .outcome now
  | .tryCatch body template error trace handler, _, _, h => by
    rw [Action.eval]
    refine (body.eval_respects h.left).attempt.bind fun r M₁ keeps₁ _ => ?_
    cases r with
    | ok v => exact .pure keeps₁.sealed trivial
    | error e =>
      refine (child_respects (h.right.left.later keeps₁)).bind fun inner M₂ keeps₂ inside => ?_
      have handled := (bindCaught_respects respects inside.apart keeps₂.sealed error trace e).bind
        fun _ M₃ keeps₃ _ => handler.eval_respects
          ((((h.right.right.later keeps₁).later keeps₂).later keeps₃).inside (inside.later keeps₃))
      exact handled.holding inner
  | .throw e, _, _, h => by
    rw [Action.eval]
    exact (e.eval_respects h).last fun v _ now => Respects.context (.raise now)

theorem evalOps_respects : ∀ (ops : List Op) {space : SpaceId} {M : Machine},
    M.Heeds block count space (opsBelow · · ops) →
    Eval.Respects block count (evalOps s space ops) M fun _ _ => True
  | [], _, _, h => .pure h.sealed trivial
  | op :: rest, _, _, h => by
    rw [evalOps]
    refine (op.eval_respects h.left).bind fun v M₁ keeps₁ _ => ?_
    exact (evalOps_respects rest (h.right.later keeps₁)).last fun _ _ now => .pure now trivial

theorem evalItems_respects : ∀ (items : List Item) {space : SpaceId} {M : Machine},
    M.Heeds block count space (itemsBelow · · items) →
    Eval.Respects block count (evalItems s space items) M fun _ _ => True
  | [], _, _, h => .pure h.sealed trivial
  | .value op :: rest, _, _, h => by
    rw [evalItems]
    refine (op.eval_respects h.left).bind fun v M₁ keeps₁ _ => ?_
    exact (evalItems_respects rest (h.right.later keeps₁)).last fun _ _ now => .pure now trivial
  | .splat op :: rest, _, _, h => by
    rw [evalItems]
    refine (op.eval_respects h.left).bind fun v M₁ keeps₁ _ => ?_
    refine (Respects.outcome keeps₁.sealed).bind fun vs M₂ keeps₂ _ => ?_
    exact (evalItems_respects rest ((h.right.later keeps₁).later keeps₂)).last
      fun _ _ now => .pure now trivial

theorem evalListSegments_respects : ∀ (segments : List ListSegment) {space : SpaceId} {M : Machine},
    M.Heeds block count space (listSegmentsBelow · · segments) →
    Eval.Respects block count (evalListSegments s space segments) M fun _ _ => True
  | [], _, _, h => .pure h.sealed trivial
  | .constant run :: rest, _, _, h => by
    rw [evalListSegments]
    exact (evalListSegments_respects rest h).last fun _ _ now => .pure now trivial
  | .value op :: rest, _, _, h => by
    rw [evalListSegments]
    refine (op.eval_respects h.left).bind fun v M₁ keeps₁ _ => ?_
    exact (evalListSegments_respects rest (h.right.later keeps₁)).last fun _ _ now =>
      .pure now trivial
  | .splat op :: rest, _, _, h => by
    rw [evalListSegments]
    refine (op.eval_respects h.left).bind fun v M₁ keeps₁ _ => ?_
    refine (Respects.outcome keeps₁.sealed).bind fun vs M₂ keeps₂ _ => ?_
    exact (evalListSegments_respects rest ((h.right.later keeps₁).later keeps₂)).last
      fun _ _ now => .pure now trivial

theorem evalEntries_respects : ∀ (entries : List Entry) (found : Entries Value) {space : SpaceId}
    {M : Machine}, M.Heeds block count space (entriesBelow · · entries) →
    Eval.Respects block count (evalEntries s space found entries) M fun _ _ => True
  | [], _, _, _, h => .pure h.sealed trivial
  | .pair k v :: rest, _, _, _, h => by
    rw [evalEntries]
    refine (k.eval_respects h.left).bind fun key M₁ keeps₁ _ => ?_
    refine (Respects.outcome keeps₁.sealed).bind fun key M₂ keeps₂ _ => ?_
    have later := (h.right.later keeps₁).later keeps₂
    refine (v.eval_respects later.left).bind fun value M₃ keeps₃ _ => ?_
    exact evalEntries_respects rest _ (later.right.later keeps₃)
  | .splat op :: rest, _, _, _, h => by
    rw [evalEntries]
    refine (op.eval_respects h.left).bind fun v M₁ keeps₁ _ => ?_
    refine (Respects.outcome keeps₁.sealed).bind fun more M₂ keeps₂ _ => ?_
    exact evalEntries_respects rest _ ((h.right.later keeps₁).later keeps₂)

theorem evalDictSegments_respects : ∀ (segments : List DictSegment) (found : Entries Value)
    {space : SpaceId} {M : Machine}, M.Heeds block count space (dictSegmentsBelow · · segments) →
    Eval.Respects block count (evalDictSegments s space found segments) M fun _ _ => True
  | [], _, _, _, h => .pure h.sealed trivial
  | .constant run :: rest, _, _, _, h => by
    rw [evalDictSegments]
    exact evalDictSegments_respects rest _ h
  | .pair key v :: rest, _, _, _, h => by
    rw [evalDictSegments]
    refine (v.eval_respects h.left).bind fun value M₁ keeps₁ _ => ?_
    exact evalDictSegments_respects rest _ (h.right.later keeps₁)
  | .dynamic k v :: rest, _, _, _, h => by
    rw [evalDictSegments]
    refine (k.eval_respects h.left).bind fun key M₁ keeps₁ _ => ?_
    refine (Respects.outcome keeps₁.sealed).bind fun key M₂ keeps₂ _ => ?_
    have later := (h.right.later keeps₁).later keeps₂
    refine (v.eval_respects later.left).bind fun value M₃ keeps₃ _ => ?_
    exact evalDictSegments_respects rest _ (later.right.later keeps₃)
  | .splat op :: rest, _, _, _, h => by
    rw [evalDictSegments]
    refine (op.eval_respects h.left).bind fun v M₁ keeps₁ _ => ?_
    refine (Respects.outcome keeps₁.sealed).bind fun more M₂ keeps₂ _ => ?_
    exact evalDictSegments_respects rest _ ((h.right.later keeps₁).later keeps₂)

theorem evalDefaults_respects : ∀ (params : List Param) {space : SpaceId} {M : Machine},
    M.Heeds block count space (paramsBelow · · params) →
    Eval.Respects block count (evalDefaults s space params) M fun _ _ => True
  | [], _, _, h => .pure h.sealed trivial
  | ⟨_, _, none⟩ :: rest, _, _, h => by
    rw [evalDefaults]
    exact (evalDefaults_respects rest h.right).last fun _ _ now => .pure now trivial
  | ⟨_, ty, some op⟩ :: rest, _, _, h => by
    rw [evalDefaults]
    refine (op.eval_respects h.left).bind fun v M₁ keeps₁ _ => ?_
    refine (cast_respects keeps₁.sealed v ty).bind fun w M₂ keeps₂ _ => ?_
    exact (evalDefaults_respects rest ((h.right.later keeps₁).later keeps₂)).last
      fun _ _ now => .pure now trivial

theorem evalArguments_respects : ∀ (args : List Argument) {space : SpaceId} {M : Machine},
    M.Heeds block count space (argumentsBelow · · args) →
    Eval.Respects block count (evalArguments s space args) M fun _ _ => True
  | [], _, _, h => .pure h.sealed trivial
  | .positional op :: rest, _, _, h | .named _ op :: rest, _, _, h | .splat op ::
      rest, _, _, h => by
    rw [evalArguments]
    refine (op.eval_respects h.left).bind fun v M₁ keeps₁ _ => ?_
    exact (evalArguments_respects rest (h.right.later keeps₁)).last fun _ _ now => .pure now trivial

theorem evalNamed_respects : ∀ (args : List Named) {space : SpaceId} {M : Machine},
    M.Heeds block count space (namedBelow · · args) →
    Eval.Respects block count (evalNamed s space args) M fun _ _ => True
  | [], _, _, h => .pure h.sealed trivial
  | ⟨_, op⟩ :: rest, _, _, h => by
    rw [evalNamed]
    refine (op.eval_respects h.left).bind fun v M₁ keeps₁ _ => ?_
    exact (evalNamed_respects rest (h.right.later keeps₁)).last fun _ _ now => .pure now trivial

theorem accepts_respects : ∀ (guard : Option Op) {space : SpaceId} {M : Machine},
    M.Heeds block count space (optionBelow · · guard) →
    Eval.Respects block count (accepts s space guard) M fun _ _ => True
  | none, _, _, h => .pure h.sealed trivial
  | some op, _, _, h => by
    rw [accepts]
    exact (op.eval_respects h).last fun _ _ now => .pure now trivial

theorem evalLines_respects :
    ∀ (lines : List Line) (subject : Value) {space : SpaceId} {M : Machine},
    M.Heeds block count space (linesBelow · · lines) →
    Eval.Respects block count (evalLines s space subject lines) M fun _ _ => True
  | [], _, _, _, h => .pure h.sealed trivial
  | ⟨pattern, template, guard, result⟩ :: rest, subject, space, _, h => by
    have first := h.left
    rw [evalLines]
    refine (pattern.captures_respects subject first.left).bind fun bindings M₁ keeps₁ _ => ?_
    have later := h.right.later keeps₁
    cases bindings with
    | none => exact evalLines_respects rest subject later
    | some bindings =>
      have clause := first.right.later keeps₁
      have tried : Eval.Respects block count (within (·.child template space) fun inner => do
          bindSlots s inner bindings
          if ← accepts s inner guard then return some (← result.eval s inner)
          else return none) M₁ fun _ _ => True := by
        refine (child_respects clause.left).bind fun inner M₂ keeps₂ inside =>
          Respects.holding (P := fun _ _ => True) ?_ inner
        refine (bindSlots_respects respects inside.apart keeps₂.sealed bindings).bind
          fun _ M₃ keeps₃ _ => ?_
        have keeps₂₃ := keeps₂.trans keeps₃
        have guarded : Machine.Heeds M₃ block count inner (optionBelow · · guard) :=
          (clause.right.left.later keeps₂₃).inside (inside.later keeps₃)
        have decided : Machine.Heeds M₃ block count inner (result.Below · ·) :=
          (clause.right.right.later keeps₂₃).inside (inside.later keeps₃)
        refine (accepts_respects guard guarded).bind fun holds M₄ keeps₄ _ => ?_
        split
        · exact (result.eval_respects (decided.later keeps₄)).last fun v _ now => .pure now trivial
        · exact .pure keeps₄.sealed trivial
      refine tried.bind fun value M₂ keeps₂ _ => ?_
      cases value with
      | some v => exact .pure keeps₂.sealed trivial
      | none => exact evalLines_respects rest subject (later.later keeps₂)

/-- Each copy of a block lies where the block lies, so that the rest of the heads looks no further
in it. -/
theorem runHeads_respects :
    ∀ (heads : List Head) {body : SpaceId → Eval Value} {below : Nat → Nat → Prop},
    (∀ {space : SpaceId} {M : Machine}, M.Heeds block count space below →
      Eval.Respects block count (body space) M fun _ _ => True) →
    ∀ {inner : SpaceId} {M : Machine}, M.memory.Apart block inner →
      M.Heeds block count inner (headsBelow · · heads) → M.Heeds block count inner below →
      Eval.Respects block count (runHeads s body inner heads) M fun _ _ => True
  | [], _, _, bodies, _, _, _, _, last => by
    rw [runHeads]
    exact (bodies last).last fun _ _ now => .pure now trivial
  | .generator slot ty source :: rest, _, _, bodies, inner, M, apart, h, last => by
    rw [runHeads]
    refine (source.eval_respects h.left).bind fun v M₁ keeps₁ _ => ?_
    refine (Respects.outcome keeps₁.sealed).bind fun items M₂ keeps₂ _ => ?_
    have keeps := keeps₁.trans keeps₂
    refine (Respects.mapM items keeps.sealed (fun _ _ _ _ _ => trivial) fun item _ M₃ keeps₃ =>
      ?_).last
      fun _ _ now => .pure now trivial
    have keeps := keeps.trans keeps₃
    refine (fork_respects keeps.sealed (apart.grows keeps.grows)).bind
      fun copy M₄ keeps₄ made => Respects.holding (P := fun _ _ => True) ?_ copy
    refine (cellIn_respects keeps₄.sealed copy slot fun same => absurd same made.1.other).bind
      fun id M₅ keeps₅ allows => ?_
    refine (cast_respects keeps₅.sealed item ty).bind fun w M₆ keeps₆ _ => ?_
    refine (respects.bind w keeps₆.sealed allows.2.early).bind fun _ M₇ keeps₇ _ => ?_
    have since := (keeps₅.trans keeps₆).trans keeps₇
    have there := made.1.grows since.grows
    have enclosing : (M₇.memory.space copy).enclosing = (M₇.memory.space inner).enclosing := by
      rw [(since.grows.space copy made.1.known).enclosing, made.2,
        ((keeps₄.trans since).grows.space inner (apart.grows keeps.grows).known).enclosing,
        (keeps₄.grows.space inner (apart.grows keeps.grows).known).enclosing]
    have all := (keeps.trans keeps₄).trans since
    exact runHeads_respects rest bodies there ((h.right.later all).copy there enclosing)
      ((last.later all).copy there enclosing)
  | .definition slot :: rest, _, _, bodies, inner, _, apart, h, last => by
    rw [runHeads]
    refine (cellIn_respects h.sealed inner slot fun same => absurd same apart.other).bind
      fun id M₁ keeps₁ allows => ?_
    refine (respects.force keeps₁.sealed allows.2).bind fun v M₂ keeps₂ _ => ?_
    have keeps := keeps₁.trans keeps₂
    exact runHeads_respects rest bodies (apart.grows keeps.grows) (h.later keeps) (last.later keeps)
  | .condition op :: rest, _, _, bodies, _, _, apart, h, last => by
    rw [runHeads]
    refine (op.eval_respects h.left).bind fun v M₁ keeps₁ _ => ?_
    split
    · exact runHeads_respects rest bodies (apart.grows keeps₁.grows) (h.right.later keeps₁)
        (last.later keeps₁)
    · exact .pure keeps₁.sealed trivial

theorem Pattern.captures_respects :
    ∀ (p : Pattern) (subject : Value) {space : SpaceId} {M : Machine},
    M.Heeds block count space (p.Below · ·) →
    Eval.Respects block count (p.captures s space subject) M fun _ _ => True
  | ⟨shape, whole⟩, subject, _, _, h => by
    rw [Pattern.captures]
    refine (shape.captures_respects subject h).bind fun found M₁ keeps₁ _ => ?_
    cases found <;> exact .pure keeps₁.sealed trivial

theorem Shape.captures_respects :
    ∀ (shape : Shape) (subject : Value) {space : SpaceId} {M : Machine},
    M.Heeds block count space (shape.Below · ·) →
    Eval.Respects block count (shape.captures s space subject) M fun _ _ => True
  | .expr op, subject, _, _, h => by
    rw [Shape.captures]
    refine (op.eval_respects h).bind fun v M₁ keeps₁ _ => ?_
    split
    · exact (respects.call _ _ keeps₁.sealed).last fun _ _ now => .pure now trivial
    · exact .pure keeps₁.sealed trivial
  | .any, _, _, _, h => .pure h.sealed trivial
  | .ofType ty, _, _, _, h => .pure h.sealed trivial
  | .list items, subject, _, _, h => by
    cases subject with
    | list id parts =>
      rw [Shape.captures]
      split
      · exact capturesOfAll_respects items _ h
      · exact .pure h.sealed trivial
    | _ => exact .pure h.sealed trivial
  | .headTail head tail, subject, _, _, h => by
    cases subject with
    | list id parts =>
      rw [Shape.captures]
      split
      · exact .pure h.sealed trivial
      · refine (capturesOfAll_respects head _ h).bind fun found M₁ keeps₁ _ => ?_
        cases found with
        | none => exact .pure keeps₁.sealed trivial
        | some bindings =>
          exact (bindList_respects keeps₁.sealed tail _).last fun _ _ now => .pure now trivial
    | _ => exact .pure h.sealed trivial
  | .initLast init last, subject, _, _, h => by
    cases subject with
    | list id parts =>
      rw [Shape.captures]
      split
      · exact .pure h.sealed trivial
      · refine (capturesOfAll_respects last _ h).bind fun found M₁ keeps₁ _ => ?_
        cases found with
        | none => exact .pure keeps₁.sealed trivial
        | some bindings =>
          exact (bindList_respects keeps₁.sealed init _).last fun _ _ now => .pure now trivial
    | _ => exact .pure h.sealed trivial
  | .middle head mid last, subject, _, _, h => by
    cases subject with
    | list id parts =>
      rw [Shape.captures]
      split
      · exact .pure h.sealed trivial
      · refine (capturesOfAll_respects head _ h.left).bind fun found M₁ keeps₁ _ => ?_
        cases found with
        | none => exact .pure keeps₁.sealed trivial
        | some bindings =>
          refine (capturesOfAll_respects last _ (h.right.later keeps₁)).bind
            fun found M₂ keeps₂ _ => ?_
          cases found with
          | none => exact .pure keeps₂.sealed trivial
          | some bindings =>
            exact (bindList_respects keeps₂.sealed mid _).last fun _ _ now => .pure now trivial
    | _ => exact .pure h.sealed trivial
  | .dict entries, subject, _, _, h => by
    cases subject with
    | dict id parts =>
      rw [Shape.captures]
      split
      · exact capturesOfEntries_respects entries _ h
      · exact .pure h.sealed trivial
    | _ => exact .pure h.sealed trivial
  | .openDict entries rest, subject, _, _, h => by
    cases subject with
    | dict id parts =>
      rw [Shape.captures]
      refine (capturesOfEntries_respects entries _ h).bind fun found M₁ keeps₁ _ => ?_
      cases found with
      | none => exact .pure keeps₁.sealed trivial
      | some bindings =>
        exact (bindDict_respects keeps₁.sealed rest _).last fun _ _ now => .pure now trivial
    | _ => exact .pure h.sealed trivial

theorem capturesOfAll_respects : ∀ (patterns : List Pattern) (values : List Value) {space : SpaceId}
    {M : Machine}, M.Heeds block count space (patternsBelow · · patterns) →
    Eval.Respects block count (capturesOfAll s space values patterns) M fun _ _ => True
  | [], _, _, _, h => .pure h.sealed trivial
  | p :: rest, [], _, _, h => .pure h.sealed trivial
  | p :: rest, v :: values, _, _, h => by
    rw [capturesOfAll]
    refine (p.captures_respects v h.left).bind fun found M₁ keeps₁ _ => ?_
    cases found with
    | none => exact .pure keeps₁.sealed trivial
    | some first =>
      refine (capturesOfAll_respects rest values (h.right.later keeps₁)).last fun found _ now => ?_
      cases found <;> exact .pure now trivial

theorem capturesOfEntries_respects : ∀ (patterns : List KeyPattern) (found : Entries Value)
    {space : SpaceId} {M : Machine}, M.Heeds block count space (keyPatternsBelow · · patterns) →
    Eval.Respects block count (capturesOfEntries s space found patterns) M fun _ _ => True
  | [], _, _, _, h => .pure h.sealed trivial
  | ⟨key, p⟩ :: rest, found, _, _, h => by
    rw [capturesOfEntries]
    split
    · exact .pure h.sealed trivial
    · refine (p.captures_respects _ h.left).bind fun first M₁ keeps₁ _ => ?_
      cases first with
      | none => exact .pure keeps₁.sealed trivial
      | some first =>
        refine (capturesOfEntries_respects rest found (h.right.later keeps₁)).last
          fun more _ now => ?_
        cases more <;> exact .pure now trivial

end

end Code

/-! ## Demands -/

namespace Eval

/-- A cell changes that may be asked for. -/
theorem modifyCell_respects (now : M.Sealed block count) {id : CellId}
    (early : id.Early block count) {f : Cell → Cell} (later : ∀ c : Cell, c.Later (f c))
    (same : ∀ c : Cell, (f c).shape = c.shape ∧ (f c).members = c.members) :
    Respects block count (modifyMemory (·.modifyCell id f)) M fun _ _ => True :=
  .modifyMemory now (M.memory.grows_modifyCell_of_later id later) (now.memory.modifyCell early same)

theorem fill_respects (now : M.Sealed block count) (waiting : List Deferral) (v : Value) :
    Respects block count (modifyMemory fun m =>
      waiting.foldl (fun m d => m.fill d.closure d.index v) m) M
      fun _ _ => True := by
  have filled : ∀ m : Memory, m.Sealed block count →
      m.Grows (waiting.foldl (fun m d => m.fill d.closure d.index v) m) ∧
        (waiting.foldl (fun m d => m.fill d.closure d.index v) m).Sealed block count := by
    induction waiting with
    | nil => exact fun m now => ⟨.refl m, now⟩
    | cons d rest ih =>
      intro m now
      obtain ⟨grows, kept⟩ := ih _ (now.fill d.closure d.index v)
      exact ⟨(m.grows_fill d.closure d.index v).trans grows, kept⟩
  obtain ⟨grows, kept⟩ := filled M.memory now.memory
  exact .modifyMemory now grows kept

theorem settle_respects (now : M.Sealed block count) {id : CellId}
    (early : id.Early block count) (v : Value) :
    Respects block count (settle id v) M fun _ _ => True := by
  refine (modifyCell_respects now early (·.later_evaluating false) fun _ => ⟨rfl, rfl⟩).last
    fun _ M₁ now => ?_
  refine (bindCell_respects now early v).last fun _ M₂ now => Respects.memory (Respects.context ?_)
  refine (fill_respects now _ _).last fun _ M₃ now => ?_
  exact (Respects.modifyContext now rfl).last fun _ _ now => .pure now trivial

theorem settleFailure_respects (now : M.Sealed block count) {id : CellId}
    (early : id.Early block count) (e : Exception) :
    Respects block count (settleFailure id e) M fun _ _ => True := by
  refine (modifyCell_respects now early (·.later_evaluating false) fun _ => ⟨rfl, rfl⟩).last
    fun _ M₁ now => ?_
  refine (modifyCell_respects now early (·.later_withFailure e) fun _ => ⟨rfl, rfl⟩).last
    fun _ M₂ now => ?_
  exact (Respects.modifyContext now rfl).last fun _ _ now => Respects.memory (.raise now)

variable (respects : s.Respects block count)

include respects

/-- A cell that may be asked for is computed. -/
theorem compute_respects (now : M.Sealed block count) {id : CellId}
    (allows : M.memory.Allows block count id) {shape : Code.Slot}
    (same : (M.memory.cell id).shape = shape) :
    Respects block count (compute s id shape) M fun _ _ => True := by
  unfold compute
  split
  · exact .pure now trivial
  · next init found =>
    have framed : Machine.Sealed { M with context := M.context.push (.at' shape.name shape.span) }
        block count := ⟨now.memory, now.units⟩
    have heeds :
        Machine.Heeds { M with context := M.context.push (.at' shape.name shape.span) } block count
        id.space (init.Below · ·) := ⟨framed, allows.known, now.memory.heeds allows (same ▸ found)⟩
    have value := (init.eval_respects respects heeds).last fun v _ now =>
      cast_respects now v shape.ty
    refine Respects.memory ?_
    split
    · exact Respects.inFrame (value.located shape.span)
    · exact .raise now

/-- **A cell that may be asked for gets its value**, and the block stays sealed. -/
theorem force_respects (now : M.Sealed block count) {id : CellId}
    (allows : M.memory.Allows block count id) :
    Respects block count (force s id) M fun _ _ => True := by
  unfold force
  refine Respects.memory ?_
  simp only
  split
  · exact .pure now trivial
  · exact .raise now
  · split
    · exact Respects.context (.raise now)
    · refine (modifyCell_respects now allows.early (·.later_evaluating true) fun _ =>
        ⟨rfl, rfl⟩).bind
        fun _ M₁ keeps₁ _ => ?_
      have allows₁ := allows.grows keeps₁.grows
      have same := (keeps₁.grows.cell id allows.known).shape
      refine (compute_respects respects keeps₁.sealed allows₁ same).attempt.last fun r M₂ now => ?_
      cases r with
      | ok v => exact settle_respects now allows.early v
      | error e => exact settleFailure_respects now allows.early e

/-- The arguments of a call get cells of a space of its own. -/
theorem bindParams_respects (apart : M.memory.Apart block space) (now : M.Sealed block count)
    (params : List (Ty × String)) (args : List Value) :
    Respects block count (bindParams s space params args) M fun _ _ => True := by
  refine .forM _ now fun ⟨⟨param, arg⟩, slot⟩ _ M' keeps => ?_
  refine (cast_respects keeps.sealed arg param.1).bind fun v M₁ keeps₁ _ => ?_
  exact bindSlot_respects respects (apart.grows (keeps.trans keeps₁).grows) keeps₁.sealed slot v

/-- **A call asks for no later cell**, whatever function is called: from its space no way leads
outwards. -/
theorem call_respects (now : M.Sealed block count) (id : FunctionId) (args : List Value) :
    Respects block count (call s id args) M fun _ _ => True := by
  unfold call
  refine Respects.memory ?_
  simp only
  split
  · exact .raise now
  · split
    · next body template closure region _ =>
      refine (callSpace_respects now template closure).bind fun inner M₁ keeps₁ made =>
        Respects.holding (P := fun _ _ => True) ?_ inner
      refine (bindParams_respects respects made.1 keeps₁.sealed _ _).bind fun _ M₂ keeps₂ _ => ?_
      have apart := made.1.grows keeps₂.grows
      have root : (M₂.memory.space inner).enclosing = none :=
        (keeps₂.grows.space inner made.1.known).enclosing.trans made.2
      have framed : Machine.Sealed { M₂ with context := M₂.context.push (.at' callLocation region) }
          block count := ⟨keeps₂.sealed.memory, keeps₂.sealed.units⟩
      exact Respects.inFrame ((body.eval_respects respects (framed.root apart root)).last
        fun v _ now => cast_respects now v _)
    · unfold forward
      split
      · exact .withBuffer now fun _ _ now => respects.call _ _ now
      · exact respects.call _ _ now

end Eval

/-- **Sealed blocks stay sealed while demands are met**, with any fuel. -/
theorem Supply.ofFuel_respects (block : SpaceId) (count fuel : Nat) :
    (Supply.ofFuel fuel).Respects block count := by
  induction fuel with
  | zero => exact ⟨fun now _ => .stop now, fun _ _ now => .stop now,
      fun v now early => Eval.bindCell_respects now early v, fun _ _ _ h => h⟩
  | succ fuel ih => exact ⟨fun now allows => Eval.force_respects ih now allows,
      fun id args now => Eval.call_respects ih now id args,
      fun v now early => Eval.bindCell_respects now early v, fun _ _ _ h => h⟩

end CellScript
