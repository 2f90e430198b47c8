import CellScript.Proofs.Eval.Demand
import CellScript.Proofs.Eval.Halts

/-!
# Operations that call no functions end

Where no function runs, a demand is always a demand for a cell, and a cell that is computed is one
that nobody had asked for. So fuel suffices that is more than the count of all cells in reach, and
of those that the blocks of an operation lay out anew each time. The induction is on the fuel, and
at each level on the operation.

* `Supply.Affordable` — demands for cells are met whenever the fuel suffices
* `Code.Op.eval_halts` — an operation ends if the fuel suffices for its size
* `Eval.force_halts`, `Supply.affordable` — so does the computation of a cell
-/

namespace CellScript

variable {static space : SpaceId} {M M' : Machine} {fuel work : Nat} {s : Supply}

/-- Demands for cells end if the fuel suffices for what can be reached from the cell. Nobody
watches. -/
structure Supply.Affordable (static : SpaceId) (fuel : Nat) (s : Supply) : Prop where
  force : ∀ {M : Machine} {id : CellId}, M.Affords static id.space 0 fuel → M.memory.HasCell id →
    Halts static (s (.force id)) M fun _ _ => True
  bind : ∀ id v, s.bind id v = Eval.bindCell id v
  watch : ∀ op space x, s.watch op space x = x

namespace Eval

/-! ## Finding cells -/

/-- A path leads from a static space to a cell in a static space. -/
theorem walk_halts (name : String) (path : List Nat) (tame : M.Tame static) (low : space < static) :
    Halts static (walk name space path) M fun id M' => M'.memory.HasCell id ∧
      id.space < static := by
  induction path generalizing space M with
  | nil => exact .raise tame
  | cons slot rest ih =>
    have first := cellIn_halts tame space slot
    cases rest with
    | nil =>
      exact first.mono fun id M' _ found => ⟨found.1, by rw [found.2]; exact low⟩
    | cons next rest =>
      rw [walk]
      refine first.bind fun id M₁ keeps₁ found => Halts.memory ?_
      simp only
      split
      · next members there => exact ih keeps₁.tame (keeps₁.tame.members id members there)
      · exact .raise keeps₁.tame
      · exact fun h => by cases h

theorem units_halts (tame : M.Tame static) : Halts static units M fun u _ => u < static := by
  refine Halts.context ?_
  split
  · next u there => exact .pure tame (tame.units u there)
  · exact .raise tame

/-- A reference leads to a cell that can be reached from the space. -/
theorem resolve_halts (tame : M.Tame static) {ref : Code.CellRef} (site : ref.site = none) :
    Halts static (resolve space ref) M
      fun id M' => M'.memory.HasCell id ∧ M'.memory.Around static space id.space := by
  have outward : ∀ depth slot, Halts static
      (do
        let outer ← ask (·.ancestor depth space)
        ask (·.cellIn outer slot)) M
      fun id M' => M'.memory.HasCell id ∧ M'.memory.Around static space id.space := by
    refine fun depth slot => .asked tame fun outer there => .ask tame fun id found => ?_
    obtain ⟨has, rfl⟩ := Memory.hasCell_of_cellIn found
    exact ⟨has, .inr ⟨depth, Memory.outward?_of_ancestor there⟩⟩
  unfold resolve
  split
  · exact .raise tame
  · exact (cellIn_halts tame space _).mono fun id _ _ found =>
      ⟨found.1, by rw [found.2]; exact .self⟩
  · exact outward 1 _
  · exact outward _ _
  · unfold absolute
    rw [site]
    refine (units_halts tame).bind fun u M₁ keeps₁ low => ?_
    exact (walk_halts ref.name _ keeps₁.tame low).mono fun id _ _ found => ⟨found.1, .inl found.2⟩

section Cells

variable (affordable : s.Affordable static fuel)

include affordable

/-- A cell that a reference leads to may be asked for. -/
theorem force_reached (h : M.Affords static space work fuel) {id : CellId}
    (has : M.memory.HasCell id) (place : M.memory.Around static space id.space) :
    Halts static (s (.force id)) M fun _ _ => True :=
  affordable.force ((h.less (Nat.zero_le _)).around has.1 place) has

theorem reference_halts (h : M.Affords static space work fuel) {ref : Code.CellRef}
    (site : ref.site = none) : Halts static (reference s space ref) M fun _ _ => True := by
  unfold reference
  split
  · refine Halts.memory ?_
    rw [h.tame.closure]
    exact .raise h.tame
  · exact (resolve_halts h.tame site).bind fun id M₁ keeps₁ found =>
      force_reached affordable (h.later keeps₁) found.1 found.2

theorem capture_halts (h : M.Affords static space work fuel) {plan : Code.CapturePlan}
    (site : plan.Siteless) : Halts static (capture s space plan) M fun _ _ => True := by
  cases plan with
  | propagate index =>
    refine Halts.memory ?_
    simp only [h.tame.closure]
    exact .raise h.tame
  | cell ref =>
    refine (resolve_halts h.tame site).bind fun id M₁ keeps₁ found => Halts.memory ?_
    simp only
    split
    · exact .pure keeps₁.tame trivial
    · split
      · exact .pure keeps₁.tame trivial
      · exact (force_reached affordable (h.later keeps₁) found.1 found.2).bind
          fun _ _ keeps₂ _ => .pure keeps₂.tame trivial

/-! ## Slots -/

theorem bindSlot_halts (tame : M.Tame static) (space : SpaceId) (slot : Nat) (v : Value) :
    Halts static (bindSlot s space slot v) M fun _ _ => True := by
  refine (cellIn_halts tame space slot).bind fun id M₁ keeps₁ found => ?_
  rw [affordable.bind]
  exact bindCell_halts keeps₁.tame found.1 v

theorem bindSlots_halts (tame : M.Tame static) (space : SpaceId) (bindings : Bindings) :
    Halts static (bindSlots s space bindings) M fun _ _ => True :=
  .forM bindings tame fun _ _ _ keeps => bindSlot_halts affordable keeps.tame space _ _

/-- A catch clause gets to know of the exception. -/
theorem bindCaught_halts (tame : M.Tame static) (error trace : Option Nat) (e : Exception)
    (block : SpaceId) : Halts static (bindCaught s error trace e block) M fun _ _ => True := by
  have receive : ∀ {M : Machine} (slot : Option Nat) (value : ObjectId → Value),
      M.Tame static → Halts static
        (slot.forM fun slot => do bindSlot s block slot (value (← create Memory.newObject))) M
        fun _ _ => True := by
    intro M slot value tame
    cases slot with
    | none => exact .pure tame trivial
    | some slot =>
      exact (newObject_halts tame).bind fun id M₁ keeps₁ _ =>
        bindSlot_halts affordable keeps₁.tame block slot _
  exact (receive error _ tame).bind fun _ M₁ keeps₁ _ => receive trace _ keeps₁.tame

end Cells

end Eval

namespace Code

open Eval

/-! ## Patterns -/

mutual

/-- Where no expression stands in a pattern, matching runs no function. -/
theorem Pattern.captures_halts : ∀ (p : Pattern) (subject : Value) {M : Machine}, M.Tame static →
    p.CallFree → Halts static (p.captures s space subject) M fun _ _ => True
  | ⟨shape, whole⟩, subject, _, tame, free => by
    rw [Pattern.captures]
    refine (Shape.captures_halts shape subject tame free).bind fun bindings M₁ keeps₁ _ => ?_
    cases bindings <;> exact .pure keeps₁.tame trivial

theorem Shape.captures_halts : ∀ (shape : Shape) (subject : Value) {M : Machine}, M.Tame static →
    shape.CallFree → Halts static (shape.captures s space subject) M fun _ _ => True
  | .expr _, _, _, _, free => free.elim
  | .any, _, _, tame, _ | .ofType _, _, _, tame, _ => .pure tame trivial
  | .list items, subject, _, tame, free => by
    cases subject with
    | list id values =>
      rw [Shape.captures]
      split
      · exact capturesOfAll_halts items values tame free
      · exact .pure tame trivial
    | _ => exact .pure tame trivial
  | .headTail head tail, subject, _, tame, free => by
    cases subject with
    | list id values =>
      rw [Shape.captures]
      split
      · exact .pure tame trivial
      · refine (capturesOfAll_halts head values tame free).bind fun bindings M₁ keeps₁ _ => ?_
        cases bindings with
        | none => exact .pure keeps₁.tame trivial
        | some bindings =>
          exact (bindList_halts keeps₁.tame tail _).bind fun _ _ keeps₂ _ =>
            .pure keeps₂.tame trivial
    | _ => exact .pure tame trivial
  | .initLast init last, subject, _, tame, free => by
    cases subject with
    | list id values =>
      rw [Shape.captures]
      split
      · exact .pure tame trivial
      · refine (capturesOfAll_halts last _ tame free).bind fun bindings M₁ keeps₁ _ => ?_
        cases bindings with
        | none => exact .pure keeps₁.tame trivial
        | some bindings =>
          exact (bindList_halts keeps₁.tame init _).bind fun _ _ keeps₂ _ =>
            .pure keeps₂.tame trivial
    | _ => exact .pure tame trivial
  | .middle head mid last, subject, _, tame, free => by
    cases subject with
    | list id values =>
      rw [Shape.captures]
      split
      · exact .pure tame trivial
      · refine (capturesOfAll_halts head values tame free.1).bind fun first M₁ keeps₁ _ => ?_
        cases first with
        | none => exact .pure keeps₁.tame trivial
        | some first =>
          refine (capturesOfAll_halts last _ keeps₁.tame free.2).bind fun second M₂ keeps₂ _ => ?_
          cases second with
          | none => exact .pure keeps₂.tame trivial
          | some second =>
            exact (bindList_halts keeps₂.tame mid _).bind fun _ _ keeps₃ _ =>
              .pure keeps₃.tame trivial
    | _ => exact .pure tame trivial
  | .dict entries, subject, _, tame, free => by
    cases subject with
    | dict id found =>
      rw [Shape.captures]
      split
      · exact capturesOfEntries_halts entries found tame free
      · exact .pure tame trivial
    | _ => exact .pure tame trivial
  | .openDict entries rest, subject, _, tame, free => by
    cases subject with
    | dict id found =>
      rw [Shape.captures]
      refine (capturesOfEntries_halts entries found tame free).bind fun bindings M₁ keeps₁ _ => ?_
      cases bindings with
      | none => exact .pure keeps₁.tame trivial
      | some bindings =>
        exact (bindDict_halts keeps₁.tame rest _).bind fun _ _ keeps₂ _ => .pure keeps₂.tame trivial
    | _ => exact .pure tame trivial

theorem capturesOfAll_halts : ∀ (ps : List Pattern) (values : List Value) {M : Machine},
    M.Tame static → patternsCallFree ps →
    Halts static (capturesOfAll s space values ps) M fun _ _ => True
  | [], _, _, tame, _ => .pure tame trivial
  | p :: rest, values, _, tame, free => by
    cases values with
    | nil => exact .pure tame trivial
    | cons v values =>
      rw [capturesOfAll]
      refine (Pattern.captures_halts p v tame free.1).bind fun first M₁ keeps₁ _ => ?_
      cases first with
      | none => exact .pure keeps₁.tame trivial
      | some first =>
        refine (capturesOfAll_halts rest values keeps₁.tame free.2).bind fun more M₂ keeps₂ _ => ?_
        cases more <;> exact .pure keeps₂.tame trivial

theorem capturesOfEntries_halts :
    ∀ (entries : List KeyPattern) (found : Entries Value) {M : Machine},
    M.Tame static → keyPatternsCallFree entries →
    Halts static (capturesOfEntries s space found entries) M fun _ _ => True
  | [], _, _, tame, _ => .pure tame trivial
  | ⟨key, p⟩ :: rest, found, _, tame, free => by
    rw [capturesOfEntries]
    cases found.get? key with
    | none => exact .pure tame trivial
    | some v =>
      refine (Pattern.captures_halts p v tame free.1).bind fun first M₁ keeps₁ _ => ?_
      cases first with
      | none => exact .pure keeps₁.tame trivial
      | some first =>
        refine (capturesOfEntries_halts rest found keeps₁.tame free.2).bind
          fun more M₂ keeps₂ _ => ?_
        cases more <;> exact .pure keeps₂.tame trivial

end

/-! ## Operations -/

section Eval

variable (affordable : s.Affordable static fuel)

include affordable

set_option linter.unusedSectionVars false

mutual

/-- **An operation that calls no function ends, if the fuel suffices for what it may ask for and for
its size.** -/
theorem Op.eval_halts : ∀ (op : Op) {space : SpaceId} {M : Machine}, op.CallFree →
    M.Affords static space (sizeOf op) fuel → Halts static (op.eval s space) M fun _ _ => True
  | ⟨span, action⟩, _, _, free, h => by
    rw [Op.mk.sizeOf_spec] at h
    rw [Op.eval, affordable.watch]
    exact (Action.eval_halts action free (h.less (by omega))).located span

theorem Action.eval_halts : ∀ (action : Action) {space : SpaceId} {M : Machine}, action.CallFree →
    M.Affords static space (sizeOf action) fuel →
    Halts static (action.eval s space) M fun _ _ => True
  | .constant v, _, _, _, h => .pure h.tame trivial
  | .fail fault, _, _, _, h => .raise h.tame
  | .reference ref _, _, _, free, h => reference_halts affordable h free
  | .list items, _, _, free, h => by
    rw [Action.list.sizeOf_spec] at h
    rw [Action.eval]
    exact (evalItems_halts items free (h.less (by omega))).bind
      fun vs _ keeps _ => newList_halts keeps.tame vs
  | .patchedList segments, _, _, free, h => by
    rw [Action.patchedList.sizeOf_spec] at h
    rw [Action.eval]
    exact (evalListSegments_halts segments free (h.less (by omega))).bind
      fun vs _ keeps _ => newList_halts keeps.tame vs
  | .dict entries, _, _, free, h => by
    rw [Action.dict.sizeOf_spec] at h
    rw [Action.eval]
    exact (evalEntries_halts entries [] free (h.less (by omega))).bind
      fun es _ keeps _ => newDict_halts keeps.tame es
  | .mergedDict segments, _, _, free, h => by
    rw [Action.mergedDict.sizeOf_spec] at h
    rw [Action.eval]
    exact (evalDictSegments_halts segments [] free (h.less (by omega))).bind
      fun es _ keeps _ => newDict_halts keeps.tame es
  | .function params returns body template captures region, _, _, free, h => by
    rw [Action.function.sizeOf_spec] at h
    rw [Action.eval]
    refine (evalDefaults_halts params free.1 (h.less (by omega))).bind
      fun defaults M₁ keeps₁ _ => ?_
    refine (Halts.mapM captures keeps₁.tame fun plan mem M' keeps' =>
      capture_halts affordable ((h.later keeps₁).later keeps') (free.2 plan mem)).bind
      fun captured M₂ keeps₂ _ => ?_
    exact (newClosure_halts keeps₂.tame captured).bind
      fun closure M₃ keeps₃ _ => newFunction_halts keeps₃.tame _
  | .call _ _, _, _, free, _ | .fixedCall _ _ _, _, _, free, _ => free.elim
  | .curry callee args, _, _, free, h => by
    rw [Action.curry.sizeOf_spec] at h
    rw [Action.eval]
    refine (Op.eval_halts callee free.1 (h.less (by omega))).bind fun v M₁ keeps₁ _ => ?_
    cases v with
    | function id signature =>
      exact (evalNamed_halts args free.2 ((h.later keeps₁).less (by omega))).bind
        fun vs _ keeps₂ _ => curry_halts keeps₂.tame id vs
    | _ => exact .raise keeps₁.tame
  | .letIn template body, _, _, free, h => by
    rw [Action.letIn.sizeOf_spec] at h
    rw [Action.eval]
    exact (child_halts h.tame h.known free.1).bind fun inner M₁ keeps₁ block =>
      (Op.eval_halts body free.2 ((h.later keeps₁).block block (by omega))).holding inner
  | .ifElse c t e, _, _, free, h => by
    rw [Action.ifElse.sizeOf_spec] at h
    rw [Action.eval]
    refine (Op.eval_halts c free.1 (h.less (by omega))).bind fun v M₁ keeps₁ _ => ?_
    split
    · exact Op.eval_halts t free.2.1 ((h.later keeps₁).less (by omega))
    · exact Op.eval_halts e free.2.2 ((h.later keeps₁).less (by omega))
  | .matchOn subject lines, _, _, free, h => by
    rw [Action.matchOn.sizeOf_spec] at h
    rw [Action.eval]
    exact (Op.eval_halts subject free.1 (h.less (by omega))).bind fun v M₁ keeps₁ _ =>
      evalLines_halts lines v free.2 ((h.later keeps₁).less (by omega))
  | .forEach template heads body, _, _, free, h => by
    rw [Action.forEach.sizeOf_spec] at h
    rw [Action.eval]
    refine (child_halts h.tame h.known free.1).bind fun block M₁ keeps₁ laid => ?_
    have values := (runHeads_halts heads free.2.1 (fun h' => Op.eval_halts body free.2.2 h')
      ((h.later keeps₁).less (by omega)) laid).bind fun vs M₂ keeps₂ _ =>
        newList_halts keeps₂.tame vs
    exact values.holding block
  | .binary op mode l r, _, _, free, h => by
    rw [Action.binary.sizeOf_spec] at h
    have left := Op.eval_halts l free.1 (h.less (by omega))
    have right : ∀ {M' : Machine}, Machine.Keeps static _ M' → _ := fun {M'} keeps =>
      Op.eval_halts r free.2 ((h.later keeps).less (by omega))
    cases op with
    | and | or =>
      rw [Action.eval]
      refine left.bind fun v M₁ keeps₁ _ => ?_
      split
      all_goals first
        | exact .pure keeps₁.tame trivial
        | exact (right keeps₁).bind fun w _ keeps₂ _ => .pure keeps₂.tame trivial
    | _ =>
      simp only [Action.eval]
      exact left.bind fun v M₁ keeps₁ _ => (right keeps₁).bind
        fun w M₂ keeps₂ _ => .outcome keeps₂.tame
  | .unary op e, _, _, free, h => by
    rw [Action.unary.sizeOf_spec] at h
    rw [Action.eval]
    exact (Op.eval_halts e free (h.less (by omega))).bind fun v _ keeps _ => .outcome keeps.tame
  | .cast e ty, _, _, free, h => by
    rw [Action.cast.sizeOf_spec] at h
    rw [Action.eval]
    exact (Op.eval_halts e free (h.less (by omega))).bind fun v _ keeps _ =>
      cast_halts keeps.tame v ty
  | .isOf e ty, _, _, free, h => by
    rw [Action.isOf.sizeOf_spec] at h
    rw [Action.eval]
    exact (Op.eval_halts e free (h.less (by omega))).bind fun v _ keeps _ =>
      .pure keeps.tame trivial
  | .access container keys, _, _, free, h => by
    rw [Action.access.sizeOf_spec] at h
    rw [Action.eval]
    refine (Op.eval_halts container free.1 (h.less (by omega))).bind fun v M₁ keeps₁ _ => ?_
    exact (evalOps_halts keys free.2 ((h.later keeps₁).less (by omega))).bind
      fun vs _ keeps₂ _ => .outcome keeps₂.tame
  | .keyAccess container key, _, _, free, h => by
    rw [Action.keyAccess.sizeOf_spec] at h
    rw [Action.eval]
    exact (Op.eval_halts container free (h.less (by omega))).bind fun v _ keeps _ =>
      .outcome keeps.tame
  | .tryCatch body template error trace handler, _, _, free, h => by
    rw [Action.tryCatch.sizeOf_spec] at h
    rw [Action.eval]
    refine (Op.eval_halts body free.1 (h.less (by omega))).attempt.bind fun r M₁ keeps₁ _ => ?_
    cases r with
    | ok v => exact .pure keeps₁.tame trivial
    | error e =>
      have h₁ := h.later keeps₁
      refine (child_halts h₁.tame h₁.known free.2.1).bind
        fun inner M₂ keeps₂ block => Halts.holding (P := fun _ _ => True) ?_ inner
      refine (bindCaught_halts affordable keeps₂.tame error trace e inner).bind
        fun _ M₃ keeps₃ _ => ?_
      exact Op.eval_halts handler free.2.2
        (((h₁.later keeps₂).later keeps₃).block (block.grows keeps₃.grows) (by omega))
  | .throw e, _, _, free, h => by
    rw [Action.throw.sizeOf_spec] at h
    rw [Action.eval]
    exact (Op.eval_halts e free (h.less (by omega))).bind fun v _ keeps _ =>
      Halts.context (.raise keeps.tame)

theorem evalOps_halts : ∀ (ops : List Op) {space : SpaceId} {M : Machine}, opsCallFree ops →
    M.Affords static space (sizeOf ops) fuel → Halts static (evalOps s space ops) M fun _ _ => True
  | [], _, _, _, h => .pure h.tame trivial
  | op :: rest, _, _, free, h => by
    rw [List.cons.sizeOf_spec] at h
    rw [evalOps]
    refine (Op.eval_halts op free.1 (h.less (by omega))).bind fun v M₁ keeps₁ _ => ?_
    exact (evalOps_halts rest free.2 ((h.later keeps₁).less (by omega))).bind
      fun _ _ keeps₂ _ => .pure keeps₂.tame trivial

theorem evalItems_halts : ∀ (items : List Item) {space : SpaceId} {M : Machine},
    itemsCallFree items → M.Affords static space (sizeOf items) fuel →
    Halts static (evalItems s space items) M fun _ _ => True
  | [], _, _, _, h => .pure h.tame trivial
  | .value op :: rest, _, _, free, h => by
    rw [List.cons.sizeOf_spec, Item.value.sizeOf_spec] at h
    rw [evalItems]
    refine (Op.eval_halts op free.1 (h.less (by omega))).bind fun v M₁ keeps₁ _ => ?_
    exact (evalItems_halts rest free.2 ((h.later keeps₁).less (by omega))).bind
      fun _ _ keeps₂ _ => .pure keeps₂.tame trivial
  | .splat op :: rest, _, _, free, h => by
    rw [List.cons.sizeOf_spec, Item.splat.sizeOf_spec] at h
    rw [evalItems]
    refine (Op.eval_halts op free.1 (h.less (by omega))).bind fun v M₁ keeps₁ _ => ?_
    refine (Halts.outcome keeps₁.tame).bind fun vs M₂ keeps₂ _ => ?_
    exact (evalItems_halts rest free.2 (((h.later keeps₁).later keeps₂).less (by omega))).bind
      fun _ _ keeps₃ _ => .pure keeps₃.tame trivial

theorem evalListSegments_halts : ∀ (segments : List ListSegment) {space : SpaceId} {M : Machine},
    listSegmentsCallFree segments → M.Affords static space (sizeOf segments) fuel →
    Halts static (evalListSegments s space segments) M fun _ _ => True
  | [], _, _, _, h => .pure h.tame trivial
  | .constant run :: rest, _, _, free, h => by
    rw [List.cons.sizeOf_spec] at h
    rw [evalListSegments]
    exact (evalListSegments_halts rest free (h.less (by omega))).bind
      fun _ _ keeps _ => .pure keeps.tame trivial
  | .value op :: rest, _, _, free, h => by
    rw [List.cons.sizeOf_spec, ListSegment.value.sizeOf_spec] at h
    rw [evalListSegments]
    refine (Op.eval_halts op free.1 (h.less (by omega))).bind fun v M₁ keeps₁ _ => ?_
    exact (evalListSegments_halts rest free.2 ((h.later keeps₁).less (by omega))).bind
      fun _ _ keeps₂ _ => .pure keeps₂.tame trivial
  | .splat op :: rest, _, _, free, h => by
    rw [List.cons.sizeOf_spec, ListSegment.splat.sizeOf_spec] at h
    rw [evalListSegments]
    refine (Op.eval_halts op free.1 (h.less (by omega))).bind fun v M₁ keeps₁ _ => ?_
    refine (Halts.outcome keeps₁.tame).bind fun vs M₂ keeps₂ _ => ?_
    exact (evalListSegments_halts rest free.2 (((h.later keeps₁).later keeps₂).less
      (by omega))).bind
      fun _ _ keeps₃ _ => .pure keeps₃.tame trivial

theorem evalEntries_halts : ∀ (entries : List Entry) (found : Entries Value) {space : SpaceId}
    {M : Machine}, entriesCallFree entries → M.Affords static space (sizeOf entries) fuel →
    Halts static (evalEntries s space found entries) M fun _ _ => True
  | [], _, _, _, _, h => .pure h.tame trivial
  | .pair k v :: rest, _, _, _, free, h => by
    rw [List.cons.sizeOf_spec, Entry.pair.sizeOf_spec] at h
    rw [evalEntries]
    refine (Op.eval_halts k free.1 (h.less (by omega))).bind fun key M₁ keeps₁ _ => ?_
    refine (Halts.outcome keeps₁.tame).bind fun key M₂ keeps₂ _ => ?_
    have h₂ := (h.later keeps₁).later keeps₂
    refine (Op.eval_halts v free.2.1 (h₂.less (by omega))).bind fun value M₃ keeps₃ _ => ?_
    exact evalEntries_halts rest _ free.2.2 ((h₂.later keeps₃).less (by omega))
  | .splat op :: rest, _, _, _, free, h => by
    rw [List.cons.sizeOf_spec, Entry.splat.sizeOf_spec] at h
    rw [evalEntries]
    refine (Op.eval_halts op free.1 (h.less (by omega))).bind fun v M₁ keeps₁ _ => ?_
    refine (Halts.outcome keeps₁.tame).bind fun more M₂ keeps₂ _ => ?_
    exact evalEntries_halts rest _ free.2 (((h.later keeps₁).later keeps₂).less (by omega))

theorem evalDictSegments_halts : ∀ (segments : List DictSegment) (found : Entries Value)
    {space : SpaceId} {M : Machine}, dictSegmentsCallFree segments →
    M.Affords static space (sizeOf segments) fuel →
    Halts static (evalDictSegments s space found segments) M fun _ _ => True
  | [], _, _, _, _, h => .pure h.tame trivial
  | .constant run :: rest, _, _, _, free, h => by
    rw [List.cons.sizeOf_spec] at h
    rw [evalDictSegments]
    exact evalDictSegments_halts rest _ free (h.less (by omega))
  | .pair key v :: rest, _, _, _, free, h => by
    rw [List.cons.sizeOf_spec, DictSegment.pair.sizeOf_spec] at h
    rw [evalDictSegments]
    refine (Op.eval_halts v free.1 (h.less (by omega))).bind fun value M₁ keeps₁ _ => ?_
    exact evalDictSegments_halts rest _ free.2 ((h.later keeps₁).less (by omega))
  | .dynamic k v :: rest, _, _, _, free, h => by
    rw [List.cons.sizeOf_spec, DictSegment.dynamic.sizeOf_spec] at h
    rw [evalDictSegments]
    refine (Op.eval_halts k free.1 (h.less (by omega))).bind fun key M₁ keeps₁ _ => ?_
    refine (Halts.outcome keeps₁.tame).bind fun key M₂ keeps₂ _ => ?_
    have h₂ := (h.later keeps₁).later keeps₂
    refine (Op.eval_halts v free.2.1 (h₂.less (by omega))).bind fun value M₃ keeps₃ _ => ?_
    exact evalDictSegments_halts rest _ free.2.2 ((h₂.later keeps₃).less (by omega))
  | .splat op :: rest, _, _, _, free, h => by
    rw [List.cons.sizeOf_spec, DictSegment.splat.sizeOf_spec] at h
    rw [evalDictSegments]
    refine (Op.eval_halts op free.1 (h.less (by omega))).bind fun v M₁ keeps₁ _ => ?_
    refine (Halts.outcome keeps₁.tame).bind fun more M₂ keeps₂ _ => ?_
    exact evalDictSegments_halts rest _ free.2 (((h.later keeps₁).later keeps₂).less (by omega))

theorem evalDefaults_halts : ∀ (params : List Param) {space : SpaceId} {M : Machine},
    paramsCallFree params → M.Affords static space (sizeOf params) fuel →
    Halts static (evalDefaults s space params) M fun _ _ => True
  | [], _, _, _, h => .pure h.tame trivial
  | ⟨_, _, none⟩ :: rest, _, _, free, h => by
    rw [List.cons.sizeOf_spec] at h
    rw [evalDefaults]
    exact (evalDefaults_halts rest free.2 (h.less (by omega))).bind
      fun _ _ keeps _ => .pure keeps.tame trivial
  | ⟨_, ty, some op⟩ :: rest, _, _, free, h => by
    rw [List.cons.sizeOf_spec, Param.mk.sizeOf_spec, Option.some.sizeOf_spec] at h
    rw [evalDefaults]
    refine (Op.eval_halts op free.1 (h.less (by omega))).bind fun v M₁ keeps₁ _ => ?_
    refine (cast_halts keeps₁.tame v ty).bind fun w M₂ keeps₂ _ => ?_
    exact (evalDefaults_halts rest free.2 (((h.later keeps₁).later keeps₂).less (by omega))).bind
      fun _ _ keeps₃ _ => .pure keeps₃.tame trivial

theorem evalNamed_halts : ∀ (args : List Named) {space : SpaceId} {M : Machine},
    namedCallFree args → M.Affords static space (sizeOf args) fuel →
    Halts static (evalNamed s space args) M fun _ _ => True
  | [], _, _, _, h => .pure h.tame trivial
  | ⟨_, op⟩ :: rest, _, _, free, h => by
    rw [List.cons.sizeOf_spec, Named.mk.sizeOf_spec] at h
    rw [evalNamed]
    refine (Op.eval_halts op free.1 (h.less (by omega))).bind fun v M₁ keeps₁ _ => ?_
    exact (evalNamed_halts rest free.2 ((h.later keeps₁).less (by omega))).bind
      fun _ _ keeps₂ _ => .pure keeps₂.tame trivial

theorem accepts_halts : ∀ (guard : Option Op) {space : SpaceId} {M : Machine},
    optionCallFree guard → M.Affords static space (sizeOf guard) fuel →
      Halts static (accepts s space guard) M fun _ _ => True
  | none, _, _, _, h => .pure h.tame trivial
  | some op, _, _, free, h => by
    rw [Option.some.sizeOf_spec] at h
    rw [accepts]
    exact (Op.eval_halts op free (h.less (by omega))).bind fun _ _ keeps _ =>
      .pure keeps.tame trivial

theorem evalLines_halts : ∀ (lines : List Line) (subject : Value) {space : SpaceId} {M : Machine},
    linesCallFree lines → M.Affords static space (sizeOf lines) fuel →
    Halts static (evalLines s space subject lines) M fun _ _ => True
  | [], _, _, _, _, h => .pure h.tame trivial
  | ⟨pattern, template, guard, result⟩ :: rest, subject, space, _, free, h => by
    rw [List.cons.sizeOf_spec, Line.mk.sizeOf_spec] at h
    obtain ⟨⟨inPattern, inTemplate, inGuard, inResult⟩, inRest⟩ := free
    rw [evalLines]
    refine (Pattern.captures_halts pattern subject h.tame inPattern).bind
      fun bindings M₁ keeps₁ _ => ?_
    have h₁ := h.later keeps₁
    cases bindings with
    | none => exact evalLines_halts rest subject inRest (h₁.less (by omega))
    | some bindings =>
      have tried : Halts static (within (·.child template space) fun clause => do
          bindSlots s clause bindings
          if ← accepts s clause guard then return some (← result.eval s clause)
          else return none) M₁ fun _ _ => True := by
        refine (child_halts h₁.tame h₁.known inTemplate).bind
          fun clause M₂ keeps₂ block => Halts.holding (P := fun _ _ => True) ?_ clause
        refine (bindSlots_halts affordable keeps₂.tame clause bindings).bind fun _ M₃ keeps₃ _ => ?_
        have h₃ := (h₁.later keeps₂).later keeps₃
        have block₃ := block.grows keeps₃.grows
        refine (accepts_halts guard inGuard (h₃.block block₃ (by omega))).bind
          fun holds M₄ keeps₄ _ => ?_
        split
        · exact (Op.eval_halts result inResult
            ((h₃.later keeps₄).block (block₃.grows keeps₄.grows) (by omega))).bind
            fun v _ keeps _ => .pure keeps.tame trivial
        · exact .pure keeps₄.tame trivial
      refine tried.bind fun value M₂ keeps₂ _ => ?_
      cases value with
      | some v => exact .pure keeps₂.tame trivial
      | none => exact evalLines_halts rest subject inRest ((h₁.later keeps₂).less (by omega))

/-- Each copy of the block is laid out from the template again, so that the count of the cells of a
copy does not depend on what has become of the others. -/
theorem runHeads_halts : ∀ (heads : List Head) {t : Template} {body : SpaceId → Eval Value}
    {work : Nat} {space block : SpaceId} {M : Machine}, headsCallFree heads →
    (∀ {inner : SpaceId} {M : Machine}, M.Affords static inner work fuel →
      Halts static (body inner) M fun _ _ => True) →
    M.Affords static space (sizeOf t + sizeOf heads + work) fuel → M.memory.BlockOf t space block →
    Halts static (runHeads s body block heads) M fun _ _ => True
  | [], _, _, _, _, _, _, _, inBody, h, laid => by
    rw [runHeads]
    exact (inBody (h.block laid (by omega))).bind fun _ _ keeps _ => .pure keeps.tame trivial
  | .generator slot ty source :: rest, _, _, _, _, _, _, free, inBody, h, laid => by
    rw [List.cons.sizeOf_spec, Head.generator.sizeOf_spec] at h
    rw [runHeads]
    refine (Op.eval_halts source free.1 (h.block laid (by omega))).bind fun v M₁ keeps₁ _ => ?_
    refine (Halts.outcome keeps₁.tame).bind fun items M₂ keeps₂ _ => ?_
    refine (Halts.mapM items keeps₂.tame fun item _ M₃ keeps₃ => ?_).bind
      fun values M₄ keeps₄ _ => .pure keeps₄.tame trivial
    have laid₃ := ((laid.grows keeps₁.grows).grows keeps₂.grows).grows keeps₃.grows
    have h₃ := ((h.later keeps₁).later keeps₂).later keeps₃
    refine (fork_halts keeps₃.tame laid₃).bind
      fun iteration M₄ keeps₄ again => Halts.holding (P := fun _ _ => True) ?_ iteration
    refine (cellIn_halts keeps₄.tame iteration slot).bind fun id M₅ keeps₅ found => ?_
    refine (cast_halts keeps₅.tame item ty).bind fun w M₆ keeps₆ _ => ?_
    rw [affordable.bind]
    refine (bindCell_halts keeps₆.tame (found.1.grows keeps₆.grows) w).bind fun _ M₇ keeps₇ _ => ?_
    have since := (keeps₅.trans keeps₆).trans keeps₇
    exact runHeads_halts rest free.2 inBody (((h₃.later keeps₄).later since).less (by omega))
      (again.grows since.grows)
  | .definition slot :: rest, _, _, _, _, _, _, free, inBody, h, laid => by
    rw [List.cons.sizeOf_spec] at h
    rw [runHeads]
    refine (cellIn_halts h.tame _ slot).bind fun id M₁ keeps₁ found => ?_
    have laid₁ := laid.grows keeps₁.grows
    have h₁ := h.later keeps₁
    have enough : M₁.Affords static _ 0 fuel := h₁.block laid₁ (by omega)
    refine (force_reached affordable enough found.1 (by rw [found.2]; exact .self)).bind
      fun v M₂ keeps₂ _ => ?_
    exact runHeads_halts rest free inBody ((h₁.later keeps₂).less (by omega))
      (laid₁.grows keeps₂.grows)
  | .condition op :: rest, _, _, _, _, _, _, free, inBody, h, laid => by
    rw [List.cons.sizeOf_spec, Head.condition.sizeOf_spec] at h
    rw [runHeads]
    refine (Op.eval_halts op free.1 (h.block laid (by omega))).bind fun v M₁ keeps₁ _ => ?_
    split
    · exact runHeads_halts rest free.2 inBody ((h.later keeps₁).less (by omega))
        (laid.grows keeps₁.grows)
    · exact .pure keeps₁.tame trivial

end

end Eval

end Code

/-! ## Cells -/

namespace Eval

/-- The second machine is a later one in which the cell is no longer being computed. -/
structure Ended (static : SpaceId) (M : Machine) (id : CellId) (M' : Machine) : Prop where
  tame : M'.Tame static
  grows : M.memory.Grows M'.memory
  units : M'.context.units = M.context.units
  evaluating : ∀ other, (M'.memory.cell other).evaluating =
    if other = id then false else (M.memory.cell other).evaluating

theorem Ended.keeps {id : CellId} {M'' : Machine} (h : Ended static M id M')
    (keeps : M'.Keeps static M'') : Ended static M id M'' :=
  ⟨keeps.tame, h.grows.trans keeps.grows, keeps.units.trans h.units,
    fun other => (keeps.evaluating other).trans (h.evaluating other)⟩

theorem unmark_ended (tame : M.Tame static) {id : CellId} (has : M.memory.HasCell id) :
    Ended static M id
      { M with memory := M.memory.modifyCell id fun c => { c with evaluating := false } } := by
  refine ⟨tame.modifyCell has rfl (tame.members id),
    Memory.grows_modifyCell has ⟨rfl, fun _ h => h, fun _ h => h, fun _ h => h⟩, rfl,
      fun other => ?_⟩
  show ((M.memory.modifyCell id _).cell other).evaluating = _
  rw [Memory.cell_modifyCell has]
  split <;> rfl

/-- A cell that has computed a value keeps it. -/
theorem settle_ended (tame : M.Tame static) {id : CellId} (has : M.memory.HasCell id) (v : Value) :
    ∃ kept M', settle id v M = .ok kept M' ∧ Ended static M id M' := by
  have first := unmark_ended tame has
  obtain ⟨m, hm⟩ : ∃ m, m = M.memory.modifyCell id fun c => { c with evaluating := false } :=
    ⟨_, rfl⟩
  have ran : settle id v M = .ok (((m.bind id v).cell id).value.getD v)
      ⟨(M.context.waitingFor id).foldl
        (fun m' d => m'.fill d.closure d.index (((m.bind id v).cell id).value.getD v))
        (m.bind id v), M.context.release id⟩ := by
    rw [hm]
    rfl
  rw [← hm] at first
  have second := first.tame.keeps_modifyCell (has.grows first.grows) (f := fun c => c.withValue v)
    ⟨rfl, fun _ h => h, fun w hw => by rw [Cell.value_withValue, hw]; rfl, fun _ h => h⟩ rfl rfl
  obtain ⟨same, grows⟩ := Memory.fillAll_spaces (M.context.waitingFor id)
    (((m.bind id v).cell id).value.getD v) (m.bind id v)
  exact ⟨_, _, ran, first.keeps (second.trans (second.tame.keeps_of_spaces same grows rfl))⟩

/-- A cell whose computation has failed keeps the exception. -/
theorem settleFailure_ended (tame : M.Tame static) {id : CellId} (has : M.memory.HasCell id)
    (e : Exception) :
    ∃ kept M', settleFailure id e M = .error (.raised kept) M' ∧ Ended static M id M' := by
  have first := unmark_ended tame has
  obtain ⟨m, hm⟩ : ∃ m, m = M.memory.modifyCell id fun c => { c with evaluating := false } :=
    ⟨_, rfl⟩
  have ran : settleFailure id e M = .error
      (.raised ((((m.modifyCell id fun c => c.withFailure e).cell id).failure).getD e))
      ⟨m.modifyCell id fun c => c.withFailure e, M.context.release id⟩ := by
    rw [hm]
    rfl
  rw [← hm] at first
  have kept : ∀ f, (m.cell id).failure = some f → ((m.cell id).withFailure e).failure = some f :=
    fun f hf => by rw [Cell.withFailure_of_failure hf, hf]
  have second := first.tame.keeps_modifyCell (has.grows first.grows) (f := fun c => c.withFailure e)
    ⟨rfl, fun _ h => h, fun _ h => h, kept⟩ rfl rfl
  exact ⟨_, _, ran, first.keeps (second.trans (second.tame.keeps_of_spaces rfl (.refl _) rfl))⟩

/-- While a cell is computed that nobody had asked for, it is not counted, and the fuel of the level
below suffices for its computation. -/
theorem affords_marked {id : CellId} {op : Code.Op} (h : M.Affords static id.space 0 (fuel + 1))
    (has : M.memory.HasCell id) (blank : (M.memory.cell id).isBlank = true)
    (init : (M.memory.cell id).shape.init = some op) :
    (marked M id).Affords static id.space (sizeOf op) fuel := by
  have tame : (marked M id).Tame static := h.tame.modifyCell has rfl (h.tame.members id)
  have grows := Memory.grows_modifyCell has (f := fun c : Cell => { c with evaluating := true })
    ⟨rfl, fun _ h => h, fun _ h => h, fun _ h => h⟩
  obtain ⟨cells, sees, enough⟩ := h.budget
  refine ⟨tame, (has.grows grows).1, cells, sees.grows grows h.tame.inside h.tame.low h.known, ?_⟩
  have falls := Memory.load_modifyCell (f := fun c : Cell => { c with evaluating := true }) has
    (sees.all id has .self) (by simp [Cell.load, Cell.isBlank])
  have count : (M.memory.cell id).load = 1 + (1 + sizeOf op) := by
    rw [Cell.load, blank, init, if_pos rfl, Option.some.sizeOf_spec]
  change (M.memory.modifyCell id fun c => { c with evaluating := true }).load cells +
    sizeOf op < fuel
  omega

/-- A cell that nobody had asked for is computed in its space. -/
theorem compute_halts (affordable : s.Affordable static fuel) {id : CellId}
    (h : M.Affords static id.space 0 (fuel + 1)) (has : M.memory.HasCell id)
    (blank : (M.memory.cell id).isBlank = true) :
    Halts static (compute s id (M.memory.cell id).shape) (marked M id) fun _ _ => True := by
  have tame : (marked M id).Tame static := h.tame.modifyCell has rfl (h.tame.members id)
  unfold compute
  cases hi : (M.memory.cell id).shape.init with
  | none => exact .pure tame trivial
  | some init =>
    have free := h.tame.inits id
    rw [hi] at free
    have evaluated := Code.Op.eval_halts affordable init free
      ((affords_marked h has blank hi).push (.at' (M.memory.cell id).shape.name
        (M.memory.cell id).shape.span))
    refine Halts.memory ?_
    split
    · exact .inFrame (.located (evaluated.bind fun v _ keeps _ => cast_halts keeps.tame v _) _)
    · exact .raise tame

/-- **The computation of a cell ends**, if the level below meets what it asks for. -/
theorem force_halts (affordable : s.Affordable static fuel) {id : CellId}
    (h : M.Affords static id.space 0 (fuel + 1)) (has : M.memory.HasCell id) :
    Halts static (force s id) M fun _ _ => True := by
  cases hv : (M.memory.cell id).value with
  | some v => exact .inl ⟨v, M, force_of_value hv, h.tame.keeps, trivial⟩
  | none =>
  cases hf : (M.memory.cell id).failure with
  | some e => exact .inr ⟨e, M, force_of_failure hv hf, h.tame.keeps⟩
  | none =>
  cases busy : (M.memory.cell id).evaluating with
  | true =>
    refine Halts.memory ?_
    simp only [hv, hf, busy, if_true]
    exact Halts.context (.raise h.tame)
  | false =>
  have marks := Memory.grows_modifyCell has (f := fun c : Cell => { c with evaluating := true })
    ⟨rfl, fun _ h => h, fun _ h => h, fun _ h => h⟩
  have evaluating₁ : ∀ other, ((marked M id).memory.cell other).evaluating =
      if other = id then true else (M.memory.cell other).evaluating := by
    intro other
    rw [marked, Memory.cell_modifyCell has]
    split <;> rfl
  have blank : (M.memory.cell id).isBlank = true := by
    rw [Cell.isBlank, hv, hf, busy]
    rfl
  -- Between the beginning and the end of the computation, the cell is the only one to be marked.
  have ends : ∀ {M₂ M₃ : Machine}, (marked M id).Keeps static M₂ → Ended static M₂ id M₃ →
      M.Keeps static M₃ := by
    intro M₂ M₃ keeps ended
    refine ⟨ended.tame, (marks.trans keeps.grows).trans ended.grows, ended.units.trans keeps.units,
      fun other => ?_⟩
    rw [ended.evaluating, keeps.evaluating, evaluating₁]
    split
    · next he => rw [he, busy]
    · rfl
  have started := force_of_blank (s := s) hv ⟨busy, hf⟩
  obtain ⟨r, M₂, ran, keeps⟩ := (compute_halts affordable h has blank).attempted
  have has₂ := (has.grows marks).grows keeps.grows
  rw [bind_of_ok ran] at started
  cases r with
  | ok v =>
    obtain ⟨kept, M₃, settled, ended⟩ := settle_ended keeps.tame has₂ v
    exact .inl ⟨kept, M₃, started.trans settled, ends keeps ended, trivial⟩
  | error e =>
    obtain ⟨kept, M₃, settled, ended⟩ := settleFailure_ended keeps.tame has₂ e
    exact .inr ⟨kept, M₃, started.trans settled, ends keeps ended⟩

end Eval

/-- **With any fuel, the demands for cells end for which it suffices.** -/
theorem Supply.affordable (static : SpaceId) (fuel : Nat) :
    (Supply.ofFuel fuel).Affordable static fuel := by
  induction fuel with
  | zero =>
    refine ⟨fun h _ => ?_, fun _ _ => rfl, fun _ _ _ => rfl⟩
    obtain ⟨cells, -, enough⟩ := h.budget
    exact absurd enough (Nat.not_lt_zero _)
  | succ fuel ih =>
    exact ⟨fun h has => Eval.force_halts ih h has, fun _ _ => rfl, fun _ _ _ => rfl⟩

end CellScript
