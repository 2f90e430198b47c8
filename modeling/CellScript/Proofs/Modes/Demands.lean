import CellScript.Proofs.Modes.Operations

/-!
# Demands in two sessions

Cells are computed side by side, and calls are made side by side. A limit on how deep demands may
nest is reached by both sessions or by neither, since what folding has computed in advance demands
nothing.

* `Supply.Follows.force` — both sessions have a value for a cell, or the same reason for not having
  one
* `Supply.Follows.callFunction` — functions that are linked give alike results
* `Supply.ofFuel_follows` — demands are met alike, with any fuel
-/

namespace CellScript

open Code Eval

variable {static : Memory} {L : Links}

namespace Supply.Follows

variable {S T : Supply} (h : S.Follows static T)

/-! ## Cells -/

section Settle

omit h

/-- What waits for a cell waits for it on both sides. -/
theorem waitingFor {c d : Context} (now : Context.Follows L c d) (cell : CellId) :
    List.Forall₂ (Deferral.Follows L) (c.waitingFor cell) (d.waitingFor cell) :=
  List.rel_filter (fun _ _ same => iff_of_eq (congrArg (fun id => (id == cell) = true) same.cell))
    now.deferred

theorem release (cell : CellId) :
    Eval.Follows static L (fun _ _ _ => True) (modifyContext (·.release cell))
      (modifyContext (·.release cell)) :=
  .modifyContext fun _ _ now => { now with
    deferred := List.rel_filter
      (fun _ _ same => iff_of_eq (congrArg (fun id => (id != cell) = true) same.cell))
      now.deferred }

/-- Nobody computes the cell any more, or somebody does. -/
theorem evaluating (id : CellId) (busy : Bool) :
    Eval.Follows static L (fun _ _ _ => True)
      (modifyMemory (·.modifyCell id fun c => { c with evaluating := busy }))
      (modifyMemory (·.modifyCell id fun c => { c with evaluating := busy })) :=
  .modifyMemory fun _ _ now => now.modifyCell id fun _ _ c => { c with evaluating := rfl }

/-- The value is kept, and filled in at all that waited for it. -/
theorem settle (id : CellId) {v w : Value} (same : L.values v w) :
    Eval.Follows static L Links.values (settle id v) (settle id w) := by
  refine (evaluating id false).bind fun L₁ _ _ le _ => ?_
  refine (Eval.Follows.modifyMemory fun m n now => now.bind id (same.links le)).bind
    fun L₂ _ _ le' _ => ?_
  refine .memory fun m n now => .context fun c d now' => ?_
  have kept : L₂.values ((m.cell id).value.getD v) ((n.cell id).value.getD w) :=
    optionRel_getD (now.cell id).value (same.links (le.trans le'))
  refine (Eval.Follows.modifyMemory fun m n now => ?_).bind fun L₃ _ _ le'' _ =>
    (release id).bind fun L₄ _ _ le₃ _ => .pure (kept.links (le''.trans le₃))
  have waiting := waitingFor now' id
  generalize c.waitingFor id = ds at waiting
  generalize d.waitingFor id = es at waiting
  induction waiting generalizing m n with
  | nil => exact now
  | cons first _ ih =>
    rw [List.foldl_cons, List.foldl_cons, first.index]
    exact ih _ _ (now.fill first.closure _ kept)

/-- The exception is kept. -/
theorem settleFailure (id : CellId) {e e' : Exception} (same : Exception.Follows L e e') :
    Eval.Follows static L Links.values (settleFailure id e) (settleFailure id e') := by
  refine (evaluating id false).bind fun L₁ _ _ le _ => ?_
  refine (Eval.Follows.modifyMemory fun m n now => now.modifyCell id fun c d follows => ?_).bind
    fun L₂ _ _ le' _ => (release id).bind fun L₃ _ _ le'' _ => .memory fun m n now => .raise ?_
  · refine { follows with failure := ?_ }
    show Option.Rel _ (c.failure.or _) (d.failure.or _)
    have failure := follows.failure
    generalize c.failure = x at failure ⊢
    generalize d.failure = y at failure ⊢
    cases failure with
    | some known => exact .some known
    | none => exact .some (same.links le)
  · exact optionRel_getD (now.cell id).failure (same.links ((le.trans le').trans le''))

end Settle

include h

theorem compute (id : CellId) {s s' : Slot} (becomes : Slot.Becomes static s s') :
    Eval.Follows static L Links.values (compute S id s) (compute T id s') := by
  rw [Eval.compute, Eval.compute]
  have init := becomes.init
  rw [becomes.name, becomes.span, becomes.ty]
  generalize s.init = x at init
  generalize s'.init = y at init
  cases init with
  | none => exact .pure (.scalar trivial)
  | some init =>
    refine .memory fun m n now => ?_
    rw [now.held]
    split
    · exact (((init.follows h id.space).bind fun _ _ _ _ same => cast_follows same s'.ty).located
        s'.span).inFrame _
    · refine .raise (.refl ?_)
      rw [Exception.outlivedSpace, Exception.at', Exception.orSpan]
      split <;> rfl

/-- **Cells are computed side by side.** -/
theorem forceCell (id : CellId) :
    Eval.Follows static L Links.values (Eval.force S id) (Eval.force T id) := by
  refine .memory fun m n now => ?_
  have cell := now.cell id
  have value := cell.value
  have failure := cell.failure
  simp only
  generalize (m.cell id).value = x at value
  generalize (n.cell id).value = y at value
  cases value with
  | some same => exact .pure same
  | none =>
    generalize (m.cell id).failure = x at failure
    generalize (n.cell id).failure = y at failure
    cases failure with
    | some same => exact .raise same
    | none =>
      simp only
      rw [cell.evaluating]
      split
      · refine .context fun c d now' => ?_
        rw [Context.trace, Context.trace, now'.stack, Cell.name, Cell.name, cell.shape.name,
          cell.shape.span]
        refine .raise (.orTrace (.refl ?_) _)
        rw [Exception.cyclicEvaluation, Exception.at', Exception.orSpan]
        split <;> rfl
      · refine (evaluating id true).bind fun L₁ _ _ _ _ => ?_
        refine (h.compute id cell.shape).attempt.bind fun L₂ _ _ _ outcome => ?_
        cases outcome with
        | ok same => exact settle id same
        | error same => exact settleFailure id same

/-! ## Calls -/

theorem bindParams (space : SpaceId) (params : List (Ty × String)) {args args' : List Value}
    (same : L.items args args') :
    Eval.Follows static L (fun _ _ _ => True) (bindParams S space params args)
      (bindParams T space params args') := by
  have zipped : ∀ {params : List (Ty × String)} {args args' : List Value} (slot : Nat),
      L.items args args' →
      List.Forall₂ (fun a b => a.1.1 = b.1.1 ∧ L.values a.1.2 b.1.2 ∧ a.2 = b.2)
        ((params.zip args).zipIdx slot) ((params.zip args').zipIdx slot) := by
    intro params args args' slot same
    induction params generalizing args args' slot with
    | nil => exact .nil
    | cons param params ih =>
      cases same with
      | nil => exact .nil
      | cons first rest => exact .cons ⟨rfl, first, rfl⟩ (ih (slot + 1) rest)
  refine .forM (R := fun L (a b : ((Ty × String) × Value) × Nat) =>
    a.1.1 = b.1.1 ∧ L.values a.1.2 b.1.2 ∧ a.2 = b.2)
    (fun le _ _ same => ⟨same.1, same.2.1.links le, same.2.2⟩) ?_ (zipped 0 same)
  rintro L' ⟨⟨param, arg⟩, slot⟩ ⟨⟨param', arg'⟩, slot'⟩ _ ⟨rfl, same, rfl⟩
  exact (cast_follows same _).bind fun _ _ _ _ same => h.bindSlot space slot same

/-- **Functions that are linked give alike results.** -/
theorem callFunction {f g : FunctionId} (linked : L.functions f g) {args args' : List Value}
    (same : L.items args args') :
    Eval.Follows static L Links.values (Eval.call S f args) (Eval.call T g args') := by
  refine .memory fun m n now => ?_
  have follows := now.function f g linked
  simp only
  rw [follows.signature, same.length]
  split
  · exact .raise (.refl rfl)
  · have all : L.items (args ++ (m.function f).defaults.drop args'.length)
        (args' ++ (n.function g).defaults.drop args'.length) :=
      same.append (items_drop follows.defaults _)
    have body := follows.body
    generalize (m.function f).body = b at body
    generalize (n.function g).body = b' at body
    cases body with
    | literal hBody hTemplate hClosure region =>
      -- Parameters are bound in the new space before the body runs in it.
      refine .within (fun m n now => ⟨now.count, now.newSpace (.ofTemplate hTemplate _
        (.some hClosure))⟩) fun space => ?_
      exact (h.bindParams space _ all).bind fun _ _ _ _ _ =>
        ((hBody.follows h space).bind fun _ _ _ _ same => cast_follows same _).inFrame _
    | curried target fixed =>
      simp only [forward, Adapter.select_follows fixed]
      split
      · exact .withBuffer (h.call _ _ _ _ _ target (Adapter.arguments_follows fixed _ all))
      · exact h.call _ _ _ _ _ target (Adapter.arguments_follows fixed _ all)

end Supply.Follows

/-- **Demands are met alike, with any fuel.** -/
theorem Supply.ofFuel_follows (static : Memory) (fuel : Nat) :
    (Supply.ofFuel fuel).Follows static (.ofFuel fuel) := by
  have bind : ∀ (L : Links) id v w, L.values v w →
      Eval.Follows static L (fun _ _ _ => True) (bindCell id v) (bindCell id w) :=
    fun L id v w same => .modifyMemory fun m n now => now.bind id same
  induction fuel with
  | zero => exact ⟨fun _ _ => .exhausted, fun _ _ _ _ _ _ _ => .exhausted, bind, rfl, rfl⟩
  | succ fuel ih =>
    exact ⟨fun L cell => ih.forceCell cell, fun L f g args args' linked same =>
      ih.callFunction linked same, bind, rfl, rfl⟩

end CellScript
