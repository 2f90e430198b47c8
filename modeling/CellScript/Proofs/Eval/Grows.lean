import CellScript.Eval.Demand
import CellScript.Eval.Lemmas
import CellScript.Proofs.Memory.Grows

/-!
# Evaluation only adds to memory

Whatever is evaluated, in whatever machine, and however it ends: memory is the one from before at a
later time. A cell that has a value keeps it, a space keeps its place, and functions never change.

* `Eval.Enlarges` — a step after which memory has grown, however it ends
* `Eval.Enlarges.bind`, `Eval.Enlarges.attempt`, `Eval.Enlarges.mapM` — the rules that put steps
  together
* `Code.Op.eval_enlarges` — evaluation, if memory grows while demands are met
* `Supply.watched_enlarges` — memory grows while demands are met
-/

namespace CellScript

variable {α β : Type}

namespace Eval

/-! ## Steps -/

/-- However the step ends, memory has only grown. -/
def Enlarges (x : Eval α) : Prop := ∀ M, match x M with
  | .ok _ M' | .error _ M' => M.memory.Grows M'.memory

namespace Enlarges

variable {x : Eval α} {f : α → Eval β} {M M' : Machine}

theorem of_ok (h : Enlarges x) {a : α} (run : x M = .ok a M') : M.memory.Grows M'.memory := by
  have grown := h M
  rw [run] at grown
  exact grown

theorem of_error (h : Enlarges x) {stop : Stop} (run : x M = .error stop M') :
    M.memory.Grows M'.memory := by
  have grown := h M
  rw [run] at grown
  exact grown

theorem run (h : Enlarges x) (M : Machine) : M.memory.Grows (M.run x).2.memory := by
  unfold Machine.run
  cases ran : x M with
  | ok a M' => exact h.of_ok ran
  | error stop M' => exact h.of_error ran

theorem pure (a : α) : Enlarges (Pure.pure a) := fun _ => .refl _

theorem raise (e : Exception) : Enlarges (Eval.raise e : Eval α) := fun _ => .refl _

theorem stop (e : Stop) : Enlarges (throw e : Eval α) := fun _ => .refl _

theorem ofExcept (r : Except Exception α) : Enlarges (Eval.ofExcept r) := by
  cases r with
  | ok a => exact pure a
  | error e => exact raise e

theorem memory : Enlarges Eval.memory := fun _ => .refl _

theorem context : Enlarges Eval.context := fun _ => .refl _

theorem modifyContext (g : Context → Context) : Enlarges (Eval.modifyContext g) := fun _ => .refl _

theorem modifyMemory {g : Memory → Memory} (grows : ∀ m : Memory, m.Grows (g m)) :
    Enlarges (Eval.modifyMemory g) := fun M => grows M.memory

theorem create {g : Memory → α × Memory} (grows : ∀ m : Memory, m.Grows (g m).2) :
    Enlarges (Eval.create g) :=
  fun M => grows M.memory

theorem bind (h : Enlarges x) (rest : ∀ a, Enlarges (f a)) : Enlarges (x >>= f) := by
  intro M
  cases run : x M with
  | ok a M' =>
    rw [bind_of_ok run]
    have first := h.of_ok run
    cases run' : f a M' with
    | ok b M'' => exact first.trans ((rest a).of_ok run')
    | error e M'' => exact first.trans ((rest a).of_error run')
  | error e M' =>
    rw [bind_of_error run]
    exact h.of_error run

theorem map (h : Enlarges x) (g : α → β) : Enlarges (g <$> x) := by
  rw [← bind_pure_comp]
  exact h.bind fun a => pure (g a)

theorem ask (g : Memory → Except Exception α) : Enlarges (Eval.ask g) :=
  memory.bind fun m => ofExcept (g m)

theorem attempt (h : Enlarges x) : Enlarges (Eval.attempt x) := by
  intro M
  cases run : x M with
  | ok a M' =>
    rw [attempt_of_ok run]
    exact h.of_ok run
  | error e M' =>
    have grown := h.of_error run
    cases e with
    | raised e =>
      rw [attempt_of_raised run]
      exact grown
    | exhausted =>
      rw [attempt_of_exhausted run]
      exact grown
    | refused =>
      rw [attempt_of_refused run]
      exact grown

theorem located (h : Enlarges x) (span : Span) : Enlarges (Eval.located span x) := by
  intro M
  cases run : x M with
  | ok a M' =>
    rw [located_of_ok run]
    exact h.of_ok run
  | error e M' =>
    have grown := h.of_error run
    cases e with
    | raised e =>
      rw [located_of_raised run]
      exact grown
    | exhausted =>
      rw [located_of_exhausted run]
      exact grown
    | refused =>
      rw [located_of_refused run]
      exact grown

theorem inFrame (h : Enlarges x) (frame : Frame) : Enlarges (Eval.inFrame frame x) := by
  intro M
  unfold Eval.inFrame
  cases run : x { M with context := M.context.push frame } with
  | ok a M' =>
    have grown := h.of_ok run
    exact grown
  | error e M' =>
    have grown := h.of_error run
    cases e <;> exact grown

theorem within {g : Memory → SpaceId × Memory} {x : SpaceId → Eval α}
    (grows : ∀ m : Memory, m.Grows (g m).2) (h : ∀ space, Enlarges (x space)) :
    Enlarges (Eval.within g x) := by
  intro M
  rw [within_apply]
  cases run : x (g M.memory).1 { M with memory := (g M.memory).2 } with
  | ok a M' =>
    rw [holding_of_ok run]
    exact ((grows M.memory).trans ((h _).of_ok run)).trans (Memory.grows_drop ..)
  | error e M' =>
    rw [holding_of_error run]
    exact ((grows M.memory).trans ((h _).of_error run)).trans (Memory.grows_drop ..)

theorem inBlock {x : SpaceId → Eval α} (t : Code.Template) (space : SpaceId)
    (h : ∀ block, Enlarges (x block)) :
    Enlarges (Eval.within (·.child t space) x) :=
  within (fun m => m.grows_newSpace _) h

theorem withBuffer {x : List Value → Eval α} (h : ∀ buffer, Enlarges (x buffer)) :
    Enlarges (Eval.withBuffer x) := by
  intro M
  have taken := M.memory.grows_rest
  cases run : x (M.memory.scratch.buffer 0) (M.withScratch M.memory.scratch.rest) with
  | ok a M' =>
    rw [withBuffer_of_ok run]
    exact (taken.trans ((h _).of_ok run)).trans M'.memory.grows_give
  | error e M' =>
    rw [withBuffer_of_error run]
    exact (taken.trans ((h _).of_error run)).trans M'.memory.grows_give

theorem mapM {g : α → Eval β} (h : ∀ a, Enlarges (g a)) (as : List α) : Enlarges (as.mapM g) := by
  induction as with
  | nil =>
    rw [List.mapM_nil]
    exact pure []
  | cons a rest ih =>
    rw [List.mapM_cons]
    exact (h a).bind fun b => ih.bind fun bs => pure (b :: bs)

theorem forM {g : α → Eval PUnit} (h : ∀ a, Enlarges (g a)) (as : List α) :
    Enlarges (as.forM g) := by
  induction as with
  | nil => exact pure PUnit.unit
  | cons a rest ih => exact (h a).bind fun _ => ih

theorem foldlM {g : β → α → Eval β} (h : ∀ b a, Enlarges (g b a)) (as : List α) (b : β) :
    Enlarges (as.foldlM g b) := by
  induction as generalizing b with
  | nil => exact pure b
  | cons a rest ih => exact (h b a).bind fun b' => ih b'

end Enlarges

/-! ## Values, cells and functions -/

theorem newObject_enlarges : Enlarges (create Memory.newObject) := .create Memory.grows_newObject

theorem newList_enlarges (items : List Value) : Enlarges (newList items) :=
  newObject_enlarges.bind fun _ => .pure _

theorem newDict_enlarges (entries : Entries Value) : Enlarges (newDict entries) :=
  newObject_enlarges.bind fun _ => .pure _

theorem cast_enlarges (v : Value) (ty : Ty) : Enlarges (cast v ty) :=
  newObject_enlarges.bind fun _ => .ofExcept _

theorem bindCell_enlarges (id : CellId) (v : Value) : Enlarges (bindCell id v) :=
  .modifyMemory fun m => m.grows_bind id v

theorem walk_enlarges (name : String) (space : SpaceId) (path : List Nat) :
    Enlarges (walk name space path) := by
  induction path generalizing space with
  | nil => exact .raise _
  | cons slot rest ih =>
    cases rest with
    | nil => exact .ask _
    | cons next rest =>
      rw [walk]
      · refine (Enlarges.ask _).bind fun id => Enlarges.memory.bind fun m => ?_
        simp only
        split
        · exact ih _
        · exact .raise _
      · exact fun h => by cases h

theorem units_enlarges : Enlarges units := by
  refine Enlarges.context.bind fun c => ?_
  split
  · exact .pure _
  · exact .raise _

theorem absolute_enlarges (ref : Code.CellRef) (path : List Nat) :
    Enlarges (absolute ref path) := by
  have walks : Enlarges (units >>= fun u => walk ref.name u path) :=
    units_enlarges.bind fun u => walk_enlarges ref.name u path
  unfold absolute
  split
  · exact walks
  · refine Enlarges.memory.bind fun m => ?_
    split
    · exact .pure _
    · refine units_enlarges.bind fun u => (walk_enlarges ref.name u path).bind fun cell => ?_
      refine (Enlarges.modifyMemory fun m => ?_).bind fun _ => .pure cell
      exact m.grows_pin _ cell

theorem resolve_enlarges (space : SpaceId) (ref : Code.CellRef) : Enlarges (resolve space ref) := by
  unfold resolve
  split
  · exact .raise _
  · exact .ask _
  · exact (Enlarges.ask _).bind fun _ => .ask _
  · exact (Enlarges.ask _).bind fun _ => .ask _
  · exact absolute_enlarges ref _

theorem fix_enlarges (f : FunctionObject) (fixed : List (Option Value))
    (name : String) (v : Value) :
    Enlarges (f.fix fixed name v) := by
  unfold FunctionObject.fix
  split
  · exact (cast_enlarges v _).bind fun _ => .pure _
  · exact .raise _

theorem curry_enlarges (id : FunctionId) (args : List (String × Value)) :
    Enlarges (curry id args) := by
  refine Enlarges.memory.bind fun m => ?_
  refine (Enlarges.foldlM (fun fixed arg => fix_enlarges _ fixed arg.1 arg.2) args _).bind
    fun fixed => ?_
  exact .create fun m => m.grows_newFunction _

theorem newClosure_enlarges (captured : List Captured) : Enlarges (newClosure captured) := by
  refine (Enlarges.create fun m => m.grows_newClosure captured).bind fun closure => ?_
  exact (Enlarges.forM (fun _ => .modifyContext _) _).bind fun _ => .pure closure

end Eval

/-! ## Operations -/

open Eval

/-- Under the watch memory only grows. -/
def Watch.Enlarges (watch : Watch) : Prop :=
  ∀ op space x, Eval.Enlarges x → Eval.Enlarges (watch op space x)

/-- Memory grows while the supply meets a demand or binds a cell, and whoever watches keeps it
so. -/
structure Supply.Enlarges (s : Supply) : Prop where
  meet : ∀ demand, Eval.Enlarges (s demand)
  watch : s.watch.Enlarges
  bind : ∀ id v, Eval.Enlarges (s.bind id v)

variable {s : Supply} {space : SpaceId}

namespace Supply.Enlarges

variable (h : s.Enlarges)

include h

theorem bindSlot (space : SpaceId) (slot : Nat) (v : Value) :
    Eval.Enlarges (bindSlot s space slot v) :=
  (Eval.Enlarges.ask _).bind fun id => h.bind id v

theorem bindSlots (space : SpaceId) (bindings : Bindings) :
    Eval.Enlarges (bindSlots s space bindings) := by
  refine Eval.Enlarges.forM (fun binding => ?_) bindings
  exact h.bindSlot space binding.1 binding.2

theorem reference (space : SpaceId) (ref : Code.CellRef) :
    Eval.Enlarges (reference s space ref) := by
  unfold Eval.reference
  split
  · refine Eval.Enlarges.memory.bind fun m => ?_
    split
    · refine (Eval.Enlarges.ask _).bind fun c => ?_
      split
      · exact .pure _
      · exact .pure _
      · refine (h.meet _).bind fun v => ?_
        exact (Eval.Enlarges.modifyMemory fun m => m.grows_fill _ _ v).bind fun _ => .pure v
    · exact .raise _
  · exact (resolve_enlarges space ref).bind fun id => h.meet _

theorem capture (space : SpaceId) (plan : Code.CapturePlan) :
    Eval.Enlarges (capture s space plan) := by
  cases plan with
  | propagate index =>
    refine Eval.Enlarges.memory.bind fun m => ?_
    split
    · exact (Eval.Enlarges.ask _).bind fun _ => .pure _
    · exact .raise _
  | cell ref =>
    refine (resolve_enlarges space ref).bind fun id => Eval.Enlarges.memory.bind fun m => ?_
    simp only
    split
    · exact .pure _
    · split
      · exact .pure _
      · exact (h.meet _).bind fun _ => .pure _

theorem callWith (id : FunctionId) (args : List CallArgument) :
    Eval.Enlarges (callWith s id args) := by
  unfold Eval.callWith
  split
  · exact h.meet _
  · exact (Eval.Enlarges.ask _).bind fun values => h.meet _

theorem bindCaught (error trace : Option Nat) (e : Exception) (block : SpaceId) :
    Eval.Enlarges (bindCaught s error trace e block) := by
  have fills : ∀ (slot : Option Nat) (value : ObjectId → Value),
      Eval.Enlarges (slot.forM fun slot => do
        Eval.bindSlot s block slot (value (← create Memory.newObject))) := by
    intro slot value
    cases slot with
    | none => exact .pure _
    | some slot => exact newObject_enlarges.bind fun id => h.bindSlot block slot _
  exact (fills error _).bind fun _ => fills trace _

end Supply.Enlarges

namespace Code

theorem bindList_enlarges (slot : Option Nat) (items : List Value) :
    Eval.Enlarges (bindList slot items) := by
  cases slot with
  | none => exact .pure _
  | some slot => exact (newList_enlarges items).bind fun _ => .pure _

theorem bindDict_enlarges (slot : Option Nat) (entries : Entries Value) :
    Eval.Enlarges (bindDict slot entries) := by
  cases slot with
  | none => exact .pure _
  | some slot => exact (newDict_enlarges entries).bind fun _ => .pure _

section Eval

variable (h : s.Enlarges)

include h

set_option linter.unusedSectionVars false

mutual

/-- **Evaluation only adds to memory**, if that holds of meeting demands. -/
theorem Op.eval_enlarges : ∀ (op : Op) (space : SpaceId), Eval.Enlarges (op.eval s space)
  | ⟨span, action⟩, space => by
    rw [Op.eval]
    exact h.watch _ _ _ ((action.eval_enlarges space).located span)

theorem Action.eval_enlarges : ∀ (action : Action) (space : SpaceId),
    Eval.Enlarges (action.eval s space)
  | .constant v, _ => .pure v
  | .fail fault, _ => .raise _
  | .reference ref _, space => h.reference space ref
  | .list items, space => by
    rw [Action.eval]
    exact (evalItems_enlarges items space).bind fun _ => newList_enlarges _
  | .patchedList segments, space => by
    rw [Action.eval]
    exact (evalListSegments_enlarges segments space).bind fun _ => newList_enlarges _
  | .dict entries, space => by
    rw [Action.eval]
    exact (evalEntries_enlarges entries [] space).bind fun _ => newDict_enlarges _
  | .mergedDict segments, space => by
    rw [Action.eval]
    exact (evalDictSegments_enlarges segments [] space).bind fun _ => newDict_enlarges _
  | .function params returns body template captures region, space => by
    rw [Action.eval]
    refine (evalDefaults_enlarges params space).bind fun defaults => ?_
    refine (Eval.Enlarges.mapM (fun plan => h.capture space plan) captures).bind fun captured => ?_
    refine (newClosure_enlarges captured).bind fun closure => ?_
    exact .create fun m => m.grows_newFunction _
  | .call callee args, space => by
    rw [Action.eval]
    refine (callee.eval_enlarges space).bind fun v => ?_
    split
    · exact (evalArguments_enlarges args space).bind fun _ => h.callWith _ _
    · exact .raise _
  | .fixedCall id _ args, space => by
    rw [Action.eval]
    exact (evalOps_enlarges args space).bind fun _ => h.meet _
  | .curry callee args, space => by
    rw [Action.eval]
    refine (callee.eval_enlarges space).bind fun v => ?_
    split
    · exact (evalNamed_enlarges args space).bind fun _ => curry_enlarges _ _
    · exact .raise _
  | .letIn template body, space => by
    rw [Action.eval]
    exact .inBlock template space fun block => body.eval_enlarges block
  | .ifElse c t e, space => by
    rw [Action.eval]
    refine (c.eval_enlarges space).bind fun v => ?_
    split
    · exact t.eval_enlarges space
    · exact e.eval_enlarges space
  | .matchOn subject lines, space => by
    rw [Action.eval]
    exact (subject.eval_enlarges space).bind fun v => evalLines_enlarges lines v space
  | .forEach template heads body, space => by
    rw [Action.eval]
    refine .inBlock template space fun block => ?_
    exact (runHeads_enlarges heads (fun inner => body.eval_enlarges inner) block).bind fun _ =>
      newList_enlarges _
  | .binary op mode l r, space => by
    have sides : Eval.Enlarges (do
        let a ← l.eval s space
        let b ← r.eval s space
        ofExcept (Value.binaryIn mode op a b)) :=
      (l.eval_enlarges space).bind fun _ => (r.eval_enlarges space).bind fun _ => .ofExcept _
    cases op with
    | and | or =>
      rw [Action.eval]
      refine (l.eval_enlarges space).bind fun v => ?_
      split
      all_goals first
        | exact .pure _
        | exact (r.eval_enlarges space).bind fun _ => .pure _
    | _ =>
      rw [Action.eval]
      · exact sides
      all_goals exact fun h => by cases h
  | .unary op e, space => by
    rw [Action.eval]
    exact (e.eval_enlarges space).bind fun _ => .ofExcept _
  | .cast e ty, space => by
    rw [Action.eval]
    exact (e.eval_enlarges space).bind fun _ => cast_enlarges _ _
  | .isOf e ty, space => by
    rw [Action.eval]
    exact (e.eval_enlarges space).bind fun _ => .pure _
  | .access container keys, space => by
    rw [Action.eval]
    exact (container.eval_enlarges space).bind fun _ =>
      (evalOps_enlarges keys space).bind fun _ => .ofExcept _
  | .keyAccess container key, space => by
    rw [Action.eval]
    exact (container.eval_enlarges space).bind fun _ => .ofExcept _
  | .tryCatch body template error trace handler, space => by
    rw [Action.eval]
    refine (body.eval_enlarges space).attempt.bind fun r => ?_
    split
    · exact .pure _
    · exact .inBlock template space fun block =>
        (h.bindCaught error trace _ block).bind fun _ => handler.eval_enlarges block
  | .throw e, space => by
    rw [Action.eval]
    exact (e.eval_enlarges space).bind fun _ => Eval.Enlarges.context.bind fun _ => .raise _

theorem evalOps_enlarges : ∀ (ops : List Op) (space : SpaceId), Eval.Enlarges (evalOps s space ops)
  | [], _ => .pure _
  | op :: rest, space => by
    rw [evalOps]
    exact (op.eval_enlarges space).bind fun _ => (evalOps_enlarges rest space).bind fun _ => .pure _

theorem evalItems_enlarges : ∀ (items : List Item) (space : SpaceId),
    Eval.Enlarges (evalItems s space items)
  | [], _ => .pure _
  | .value op :: rest, space => by
    rw [evalItems]
    exact (op.eval_enlarges space).bind fun _ =>
      (evalItems_enlarges rest space).bind fun _ => .pure _
  | .splat op :: rest, space => by
    rw [evalItems]
    exact (op.eval_enlarges space).bind fun _ => (Eval.Enlarges.ofExcept _).bind fun _ =>
      (evalItems_enlarges rest space).bind fun _ => .pure _

theorem evalListSegments_enlarges : ∀ (segments : List ListSegment) (space : SpaceId),
    Eval.Enlarges (evalListSegments s space segments)
  | [], _ => .pure _
  | .constant run :: rest, space => by
    rw [evalListSegments]
    exact (evalListSegments_enlarges rest space).bind fun _ => .pure _
  | .value op :: rest, space => by
    rw [evalListSegments]
    exact (op.eval_enlarges space).bind fun _ =>
      (evalListSegments_enlarges rest space).bind fun _ => .pure _
  | .splat op :: rest, space => by
    rw [evalListSegments]
    exact (op.eval_enlarges space).bind fun _ => (Eval.Enlarges.ofExcept _).bind fun _ =>
      (evalListSegments_enlarges rest space).bind fun _ => .pure _

theorem evalEntries_enlarges : ∀ (more : List Entry) (entries : Entries Value) (space : SpaceId),
    Eval.Enlarges (evalEntries s space entries more)
  | [], _, _ => .pure _
  | .pair k v :: rest, entries, space => by
    rw [evalEntries]
    exact (k.eval_enlarges space).bind fun _ => (Eval.Enlarges.ofExcept _).bind fun _ =>
      (v.eval_enlarges space).bind fun _ => evalEntries_enlarges rest _ space
  | .splat op :: rest, entries, space => by
    rw [evalEntries]
    exact (op.eval_enlarges space).bind fun _ => (Eval.Enlarges.ofExcept _).bind fun _ =>
      evalEntries_enlarges rest _ space

theorem evalDictSegments_enlarges : ∀ (segments : List DictSegment) (entries : Entries Value)
    (space : SpaceId), Eval.Enlarges (evalDictSegments s space entries segments)
  | [], _, _ => .pure _
  | .constant run :: rest, entries, space => by
    rw [evalDictSegments]
    exact evalDictSegments_enlarges rest _ space
  | .pair key v :: rest, entries, space => by
    rw [evalDictSegments]
    exact (v.eval_enlarges space).bind fun _ => evalDictSegments_enlarges rest _ space
  | .dynamic k v :: rest, entries, space => by
    rw [evalDictSegments]
    exact (k.eval_enlarges space).bind fun _ => (Eval.Enlarges.ofExcept _).bind fun _ =>
      (v.eval_enlarges space).bind fun _ => evalDictSegments_enlarges rest _ space
  | .splat op :: rest, entries, space => by
    rw [evalDictSegments]
    exact (op.eval_enlarges space).bind fun _ => (Eval.Enlarges.ofExcept _).bind fun _ =>
      evalDictSegments_enlarges rest _ space

theorem evalDefaults_enlarges : ∀ (params : List Param) (space : SpaceId),
    Eval.Enlarges (evalDefaults s space params)
  | [], _ => .pure _
  | ⟨_, _, none⟩ :: rest, space => by
    rw [evalDefaults]
    exact (evalDefaults_enlarges rest space).bind fun _ => .pure _
  | ⟨_, ty, some op⟩ :: rest, space => by
    rw [evalDefaults]
    exact (op.eval_enlarges space).bind fun _ => (cast_enlarges _ ty).bind fun _ =>
      (evalDefaults_enlarges rest space).bind fun _ => .pure _

theorem evalArguments_enlarges : ∀ (args : List Argument) (space : SpaceId),
    Eval.Enlarges (evalArguments s space args)
  | [], _ => .pure _
  | .positional op :: rest, space | .named _ op :: rest, space | .splat op :: rest, space => by
    rw [evalArguments]
    exact (op.eval_enlarges space).bind fun _ =>
      (evalArguments_enlarges rest space).bind fun _ => .pure _

theorem evalNamed_enlarges : ∀ (args : List Named) (space : SpaceId),
    Eval.Enlarges (evalNamed s space args)
  | [], _ => .pure _
  | ⟨_, op⟩ :: rest, space => by
    rw [evalNamed]
    exact (op.eval_enlarges space).bind fun _ =>
      (evalNamed_enlarges rest space).bind fun _ => .pure _

theorem accepts_enlarges : ∀ (guard : Option Op) (space : SpaceId),
    Eval.Enlarges (accepts s space guard)
  | none, _ => .pure _
  | some guard, space => by
    rw [accepts]
    exact (guard.eval_enlarges space).bind fun _ => .pure _

theorem evalLines_enlarges : ∀ (lines : List Line) (subject : Value) (space : SpaceId),
    Eval.Enlarges (evalLines s space subject lines)
  | [], _, _ => .pure _
  | ⟨pattern, template, guard, result⟩ :: rest, subject, space => by
    rw [evalLines]
    refine (pattern.captures_enlarges subject space).bind fun bindings => ?_
    split
    · exact evalLines_enlarges rest subject space
    · refine (Eval.Enlarges.inBlock template space fun clause => ?_).bind fun value => ?_
      · refine (h.bindSlots clause _).bind fun _ =>
          (accepts_enlarges guard clause).bind fun holds => ?_
        split
        · exact (result.eval_enlarges clause).bind fun _ => .pure _
        · exact .pure _
      · split
        · exact .pure _
        · exact evalLines_enlarges rest subject space

theorem runHeads_enlarges : ∀ (heads : List Head) {body : SpaceId → Eval Value},
    (∀ inner, Eval.Enlarges (body inner)) → ∀ block, Eval.Enlarges (runHeads s body block heads)
  | [], _, hBody, block => by
    rw [runHeads]
    exact (hBody block).bind fun _ => .pure _
  | .generator slot ty source :: rest, _, hBody, block => by
    rw [runHeads]
    refine (source.eval_enlarges block).bind fun v =>
      (Eval.Enlarges.ofExcept _).bind fun items => ?_
    refine (Eval.Enlarges.mapM (fun item => ?_) items).bind fun _ => .pure _
    refine .within (fun m => m.grows_newSpace _) fun iteration => ?_
    refine (Eval.Enlarges.ask _).bind fun id => (cast_enlarges item ty).bind fun w => ?_
    exact (h.bind id w).bind fun _ => runHeads_enlarges rest hBody iteration
  | .definition slot :: rest, _, hBody, block => by
    rw [runHeads]
    exact (Eval.Enlarges.ask _).bind fun _ => (h.meet _).bind fun _ =>
      runHeads_enlarges rest hBody block
  | .condition op :: rest, _, hBody, block => by
    rw [runHeads]
    refine (op.eval_enlarges block).bind fun v => ?_
    split
    · exact runHeads_enlarges rest hBody block
    · exact .pure _

theorem Pattern.captures_enlarges : ∀ (p : Pattern) (subject : Value) (space : SpaceId),
    Eval.Enlarges (p.captures s space subject)
  | ⟨shape, whole⟩, subject, space => by
    rw [Pattern.captures]
    refine (shape.captures_enlarges subject space).bind fun bindings => ?_
    split <;> exact .pure _

theorem Shape.captures_enlarges : ∀ (shape : Shape) (subject : Value) (space : SpaceId),
    Eval.Enlarges (shape.captures s space subject)
  | .expr op, subject, space => by
    rw [Shape.captures]
    refine (op.eval_enlarges space).bind fun v => ?_
    split
    · exact (h.meet _).bind fun _ => .pure _
    · exact .pure _
  | .any, _, _ => .pure _
  | .ofType _, _, _ => .pure _
  | .list items, subject, space => by
    cases subject with
    | list id values =>
      rw [Shape.captures]
      split
      · exact capturesOfAll_enlarges items values space
      · exact .pure _
    | _ => exact .pure _
  | .headTail head tail, subject, space => by
    cases subject with
    | list id values =>
      rw [Shape.captures]
      split
      · exact .pure _
      · refine (capturesOfAll_enlarges head values space).bind fun bindings => ?_
        split
        · exact .pure _
        · exact (bindList_enlarges tail _).bind fun _ => .pure _
    | _ => exact .pure _
  | .initLast init last, subject, space => by
    cases subject with
    | list id values =>
      rw [Shape.captures]
      split
      · exact .pure _
      · refine (capturesOfAll_enlarges last _ space).bind fun bindings => ?_
        split
        · exact .pure _
        · exact (bindList_enlarges init _).bind fun _ => .pure _
    | _ => exact .pure _
  | .middle head mid last, subject, space => by
    cases subject with
    | list id values =>
      rw [Shape.captures]
      split
      · exact .pure _
      · refine (capturesOfAll_enlarges head values space).bind fun first => ?_
        split
        · exact .pure _
        · refine (capturesOfAll_enlarges last _ space).bind fun second => ?_
          split
          · exact .pure _
          · exact (bindList_enlarges mid _).bind fun _ => .pure _
    | _ => exact .pure _
  | .dict entries, subject, space => by
    cases subject with
    | dict id found =>
      rw [Shape.captures]
      split
      · exact capturesOfEntries_enlarges entries found space
      · exact .pure _
    | _ => exact .pure _
  | .openDict entries rest, subject, space => by
    cases subject with
    | dict id found =>
      rw [Shape.captures]
      refine (capturesOfEntries_enlarges entries found space).bind fun bindings => ?_
      split
      · exact .pure _
      · exact (bindDict_enlarges rest _).bind fun _ => .pure _
    | _ => exact .pure _

theorem capturesOfAll_enlarges : ∀ (ps : List Pattern) (values : List Value) (space : SpaceId),
    Eval.Enlarges (capturesOfAll s space values ps)
  | [], _, _ => .pure _
  | p :: rest, [], _ => .pure _
  | p :: rest, v :: values, space => by
    rw [capturesOfAll]
    refine (p.captures_enlarges v space).bind fun first => ?_
    split
    · exact .pure _
    · refine (capturesOfAll_enlarges rest values space).bind fun more => ?_
      split <;> exact .pure _

theorem capturesOfEntries_enlarges : ∀ (entries : List KeyPattern) (found : Entries Value)
    (space : SpaceId), Eval.Enlarges (capturesOfEntries s space found entries)
  | [], _, _ => .pure _
  | ⟨key, p⟩ :: rest, found, space => by
    rw [capturesOfEntries]
    split
    · exact .pure _
    · refine (p.captures_enlarges _ space).bind fun first => ?_
      split
      · exact .pure _
      · refine (capturesOfEntries_enlarges rest found space).bind fun more => ?_
        split <;> exact .pure _

end

end Eval

end Code

/-! ## Meeting demands -/

namespace Eval

variable (h : s.Enlarges)

include h

theorem compute_enlarges (id : CellId) (shape : Code.Slot) : Enlarges (compute s id shape) := by
  unfold compute
  split
  · exact .pure _
  · next init _ =>
    have evaluates : Enlarges (do Eval.cast (← init.eval s id.space) shape.ty) :=
      (init.eval_enlarges h id.space).bind fun _ => cast_enlarges _ _
    refine Enlarges.memory.bind fun m => ?_
    split
    · exact (evaluates.located shape.span).inFrame _
    · exact .raise _

omit h in
theorem settle_enlarges (id : CellId) (v : Value) : Enlarges (settle id v) := by
  refine (Enlarges.modifyMemory fun m =>
    m.grows_modifyCell_of_later id (·.later_evaluating false)).bind
    fun _ => (bindCell_enlarges id v).bind fun _ => ?_
  refine Enlarges.memory.bind fun m => Enlarges.context.bind fun c => ?_
  refine (Enlarges.modifyMemory fun m => ?_).bind fun _ => (Enlarges.modifyContext _).bind fun _ =>
    .pure _
  induction c.waitingFor id generalizing m with
  | nil => exact .refl m
  | cons d rest ih => exact (m.grows_fill d.closure d.index _).trans (ih _)

omit h in
theorem settleFailure_enlarges (id : CellId) (e : Exception) : Enlarges (settleFailure id e) := by
  refine (Enlarges.modifyMemory fun m =>
    m.grows_modifyCell_of_later id (·.later_evaluating false)).bind
    fun _ => ?_
  refine (Enlarges.modifyMemory fun m =>
    m.grows_modifyCell_of_later id (·.later_withFailure e)).bind
    fun _ => (Enlarges.modifyContext _).bind fun _ => ?_
  exact Enlarges.memory.bind fun m => .raise _

theorem force_enlarges (id : CellId) : Enlarges (force s id) := by
  refine Enlarges.memory.bind fun m => ?_
  simp only
  split
  · exact .pure _
  · exact .raise _
  · split
    · exact Enlarges.context.bind fun _ => .raise _
    · refine (Enlarges.modifyMemory fun m =>
        m.grows_modifyCell_of_later id (·.later_evaluating true)).bind fun _ => ?_
      refine (compute_enlarges h id _).attempt.bind fun r => ?_
      split
      · exact settle_enlarges id _
      · exact settleFailure_enlarges id _

theorem call_enlarges (id : FunctionId) (args : List Value) : Enlarges (call s id args) := by
  refine Enlarges.memory.bind fun m => ?_
  simp only
  split
  · exact .raise _
  · split
    · next body template closure region _ =>
      refine .within (fun m => m.grows_newSpace _) fun space => ?_
      have binds : Enlarges (bindParams s space (m.function id).signature.params
          (args ++ (m.function id).defaults.drop args.length)) :=
        .forM (fun _ => (cast_enlarges _ _).bind fun _ => h.bindSlot _ _ _) _
      refine binds.bind fun _ => Enlarges.inFrame ?_ _
      exact (body.eval_enlarges h space).bind fun _ => cast_enlarges _ _
    · unfold forward
      split
      · exact .withBuffer fun _ => h.meet _
      · exact h.meet _

end Eval

namespace Supply

/-- Memory grows while demands are met, whoever watches without taking anything back. -/
theorem watched_enlarges {watch : Watch} (keeps : watch.Enlarges) (fuel : Nat) :
    (Supply.watched watch fuel).Enlarges := by
  induction fuel with
  | zero => exact ⟨fun _ => .stop _, keeps, bindCell_enlarges⟩
  | succ fuel ih =>
    refine ⟨fun demand => ?_, keeps, bindCell_enlarges⟩
    cases demand with
    | force cell => exact force_enlarges ih cell
    | call function args => exact call_enlarges ih function args

theorem none_enlarges : Supply.none.Enlarges :=
  ⟨fun _ => .stop _, fun _ _ _ h => h, bindCell_enlarges⟩

/-- **Memory grows while demands are met.** -/
theorem ofFuel_enlarges (fuel : Nat) : (Supply.ofFuel fuel).Enlarges :=
  watched_enlarges (fun _ _ _ h => h) fuel

end Supply

end CellScript
