import CellScript.Code.Specialize
import CellScript.Eval.Lemmas
import CellScript.Eval.Op
import CellScript.Proofs.Value.Kinds

/-!
# Specialised operations do the same

Constant stretches of lists and dictionaries are laid out in advance, and that comes to the same as
laying them out in place: a stretch only ever contributes what its items would have contributed,
items that fail stay where they are, and later entries override earlier ones on either way. Nothing
is assumed about how demands are met, so that the steps agree from every machine, in what they give
and in the machine they leave behind.

* `Code.evalListSegments_listSegments`, `Code.evalDictSegments_dictSegments` — stretches of
  constants
* `Code.Action.specialize_eval` — a specialised action
* `Code.Action.specialize_specialize` — specialising once is enough
* `Code.Op.eval_specialize` — a specialised operation
-/

namespace CellScript

/-- The walk with one key is a single step, which ends at nil as well. -/
theorem Value.accessAll_singleton (container key : Value) :
    container.accessAll [key] = container.access key := by
  cases container with
  | nil => rfl
  | _ =>
    simp only [Value.accessAll, Value.isNil, Bool.false_eq_true, if_false]
    split <;> (next h => exact h.symm)

namespace Code

open Eval

variable (meet : Demand → Eval Value) (bind : CellId → Value → Eval PUnit) (space : SpaceId)

/-- A constant gives its value when nobody watches. -/
theorem Op.eval_of_constant {op : Op} {v : Value} (h : op.constant? = some v) :
    op.eval ⟨meet, .idle, bind⟩ space = pure v := by
  obtain ⟨span, action⟩ := op
  cases action <;> cases h
  rfl

/-! ## Lists -/

/-- A constant item contributes what was found in advance. -/
theorem evalItems_of_constants {item : Item} {values : List Value}
    (h : item.constants? = some values) (rest : List Item) :
    evalItems ⟨meet, .idle, bind⟩ space (item :: rest) =
      return values ++ (← evalItems ⟨meet, .idle, bind⟩ space rest) := by
  cases item with
  | value op =>
    obtain ⟨v, hv, rfl⟩ := Option.map_eq_some_iff.mp h
    rw [evalItems, Op.eval_of_constant _ _ _ hv, pure_bind]
    rfl
  | splat op =>
    obtain ⟨v, hv, spread⟩ := Option.bind_eq_some_iff.mp h
    rw [evalItems, Op.eval_of_constant _ _ _ hv, pure_bind]
    cases hs : v.spreadItems with
    | ok spreadValues =>
      rw [hs] at spread
      cases spread
      rw [ofExcept_ok, pure_bind]
    | error e =>
      rw [hs] at spread
      cases spread

/-- An item that is a stretch of its own is evaluated as an item. -/
theorem evalListSegments_segment (supply : Supply) (item : Item) (segments : List ListSegment)
    (rest : List Item)
    (same : evalListSegments supply space segments = evalItems supply space rest) :
    evalListSegments supply space (item.segment :: segments) =
      evalItems supply space (item :: rest) := by
  cases item with
  | value op | splat op => rw [Item.segment, evalListSegments, evalItems, same]

theorem evalListSegments_constantRun (supply : Supply) (run : List Value)
    (segments : List ListSegment) :
    evalListSegments supply space (constantRun run ++ segments) =
      return run ++ (← evalListSegments supply space segments) := by
  unfold constantRun
  split
  · next empty =>
    rw [List.isEmpty_iff.mp empty]
    exact (bind_pure _).symm
  · rfl

/-- The stretches of a list give the items met so far and those that follow. -/
theorem evalListSegments_listSegments (run : List Value) (items : List Item) :
    evalListSegments ⟨meet, .idle, bind⟩ space (listSegments run items) =
      return run ++ (← evalItems ⟨meet, .idle, bind⟩ space items) := by
  induction items generalizing run with
  | nil =>
    rw [listSegments, ← List.append_nil (constantRun run), evalListSegments_constantRun]
    rfl
  | cons item rest ih =>
    rw [listSegments]
    split
    · next values constants =>
      rw [ih, evalItems_of_constants meet bind space constants]
      simp only [bind_assoc, pure_bind, List.append_assoc]
    · rw [evalListSegments_constantRun, evalListSegments_segment space _ item _ rest]
      rw [ih]
      exact bind_pure _

/-! ## Dictionaries -/

/-- A constant entry contributes what was found in advance. -/
theorem evalEntries_of_constants {entry : Entry} {more : Entries Value}
    (h : entry.constants? = some more) (entries : Entries Value) (rest : List Entry) :
    evalEntries ⟨meet, .idle, bind⟩ space entries (entry :: rest) =
      evalEntries ⟨meet, .idle, bind⟩ space (entries.merge more) rest := by
  cases entry with
  | pair key value =>
    simp only [Entry.constants?, constantKey?, Option.bind_eq_bind, Option.bind_eq_some_iff,
      Option.pure_def, Option.some.injEq] at h
    obtain ⟨k, ⟨v, hv, hk⟩, w, hw, rfl⟩ := h
    rw [evalEntries, Op.eval_of_constant _ _ _ hv, pure_bind]
    cases hkey : v.toKey with
    | ok known =>
      rw [hkey] at hk
      cases hk
      rw [ofExcept_ok, pure_bind, Op.eval_of_constant _ _ _ hw, pure_bind]
      rfl
    | error e =>
      rw [hkey] at hk
      cases hk
  | splat op =>
    obtain ⟨v, hv, spread⟩ := Option.bind_eq_some_iff.mp h
    rw [evalEntries, Op.eval_of_constant _ _ _ hv, pure_bind]
    cases hs : v.spreadEntries with
    | ok spreadEntries =>
      rw [hs] at spread
      cases spread
      rw [ofExcept_ok, pure_bind]
    | error e =>
      rw [hs] at spread
      cases spread

/-- An entry that is a stretch of its own is evaluated as an entry. A constant key that cannot be
converted stays where it fails. -/
theorem evalDictSegments_segment (entry : Entry) (segments : List DictSegment) (rest : List Entry)
    (entries : Entries Value) (sorted : entries.Sorted)
    (same : ∀ entries : Entries Value, entries.Sorted →
      evalDictSegments ⟨meet, .idle, bind⟩ space entries segments =
        evalEntries ⟨meet, .idle, bind⟩ space entries rest) :
    evalDictSegments ⟨meet, .idle, bind⟩ space entries (entry.segment :: segments) =
      evalEntries ⟨meet, .idle, bind⟩ space entries (entry :: rest) := by
  cases entry with
  | pair key value =>
    have after : ∀ known : String,
        (do
          let v ← value.eval ⟨meet, .idle, bind⟩ space
          evalDictSegments ⟨meet, .idle, bind⟩ space (entries.insert known v) segments) =
        (do
          let v ← value.eval ⟨meet, .idle, bind⟩ space
          evalEntries ⟨meet, .idle, bind⟩ space (entries.insert known v) rest) :=
      fun known => congrArg _ (funext fun v => same _ (sorted.insert known v))
    rw [Entry.segment]
    split
    · next known hk =>
      obtain ⟨v, hv, converted⟩ := Option.bind_eq_some_iff.mp hk
      cases hkey : v.toKey with
      | error e =>
        rw [hkey] at converted
        cases converted
      | ok same =>
        rw [hkey] at converted
        cases converted
        rw [evalDictSegments, evalEntries, Op.eval_of_constant _ _ _ hv, pure_bind, hkey,
          ofExcept_ok, pure_bind]
        exact after known
    · rw [evalDictSegments, evalEntries]
      exact congrArg _ (funext fun v => congrArg _ (funext after))
  | splat op =>
    rw [Entry.segment, evalDictSegments, evalEntries]
    exact congrArg _ (funext fun v => congrArg _ (funext fun more => same _ (sorted.merge more)))

/-- The stretches of a dictionary add the entries met so far and those that follow. -/
theorem evalDictSegments_dictSegments (run : Option (Entries Value))
    (sortedRun : (run.getD []).Sorted) (items : List Entry) (entries : Entries Value)
    (sorted : entries.Sorted) :
    evalDictSegments ⟨meet, .idle, bind⟩ space entries (dictSegments run items) =
      evalEntries ⟨meet, .idle, bind⟩ space (entries.merge (run.getD [])) items := by
  induction items generalizing run entries with
  | nil => cases run <;> rfl
  | cons entry rest ih =>
    rw [dictSegments]
    split
    · next more constants =>
      rw [ih (some ((run.getD []).merge more)) (sortedRun.merge more) _ sorted,
        evalEntries_of_constants meet bind space constants,
        Option.getD_some, Entries.merge_merge sorted sortedRun]
    · have after := fun entries sorted => ih none Entries.sorted_nil entries sorted
      have segment := fun entries sorted => evalDictSegments_segment meet bind space entry
        (dictSegments none rest) rest entries sorted after
      cases run with
      | none => exact segment entries sorted
      | some known => exact segment (entries.merge known) (sorted.merge known)

/-! ## Calls -/

/-- Arguments by position are evaluated like other operations. -/
theorem evalArguments_of_positionals {args : List Argument} {ops : List Op} (supply : Supply)
    (h : positionals? args = some ops) :
    evalArguments supply space args =
      return (← evalOps supply space ops).map CallArgument.positional := by
  induction args generalizing ops with
  | nil =>
    cases h
    rfl
  | cons arg rest ih =>
    cases arg with
    | positional op =>
      obtain ⟨others, found, rfl⟩ := Option.map_eq_some_iff.mp h
      rw [evalArguments, evalOps, ih found]
      simp only [bind_assoc, pure_bind, List.map_cons]
    | named name op | splat op => cases h

/-- There is nothing to bind when all arguments are given by position. -/
theorem positionals?_map (values : List Value) :
    CallArgument.positionals? (values.map .positional) = some values := by
  induction values with
  | nil => rfl
  | cons v rest ih => rw [List.map_cons, CallArgument.positionals?, ih]; rfl

/-! ## Operations -/

/-- **A specialised action does the same.** -/
theorem Action.specialize_eval (action : Action) :
    action.specialize.eval ⟨meet, .idle, bind⟩ space = action.eval ⟨meet, .idle, bind⟩ space := by
  cases action with
  | binary op mode l r =>
    rw [Action.specialize]
    split
    · next narrowed =>
      -- Only arithmetic is narrowed, and that always evaluates both sides.
      cases op <;> first
        | cases narrowed
        | (rw [Action.eval, Action.eval]
           all_goals first | (simp only [Value.binaryIn_eq]) | (intro h; cases h))
    · rfl
  | call callee args =>
    rw [Action.specialize]
    split
    · next id signature ops known positional =>
      rw [Action.eval, Action.eval, Op.eval_of_constant _ _ _ known, pure_bind]
      simp only [evalArguments_of_positionals space _ positional, bind_assoc, pure_bind, callWith,
        positionals?_map]
    · rfl
  | list items =>
    rw [Action.specialize]
    split
    · rw [Action.eval, Action.eval, evalListSegments_listSegments]
      simp only [List.nil_append, bind_pure]
    · rfl
  | dict entries =>
    rw [Action.specialize]
    split
    · rw [Action.eval, Action.eval,
        evalDictSegments_dictSegments meet bind space none Entries.sorted_nil
          _ _ Entries.sorted_nil]
      rfl
    · rfl
  | access container keys =>
    rcases keys with _ | ⟨key, _ | ⟨second, rest⟩⟩
    · rfl
    · rw [Action.specialize]
      split
      · next v known =>
        rw [Action.eval, Action.eval, evalOps, evalOps, Op.eval_of_constant _ _ _ known]
        simp only [pure_bind, Value.accessAll_singleton]
      · rfl
    · rfl
  | _ => rfl

/-- Specialised actions are not specialised any further. -/
theorem Action.specialize_specialize (action : Action) :
    action.specialize.specialize = action.specialize := by
  cases action with
  | binary op mode l r =>
    cases op <;> cases mode <;> simp [Action.specialize, BinaryOp.isArithmetic]
  | call callee args =>
    rw [Action.specialize]
    split
    · rfl
    · next unfixed =>
      rw [Action.specialize]
      split
      · next known positional => exact absurd positional (unfixed _ _ _ known)
      · rfl
  | list items =>
    rw [Action.specialize]
    split
    · rfl
    · next plain => rw [Action.specialize, if_neg plain]
  | dict entries =>
    rw [Action.specialize]
    split
    · rfl
    · next plain => rw [Action.specialize, if_neg plain]
  | access container keys =>
    rcases keys with _ | ⟨key, _ | ⟨second, rest⟩⟩
    · rfl
    · rw [Action.specialize]
      split
      · rfl
      · next unknown => rw [Action.specialize, unknown]
    · rfl
  | _ => rfl

/-- **A specialised operation does exactly what the operation does.** From every machine it has the
same result, or the same exception, and leaves the same machine behind, whatever its parts are,
wherever it is evaluated and however demands are met. To specialise it again changes nothing. -/
theorem Op.eval_specialize (op : Op) :
    op.specialize.eval ⟨meet, .idle, bind⟩ space = op.eval ⟨meet, .idle, bind⟩ space ∧
      op.specialize.specialize = op.specialize := by
  obtain ⟨span, action⟩ := op
  refine ⟨?_, ?_⟩
  · show located span (action.specialize.eval _ space) = located span (action.eval _ space)
    rw [Action.specialize_eval]
  · show (⟨span, action.specialize.specialize⟩ : Op) = ⟨span, action.specialize⟩
    rw [Action.specialize_specialize]

end Code

end CellScript
