import CellScript.Code.Fold
import CellScript.Eval.Lemmas
import CellScript.Memory.Lemmas

/-!
# Constants lay out no spaces

What is computed in advance creates lists, dictionaries and functions, but no spaces and so no
cells: until a program is laid out there is nothing in memory that could have a value. Nor are
arguments fixed in advance, so that all functions created are those of literals.

* `Memory.Literal` — all functions are those of literals
* `Eval.Spaceless` — steps that leave the spaces of memory as they are, and create no other
  functions
* `Code.Op.eval_spaceless` — what folding evaluates is such a step
* `Code.Op.finish_spares` — completing an operation lays out no spaces
-/

namespace CellScript

open Code

variable {α β : Type}

/-- The function does its work itself, and calls no other one with arguments that are fixed. -/
def FunctionBody.IsLiteral (b : FunctionBody) : Prop :=
  ∃ body template closure region, b = .literal body template closure region

/-- All functions are those of literals. -/
def Memory.Literal (m : Memory) : Prop := ∀ id < m.functions.size, (m.function id).body.IsLiteral

theorem Memory.Literal.newFunction {m : Memory} (h : m.Literal) {f : FunctionObject}
    (literal : f.body.IsLiteral) : (m.newFunction f).2.Literal := by
  intro id lt
  rw [function_newFunction]
  split
  · exact literal
  · next ne =>
    change id < (m.functions.push f).size at lt
    rw [Array.size_push] at lt
    exact h id (Nat.lt_of_le_of_ne (Nat.le_of_lt_succ lt) ne)

/-- Nothing was laid out or dropped in between, and no function but those of literals was
created. -/
structure Memory.Spares (m m' : Memory) : Prop where
  spaces : m'.spaces = m.spaces
  held : m'.held = m.held
  literal : m.Literal → m'.Literal

theorem Memory.Spares.refl (m : Memory) : m.Spares m := ⟨rfl, rfl, fun h => h⟩

theorem Memory.Spares.trans {m m' m'' : Memory} (h : m.Spares m')
    (h' : m'.Spares m'') : m.Spares m'' :=
  ⟨h'.spaces.trans h.spaces, h'.held.trans h.held, fun literal => h'.literal (h.literal literal)⟩

/-- A result of the step leaves the spaces of memory as they are, and comes with no functions but
those of literals. -/
def Eval.Spaceless (x : Eval α) : Prop :=
  ∀ M v M', x M = .ok v M' → M.memory.Spares M'.memory

namespace Eval.Spaceless

theorem pure (v : α) : Spaceless (Pure.pure v) := by
  rintro M _ _ ⟨⟩
  exact .refl _

theorem raise (e : Exception) : Spaceless (Eval.raise e : Eval α) := fun M v M' h => by cases h

theorem ofExcept (r : Except Exception α) : Spaceless (Eval.ofExcept r) := by
  cases r with
  | ok v => exact pure v
  | error e => exact raise e

theorem create {f : Memory → α × Memory} (spares : ∀ m : Memory, m.Spares (f m).2) :
    Spaceless (Eval.create f) := by
  rintro M _ _ ⟨⟩
  exact spares M.memory

theorem bind {x : Eval α} {f : α → Eval β} (hx : Spaceless x) (hf : ∀ v, Spaceless (f v)) :
    Spaceless (x >>= f) := by
  intro M w M'' h
  cases hr : x M with
  | ok v M' =>
    rw [Eval.bind_of_ok hr] at h
    exact (hx M v M' hr).trans (hf v M' w M'' h)
  | error e M' =>
    rw [Eval.bind_of_error hr] at h
    cases h

theorem located {x : Eval α} (h : Spaceless x) (span : Span) : Spaceless (Eval.located span x) := by
  intro M v M' ran
  unfold Eval.located at ran
  split at ran
  · cases ran
  · exact h M v M' ran

theorem forM {f : α → Eval PUnit} (as : List α) (h : ∀ v, Spaceless (f v)) :
    Spaceless (as.forM f) := by
  induction as with
  | nil => exact pure _
  | cons v rest ih => exact (h v).bind fun _ => ih

theorem newObject : Spaceless (Eval.create Memory.newObject) :=
  create fun _ => ⟨rfl, rfl, fun h => h⟩

theorem newList (items : List Value) : Spaceless (Eval.newList items) :=
  newObject.bind fun _ => pure _

theorem newDict (entries : Entries Value) : Spaceless (Eval.newDict entries) :=
  newObject.bind fun _ => pure _

theorem cast (v : Value) (ty : Ty) : Spaceless (Eval.cast v ty) :=
  newObject.bind fun _ => ofExcept _

theorem newClosure (captured : List Captured) : Spaceless (Eval.newClosure captured) := by
  refine (create fun _ => ⟨rfl, rfl, fun h => h⟩).bind fun _ =>
    (forM _ fun d => ?_).bind fun _ => pure _
  rintro M _ _ ⟨⟩
  exact ⟨rfl, rfl, fun h => h⟩

theorem newFunction {f : FunctionObject} (literal : f.body.IsLiteral) :
    Spaceless (Eval.create (·.newFunction f)) :=
  create fun _ => ⟨rfl, rfl, fun h => h.newFunction literal⟩

end Eval.Spaceless

namespace Code

open Eval (Spaceless)

mutual

/-- **The evaluation of a constant lays out no spaces.** -/
theorem Op.eval_spaceless : ∀ (op : Op) {space : SpaceId}, op.isConstant = true →
    Spaceless (op.eval Supply.none space)
  | ⟨span, action⟩, _, h => (Action.eval_spaceless action h).located span

theorem Action.eval_spaceless : ∀ (action : Action) {space : SpaceId}, action.isConstant = true →
    Spaceless (action.eval Supply.none space)
  | .constant _, _, _ => .pure _
  | .list items, _, h => by
    rw [Action.eval]
    exact (evalItems_spaceless items h).bind fun _ => .newList _
  | .patchedList segments, _, h => by
    rw [Action.eval]
    exact (evalListSegments_spaceless segments h).bind fun _ => .newList _
  | .dict entries, _, h => by
    rw [Action.eval]
    exact (evalEntries_spaceless entries [] h).bind fun _ => .newDict _
  | .mergedDict segments, _, h => by
    rw [Action.eval]
    exact (evalDictSegments_spaceless segments [] h).bind fun _ => .newDict _
  | .function params _ _ _ captures _, _, h => by
    rw [Action.isConstant, Bool.and_eq_true, List.isEmpty_iff] at h
    obtain ⟨rfl, h⟩ := h
    rw [Action.eval]
    exact (evalDefaults_spaceless params h).bind fun _ => (Spaceless.pure []).bind fun captured =>
      (Spaceless.newClosure captured).bind fun _ => .newFunction ⟨_, _, _, _, rfl⟩
  | .ifElse c t e, _, h => by
    simp only [Action.isConstant, Bool.and_eq_true] at h
    rw [Action.eval]
    refine (Op.eval_spaceless c h.1.1).bind fun _ => ?_
    split
    · exact Op.eval_spaceless t h.1.2
    · exact Op.eval_spaceless e h.2
  | .binary op _ l r, space, h => by
    simp only [Action.isConstant, Bool.and_eq_true] at h
    have left : Spaceless (l.eval Supply.none space) := Op.eval_spaceless l h.1.2
    have right : Spaceless (r.eval Supply.none space) := Op.eval_spaceless r h.2
    cases op with
    | and | or =>
      rw [Action.eval]
      refine left.bind fun _ => ?_
      split
      all_goals first
        | exact .pure _
        | exact right.bind fun _ => .pure _
    | _ =>
      simp only [Action.eval]
      exact left.bind fun _ => right.bind fun _ => .ofExcept _
  | .unary _ e, _, h => by
    rw [Action.eval]
    exact (Op.eval_spaceless e h).bind fun _ => .ofExcept _
  | .cast e _, _, h => by
    rw [Action.eval]
    exact (Op.eval_spaceless e h).bind fun _ => .cast _ _
  | .isOf e _, _, h => by
    rw [Action.eval]
    exact (Op.eval_spaceless e h).bind fun _ => .pure _
  | .fail _, _, h | .reference _ _, _, h | .call _ _, _, h | .fixedCall _ _ _, _, h
  | .curry _ _, _, h | .letIn _ _, _, h | .matchOn _ _, _, h | .forEach _ _ _, _, h
  | .access _ _, _, h | .keyAccess _ _, _, h | .tryCatch _ _ _ _ _, _, h | .throw _, _,
      h => by cases h

theorem evalItems_spaceless : ∀ (items : List Item) {space : SpaceId}, constantItems items = true →
    Spaceless (evalItems Supply.none space items)
  | [], _, _ => .pure _
  | .value op :: rest, _, h => by
    simp only [constantItems, Bool.and_eq_true] at h
    rw [evalItems]
    exact (Op.eval_spaceless op h.1).bind fun _ =>
      (evalItems_spaceless rest h.2).bind fun _ => .pure _
  | .splat op :: rest, _, h => by
    simp only [constantItems, Bool.and_eq_true] at h
    rw [evalItems]
    exact (Op.eval_spaceless op h.1).bind fun _ => (Spaceless.ofExcept _).bind fun _ =>
      (evalItems_spaceless rest h.2).bind fun _ => .pure _

theorem evalListSegments_spaceless : ∀ (segments : List ListSegment) {space : SpaceId},
    constantListSegments segments = true → Spaceless (evalListSegments Supply.none space segments)
  | [], _, _ => .pure _
  | .constant _ :: rest, _, h => by
    rw [evalListSegments]
    exact (evalListSegments_spaceless rest h).bind fun _ => .pure _
  | .value _ :: _, _, h | .splat _ :: _, _, h => by cases h

theorem evalEntries_spaceless : ∀ (entries : List Entry) (found : Entries Value) {space : SpaceId},
    constantEntries entries = true → Spaceless (evalEntries Supply.none space found entries)
  | [], _, _, _ => .pure _
  | .pair k v :: rest, _, _, h => by
    simp only [constantEntries, Bool.and_eq_true] at h
    rw [evalEntries]
    exact (Op.eval_spaceless k h.1.1).bind fun _ => (Spaceless.ofExcept _).bind fun _ =>
      (Op.eval_spaceless v h.1.2).bind fun _ => evalEntries_spaceless rest _ h.2
  | .splat op :: rest, _, _, h => by
    simp only [constantEntries, Bool.and_eq_true] at h
    rw [evalEntries]
    exact (Op.eval_spaceless op h.1).bind fun _ => (Spaceless.ofExcept _).bind fun _ =>
      evalEntries_spaceless rest _ h.2

theorem evalDictSegments_spaceless : ∀ (segments : List DictSegment) (found : Entries Value)
    {space : SpaceId}, constantDictSegments segments = true →
    Spaceless (evalDictSegments Supply.none space found segments)
  | [], _, _, _ => .pure _
  | .constant _ :: rest, _, _, h => evalDictSegments_spaceless rest _ h
  | .pair _ _ :: _, _, _, h | .dynamic _ _ :: _, _, _, h | .splat _ :: _, _, _, h => by cases h

theorem evalDefaults_spaceless : ∀ (params : List Param) {space : SpaceId},
    constantDefaults params = true → Spaceless (evalDefaults Supply.none space params)
  | [], _, _ => .pure _
  | ⟨_, _, none⟩ :: rest, _, h => by
    rw [evalDefaults]
    exact (evalDefaults_spaceless rest h).bind fun _ => .pure _
  | ⟨_, _, some op⟩ :: rest, _, h => by
    simp only [constantDefaults, Bool.and_eq_true] at h
    rw [evalDefaults]
    exact (Op.eval_spaceless op h.1).bind fun _ => (Spaceless.cast _ _).bind fun _ =>
      (evalDefaults_spaceless rest h.2).bind fun _ => .pure _

end

/-- Completing an operation lays out no spaces. -/
theorem Op.finish_spares (options : Options) (op : Op) (m : Memory) :
    m.Spares (op.finish options m).2 := by
  simp only [Op.finish]
  generalize (if options.specialize = true then op.specialize else op) = op
  split
  · unfold Op.fold
    split
    · exact .refl m
    · next folds =>
      rw [Bool.or_eq_true, not_or, Bool.not_eq_true, Bool.not_eq_true', Bool.not_eq_false] at folds
      split
      · next v machine ran => exact Op.eval_spaceless op folds.2 _ v machine ran
      · exact .refl m
  · exact .refl m

end Code

end CellScript
