import CellScript.Code.Fold
import CellScript.Proofs.Eval.Demand

/-!
# Completed operations

An operation is completed by specialising and folding it. A constant is folded by evaluating it in a
memory in which nothing is laid out yet, and the functions it creates there stay known: whatever
memory comes later, a function that stands in the code is found there, and returns what it promises.

* `Memory.Returns` — the functions of a memory, with the types of their results
* `Op.eval_returns` — a function that a constant evaluates to is one of the memory it leaves behind
* `Op.finish_ok` — a completed operation finds all it looks at
-/

namespace CellScript

open Code (ConstantOk Op)

variable {a : Analysis} {K : FunctionId → Ty → Prop} {m m' : Memory}

/-- The functions of a memory, with the types of their results. -/
def Memory.Returns (m : Memory) (id : FunctionId) (ty : Ty) : Prop :=
  id < m.functions.size ∧ (m.function id).signature.returns = ty

theorem Memory.Returns.grows {id : FunctionId} {ty : Ty} (h : m.Returns id ty) (g : m.Grows m') :
    m'.Returns id ty :=
  ⟨Nat.lt_of_lt_of_le h.1 g.functions, by rw [g.function id h.1]; exact h.2⟩

/-- Where no demand is met, none is met wrongly. -/
theorem Supply.none_serves : Supply.none.Serves a K Supply.none where
  force M _ good _ _ := ⟨rfl, good, .refl M, rfl, fun _ busy => busy⟩
  call M _ _ good _ := ⟨rfl, good, .refl M, rfl, fun _ busy => busy⟩
  bind _ _ _ good has free holds := Eval.bindCell_safe good has free holds
  denies M id _ _ _ e M' raised := by cases raised
  watch _ _ _ _ _ _ _ _ _ _ h := h

/-- What looks at nothing may be evaluated in every space. -/
theorem Machine.fits_none (M : Machine) (space : SpaceId) : M.Fits space none := trivial

/-! ## Functions among results -/

namespace Value

/-- A conversion makes no functions. -/
theorem cast_eq_function {fresh : ObjectId} {v : Value} {ty : Ty} {id : FunctionId}
    {signature : Signature} (h : v.cast fresh ty = .ok (.function id signature)) :
    v = .function id signature := by
  unfold cast at h
  split at h
  · cases h
    rfl
  · cases h
  · cases h
  · split at h
    · cases h
      rfl
    · split at h <;> first
        | cases h
        | (obtain ⟨_, he⟩ := map_eq_ok h; cases he)

/-- Operators that are computed in advance make no functions. -/
theorem binary_ne_function {op : BinaryOp} {l r : Value} {id : FunctionId} {signature : Signature}
    (foldable : Code.foldable op = true) : binary op l r ≠ .ok (.function id signature) := by
  intro h
  cases op with
  | add | sub | mul =>
    obtain ⟨o, he⟩ := map_eq_ok h
    cases o <;> cases he
  | concat =>
    change concat l r = _ at h
    unfold concat at h
    split at h
    · cases h
    · split at h <;> cases h
  | equal | notEqual | identical | notIdentical | and | or => cases h
  | div | intDiv | mod | pow | less | lessEqual | greater | greaterEqual => cases foldable

theorem unary_ne_function {op : UnaryOp} {v : Value} {id : FunctionId} {signature : Signature} :
    unary op v ≠ .ok (.function id signature) := by
  intro h
  cases op with
  | not => cases h
  | negate =>
    change neg v = _ at h
    cases v <;> cases h

end Value

theorem Code.ConstantOk.of_admits {ty : Ty} {v : Value} (h : ty.Admits v) (any : ty ≠ .any)
    (function : ty ≠ .function) : ConstantOk K v := by
  rintro id signature rfl
  rcases h with (h | h | h) | h
  · cases h
  · exact absurd h any
  · exact absurd h.symm function
  · cases h.2

namespace Code

open Eval

variable (rooted : a.Rooted)

include rooted

set_option linter.unusedSectionVars false

mutual

/-- **A function that a constant evaluates to is one of the memory it leaves behind.** -/
theorem Op.eval_returns : ∀ (op : Op) {space : SpaceId} {M : Machine}, M.Good a K →
    (∀ id ty, K id ty → M.memory.Returns id ty) → op.Ok a K none → op.isConstant = true →
    Safe a K (op.eval Supply.none space) (op.eval Supply.none space) M
      fun v M' => ConstantOk M'.memory.Returns v
  | ⟨span, action⟩, _, _, good, known, ok, constant =>
    (Action.eval_returns action good known ok constant).located span

theorem Action.eval_returns : ∀ (action : Action) {space : SpaceId} {M : Machine}, M.Good a K →
    (∀ id ty, K id ty → M.memory.Returns id ty) → action.Ok a K none → action.isConstant = true →
    Safe a K (action.eval Supply.none space) (action.eval Supply.none space) M
      fun v M' => ConstantOk M'.memory.Returns v
  | .constant v, _, _, good, known, ok, _ =>
    .pure good fun id signature h => known _ _ (ok id signature h)
  | .list items, _, _, good, _, ok, _ =>
    (Action.eval_safe Supply.none_serves rooted (.list items) good (Machine.fits_none _ _) ok).mono
      fun _ _ _ _ h => .of_admits h (fun h => (by cases h)) (fun h => (by cases h))
  | .patchedList segments, _, _, good, _, ok, _ =>
    (Action.eval_safe Supply.none_serves rooted (.patchedList segments) good
      (Machine.fits_none _ _) ok).mono
      fun _ _ _ _ h => .of_admits h (fun h => (by cases h)) (fun h => (by cases h))
  | .dict entries, _, _, good, _, ok, _ =>
    (Action.eval_safe Supply.none_serves rooted (.dict entries) good
      (Machine.fits_none _ _) ok).mono
      fun _ _ _ _ h => .of_admits h (fun h => (by cases h)) (fun h => (by cases h))
  | .mergedDict segments, _, _, good, _, ok, _ =>
    (Action.eval_safe Supply.none_serves rooted (.mergedDict segments) good
      (Machine.fits_none _ _) ok).mono
      fun _ _ _ _ h => .of_admits h (fun h => (by cases h)) (fun h => (by cases h))
  | .function params returns body template captures region, space, M, good, known, ok,
      constant => by
    obtain ⟨hp, n, inner, kind, hTemplate, types, hBody, plans⟩ := ok
    rw [Action.eval]
    refine (evalDefaults_safe Supply.none_serves rooted params good (Machine.fits_none _ _) hp).bind
      fun defaults M₁ good₁ grows₁ length => ?_
    refine (captureAll_safe Supply.none_serves rooted plans good₁ (Machine.fits_none _ _)).bind
      fun captured M₂ good₂ grows₂ all => ?_
    refine (newClosure_safe good₂ all).bind fun closure M₃ good₃ grows₃ closes => ?_
    refine .create (good₃.stepSame (Memory.grows_newFunction _ _) (good₃.memory.newFunction ?_) rfl
      (fun _ => rfl) (fun _ _ _ found => found) rfl) fun id signature h => ?_
    · refine ⟨n, inner, kind, hTemplate, hBody, ?_, closes, by simpa using length⟩
      rw [types]
      simp
    · cases h
      refine ⟨?_, ?_⟩
      · show M₃.memory.functions.size < (M₃.memory.functions.push _).size
        rw [Array.size_push]
        exact Nat.lt_succ_self _
      · rw [Memory.function_newFunction, if_pos rfl]
  | .ifElse c t e, _, _, good, known, ok, constant => by
    simp only [Action.isConstant, Bool.and_eq_true] at constant
    rw [Action.eval]
    refine (Op.eval_safe Supply.none_serves rooted c good (Machine.fits_none _ _) ok.1).bind
      fun v M₁ good₁ grows₁ _ => ?_
    have known₁ := fun id ty h => (known id ty h).grows grows₁.memory
    split
    · exact Op.eval_returns t good₁ known₁ ok.2.1 constant.1.2
    · exact Op.eval_returns e good₁ known₁ ok.2.2 constant.2
  | .binary op mode l r, space, M, good, _, ok, constant => by
    simp only [Action.isConstant, Bool.and_eq_true] at constant
    have left := Op.eval_safe Supply.none_serves rooted l good (Machine.fits_none M space) ok.1
    have right : ∀ {M' : Machine}, M'.Good a K → _ := fun {M'} good' =>
      Op.eval_safe Supply.none_serves rooted r good' (Machine.fits_none M' space) ok.2
    cases op with
    | and =>
      rw [Action.eval]
      refine left.bind fun v M₁ good₁ _ _ => ?_
      split
      · exact (right good₁).bind fun w _ good₂ _ _ => .pure good₂ fun _ _ h => by cases h
      · exact .pure good₁ fun _ _ h => by cases h
    | or =>
      rw [Action.eval]
      refine left.bind fun v M₁ good₁ _ _ => ?_
      split
      · exact .pure good₁ fun _ _ h => by cases h
      · exact (right good₁).bind fun w _ good₂ _ _ => .pure good₂ fun _ _ h => by cases h
    | _ =>
      simp only [Action.eval]
      refine left.bind fun v M₁ good₁ _ _ => ?_
      refine (right good₁).bind fun w M₂ good₂ _ _ => ?_
      rw [Value.binaryIn_eq]
      refine .ofExcept good₂ (Value.binary_orderly _ v w) ?_
      rintro _ h id signature rfl
      exact absurd h (Value.binary_ne_function constant.1.1)
  | .unary op e, _, _, good, _, ok, _ => by
    rw [Action.eval]
    refine (Op.eval_safe Supply.none_serves rooted e good (Machine.fits_none _ _) ok).bind
      fun v M₁ good₁ _ _ => ?_
    refine .ofExcept good₁ (Value.unary_orderly op v) ?_
    rintro _ h id signature rfl
    exact absurd h Value.unary_ne_function
  | .cast e ty, _, _, good, known, ok, constant => by
    rw [Action.eval]
    refine (Op.eval_returns e good known ok constant).bind fun v M₁ good₁ _ hv => ?_
    unfold Eval.cast
    have step := good₁.stepSame (Memory.grows_newObject _) good₁.memory.newObject rfl (fun _ => rfl)
      (fun _ _ _ found => found) rfl
    refine Safe.created step fun good₂ => ?_
    refine .ofExcept good₂ (Value.cast_orderly _ v ty) ?_
    rintro _ h id signature rfl
    exact (hv id signature (Value.cast_eq_function h)).grows step.grows.memory
  | .isOf e ty, _, _, good, _, ok, _ => by
    rw [Action.eval]
    refine (Op.eval_safe Supply.none_serves rooted e good (Machine.fits_none _ _) ok).bind
      fun v M₁ good₁ _ _ => ?_
    exact .pure good₁ fun _ _ h => by cases h
  | .fail _, _, _, _, _, _, h | .reference _ _, _, _, _, _, _, h | .call _ _, _, _, _, _, _, h
  | .fixedCall _ _ _, _, _, _, _, _, h | .curry _ _, _, _, _, _, _, h | .letIn _ _, _, _, _, _, _, h
  | .matchOn _ _, _, _, _, _, _, h | .forEach _ _ _, _, _, _, _, _, h | .access _ _,
      _, _, _, _, _, h
  | .keyAccess _ _, _, _, _, _, _, h | .tryCatch _ _ _ _ _, _, _, _, _, _, h
  | .throw _, _, _, _, _, _, h => by cases h

end

end Code

/-! ## What is known whatever comes later -/

variable {P : (FunctionId → Ty → Prop) → Prop} {σ : Option ScopeId}

/-- The fact holds whatever functions are known besides those of the memory. -/
def Memory.Settles (m : Memory) (P : (FunctionId → Ty → Prop) → Prop) : Prop :=
  ∀ K, (∀ id ty, m.Returns id ty → K id ty) → P K

theorem Memory.Settles.grows (h : m.Settles P) (g : m.Grows m') : m'.Settles P :=
  fun K known => h K fun id ty returns => known id ty (returns.grows g)

/-- A memory in which nothing is asked for yet. -/
theorem MemoryGood.detached (h : MemoryGood a K m) : Machine.Good a K ⟨m, .detached⟩ :=
  ⟨⟨h.toMemoryOk, fun _ hd => (by cases hd), fun _ hu => (by cases hu)⟩, h.waits,
    fun _ hd => (by cases hd)⟩

namespace Code

/-- A memory and an operation that agree with analysis, whatever comes later, replace others from an
earlier time. -/
structure Completes (a : Analysis) (σ : Option ScopeId) (m : Memory) (op : Op)
    (m' : Memory) : Prop where
  grows : m.Grows m'
  fresh : ∀ id, m.spaces.size ≤ id.space → m'.HasCell id → (m'.cell id).shape.members = none
  memory : m'.Settles (MemoryGood a · m')
  op : m'.Settles (op.Ok a · σ)

theorem Completes.same {op : Op} (memory : m.Settles (MemoryGood a · m))
    (ok : m.Settles (op.Ok a · σ)) :
    Completes a σ m op m :=
  ⟨.refl m, fun _ new has => absurd has.1 (Nat.not_lt_of_le new), memory, ok⟩

theorem Op.fold_completes (rooted : a.Rooted) {op : Op} (memory : m.Settles (MemoryGood a · m))
    (ok : m.Settles (op.Ok a · σ)) : Completes a σ m (op.fold m).1 (op.fold m).2 := by
  have same : Completes a σ m op m := .same memory ok
  unfold fold
  split
  · exact same
  · next open' =>
    rw [Bool.or_eq_true, not_or, Bool.not_eq_true, Bool.not_eq_true', Bool.not_eq_false] at open'
    -- Evaluation is safe for all that may become known later, and meanwhile for what is known now.
    have safe := fun K known => Op.eval_safe Supply.none_serves rooted op (memory K known).detached
      (Machine.fits_none _ Memory.detachedSpace) (detachOp op (ok K known) open'.2)
    have here := fun id ty (h : m.Returns id ty) => h
    have returns := @Op.eval_returns _ _ rooted op Memory.detachedSpace _
      (memory _ here).detached here (detachOp op (ok _ here) open'.2) open'.2
    cases he : op.eval Supply.none Memory.detachedSpace ⟨m, .detached⟩ with
    | error stop machine => exact same
    | ok v machine =>
      have outcome := returns.2
      rw [he] at outcome
      have grows := outcome.1.grows.memory
      refine ⟨grows, outcome.1.grows.fresh, fun K known => ?_, fun K known id signature hv => ?_⟩
      · have later := (safe K fun id ty h => known id ty (h.grows grows)).2
        rw [he] at later
        exact later.1.good.memoryGood
      · exact known _ _ (outcome.2 id signature hv)

/-- **A completed operation finds all it looks at.** -/
theorem Op.finish_completes (rooted : a.Rooted) {op : Op} (options : Options)
    (memory : m.Settles (MemoryGood a · m)) (ok : m.Settles (op.Ok a · σ)) :
    Completes a σ m (op.finish options m).1 (op.finish options m).2 := by
  have narrow : m.Settles ((if options.specialize = true then op.specialize else op).Ok a · σ) := by
    intro K known
    split
    · exact (ok K known).specialize
    · exact ok K known
  simp only [finish]
  generalize (if options.specialize = true then op.specialize else op) = op at narrow
  split
  · exact Op.fold_completes rooted memory narrow
  · exact .same memory narrow

end Code

end CellScript
