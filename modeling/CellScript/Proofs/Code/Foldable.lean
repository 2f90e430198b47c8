import CellScript.Code.Fold
import CellScript.Eval.Lemmas
import CellScript.Memory.Lemmas
import CellScript.Proofs.Code.Specialized
import CellScript.Proofs.Value.Alike

/-!
# Constants may be computed anywhere

A constant operation looks at nothing but itself. Evaluated at two machines, whatever their spaces,
their stacks and the demands that they could make, it gives values that are alike, or the same
exception, and all it leaves behind are the lists, dictionaries and functions that it has created.
So it may be computed in advance.

* `Machine.Creates` — nothing but lists, dictionaries and functions without captures was created
* `Eval.Lockstep` — steps that create alike things and end alike
* `Code.Op.eval_lockstep` — constants do
* `Code.Op.fold_sound` — constants may be computed anywhere, and in advance
-/

namespace CellScript

open Code

variable {α β γ δ : Type}

/-! ## What constants create -/

/-- What constants refer to is there, and stays as it was. -/
structure Memory.Retains (m m' : Memory) : Prop where
  objects : m.objects ≤ m'.objects
  functions : m.functions.size ≤ m'.functions.size
  function : ∀ id < m.functions.size, m'.function id = m.function id
  closures : m.closures.size ≤ m'.closures.size
  closure : ∀ id < m.closures.size, m.closure id = [] → m'.closure id = []

/-- Nothing has happened but that lists, dictionaries and functions without captures were
created. -/
structure Machine.Creates (M M' : Machine) : Prop where
  context : M'.context = M.context
  spaces : M'.memory.spaces = M.memory.spaces
  sites : M'.memory.sites = M.memory.sites
  pins : M'.memory.pins = M.memory.pins
  objects : M.memory.objects ≤ M'.memory.objects
  functions : M.memory.functions.size ≤ M'.memory.functions.size
  function : ∀ id < M.memory.functions.size, M'.memory.function id = M.memory.function id
  closures : M.memory.closures.size ≤ M'.memory.closures.size
  closure : ∀ id < M.memory.closures.size, M'.memory.closure id = M.memory.closure id

theorem Machine.Creates.refl (M : Machine) : M.Creates M :=
  ⟨rfl, rfl, rfl, rfl, Nat.le_refl _, Nat.le_refl _, fun _ _ => rfl, Nat.le_refl _, fun _ _ => rfl⟩

theorem Machine.Creates.trans {M M' M'' : Machine} (h : M.Creates M') (h' : M'.Creates M'') :
    M.Creates M'' where
  context := h'.context.trans h.context
  spaces := h'.spaces.trans h.spaces
  sites := h'.sites.trans h.sites
  pins := h'.pins.trans h.pins
  objects := Nat.le_trans h.objects h'.objects
  functions := Nat.le_trans h.functions h'.functions
  function id lt := (h'.function id (Nat.lt_of_lt_of_le lt h.functions)).trans (h.function id lt)
  closures := Nat.le_trans h.closures h'.closures
  closure id lt := (h'.closure id (Nat.lt_of_lt_of_le lt h.closures)).trans (h.closure id lt)

theorem Machine.Creates.retains {M M' : Machine} (h : M.Creates M') : M.memory.Retains M'.memory :=
  ⟨h.objects, h.functions, h.function, h.closures, fun id lt empty => (h.closure id lt).trans empty⟩

theorem Memory.Retains.trans {m m' m'' : Memory} (h : m.Retains m') (h' : m'.Retains m'') :
    m.Retains m'' where
  objects := Nat.le_trans h.objects h'.objects
  functions := Nat.le_trans h.functions h'.functions
  function id lt := (h'.function id (Nat.lt_of_lt_of_le lt h.functions)).trans (h.function id lt)
  closures := Nat.le_trans h.closures h'.closures
  closure id lt empty := h'.closure id (Nat.lt_of_lt_of_le lt h.closures) (h.closure id lt empty)

/-- Functions of two memories are alike: they do the same and have captured nothing. -/
def FunctionObject.Alike (I : Identities) (m n : Memory) (f g : FunctionObject) : Prop :=
  f.signature = g.signature ∧ Value.AlikeItems I f.defaults g.defaults ∧
    ∃ body template c d region, f.body = .literal body template c region ∧
      g.body = .literal body template d region ∧ (c < m.closures.size ∧ m.closure c = []) ∧
      d < n.closures.size ∧ n.closure d = []

theorem FunctionObject.Alike.later {I : Identities} {m n m' n' : Memory} {f g : FunctionObject}
    (h : f.Alike I m n g) (left : m.Retains m') (right : n.Retains n') : f.Alike I m' n' g := by
  obtain ⟨signature, defaults, body, template, c, d, region, hf, hg, ⟨lt, empty⟩, lt', empty'⟩ := h
  exact ⟨signature, defaults, body, template, c, d, region, hf, hg,
    ⟨Nat.lt_of_lt_of_le lt left.closures, left.closure c lt empty⟩,
    Nat.lt_of_lt_of_le lt' right.closures, right.closure d lt' empty'⟩

/-- Numbers that are known stand for themselves, and what is next in one count for what is next in
the other. -/
def Twins (known m n i j : Nat) : Prop := i = j ∧ i < known ∨ ∃ k, i = m + k ∧ j = n + k

theorem Twins.iff {known m n i i' j j' : Nat} (left : known ≤ m) (right : known ≤ n)
    (h : Twins known m n i j) (h' : Twins known m n i' j') : i = i' ↔ j = j' := by
  rcases h with ⟨rfl, lt⟩ | ⟨k, rfl, rfl⟩ <;> rcases h' with ⟨rfl, lt'⟩ | ⟨k', rfl, rfl⟩ <;> omega

/-- The identities that a memory knows stand for themselves, and what is created next in one memory
for what is created next in the other. -/
def Memory.twins (known m n : Memory) : Identities where
  objects := Twins known.objects m.objects n.objects
  functions := Twins known.functions.size m.functions.size n.functions.size

/-- Identities stand for each other one to one, if both memories know what is known. -/
theorem Memory.twins_oneToOne {known m n : Memory} (left : known.Retains m)
    (right : known.Retains n) :
    (known.twins m n).OneToOne :=
  ⟨Twins.iff left.objects right.objects, Twins.iff left.functions right.functions⟩

/-- Later machines: two evaluations that began at `M₀` and `N₀` have created alike things so far. -/
structure Machine.Abreast (known : Memory) (M₀ N₀ M N : Machine) : Prop where
  left : M₀.Creates M
  right : N₀.Creates N
  objects : ∃ k, M.memory.objects = M₀.memory.objects + k ∧ N.memory.objects = N₀.memory.objects + k
  functions : ∃ k, M.memory.functions.size = M₀.memory.functions.size + k ∧
    N.memory.functions.size = N₀.memory.functions.size + k
  alike : ∀ k, M₀.memory.functions.size + k < M.memory.functions.size →
    FunctionObject.Alike (known.twins M₀.memory N₀.memory) M.memory N.memory
      (M.memory.function (M₀.memory.functions.size + k))
      (N.memory.function (N₀.memory.functions.size + k))

theorem Machine.Abreast.refl (known : Memory) (M N : Machine) : Machine.Abreast known M N M N :=
  ⟨.refl M, .refl N, ⟨0, rfl, rfl⟩, ⟨0, rfl, rfl⟩, fun k lt => absurd lt (by omega)⟩

/-- Two steps have ended alike. -/
inductive Eval.EndAlike (known : Memory) (M₀ N₀ : Machine) (R : α → β → Prop) :
    EStateM.Result Stop Machine α → EStateM.Result Stop Machine β → Prop
  | ok {v : α} {w : β} {M N : Machine} (h : R v w) (abreast : Machine.Abreast known M₀ N₀ M N) :
      EndAlike known M₀ N₀ R (.ok v M) (.ok w N)
  | error {M N : Machine} (e : Exception) (abreast : Machine.Abreast known M₀ N₀ M N) :
      EndAlike known M₀ N₀ R (.error (.raised e) M) (.error (.raised e) N)

/-- The steps create alike things and end alike. -/
def Eval.Lockstep (known : Memory) (M₀ N₀ : Machine) (R : α → β → Prop) (x : Eval α) (y : Eval β) :
    Prop :=
  ∀ M N, Machine.Abreast known M₀ N₀ M N → EndAlike known M₀ N₀ R (x M) (y N)

namespace Eval.Lockstep

variable {known : Memory} {M₀ N₀ : Machine} {R : α → β → Prop} {S : γ → δ → Prop}

theorem pure {v : α} {w : β} (h : R v w) : Lockstep known M₀ N₀ R (Pure.pure v) (Pure.pure w) :=
  fun _ _ abreast => .ok h abreast

theorem ofExcept {x : Except Exception α} {y : Except Exception β} (h : BothEnd R x y) :
    Lockstep known M₀ N₀ R (Eval.ofExcept x) (Eval.ofExcept y) := by
  intro M N abreast
  cases h with
  | ok h => exact .ok h abreast
  | error e => exact .error e abreast

theorem bind {x : Eval α} {y : Eval β} {f : α → Eval γ} {g : β → Eval δ}
    (hx : Lockstep known M₀ N₀ R x y) (hf : ∀ v w, R v w → Lockstep known M₀ N₀ S (f v) (g w)) :
    Lockstep known M₀ N₀ S (x >>= f) (y >>= g) := by
  intro M N abreast
  have first := hx M N abreast
  generalize hr : x M = r at first
  generalize hs : y N = s at first
  cases first with
  | ok h abreast' =>
    rw [Eval.bind_of_ok hr, Eval.bind_of_ok hs]
    exact hf _ _ h _ _ abreast'
  | error e abreast' =>
    rw [Eval.bind_of_error hr, Eval.bind_of_error hs]
    exact .error e abreast'

theorem located {x : Eval α} {y : Eval β} (h : Lockstep known M₀ N₀ R x y) (span : Span) :
    Lockstep known M₀ N₀ R (Eval.located span x) (Eval.located span y) := by
  intro M N abreast
  have ends := h M N abreast
  generalize hr : x M = r at ends
  generalize hs : y N = s at ends
  cases ends with
  | ok h abreast' =>
    rw [Eval.located_of_ok hr, Eval.located_of_ok hs]
    exact .ok h abreast'
  | error e abreast' =>
    rw [Eval.located_of_raised hr, Eval.located_of_raised hs]
    exact .error _ abreast'

theorem newObject : Lockstep known M₀ N₀ (known.twins M₀.memory N₀.memory).objects
    (Eval.create Memory.newObject) (Eval.create Memory.newObject) := by
  intro M N abreast
  obtain ⟨k, hk, hk'⟩ := abreast.objects
  have creates : ∀ M : Machine, M.Creates { M with memory := M.memory.newObject.2 } := fun M =>
    ⟨rfl, rfl, rfl, rfl, Nat.le_succ _, Nat.le_refl _, fun _ _ => rfl, Nat.le_refl _,
      fun _ _ => rfl⟩
  exact .ok (.inr ⟨k, hk, hk'⟩) ⟨abreast.left.trans (creates M), abreast.right.trans (creates N),
    ⟨k + 1, congrArg (· + 1) hk, congrArg (· + 1) hk'⟩, abreast.functions, abreast.alike⟩

theorem newList {xs ys : List Value}
    (h : Value.AlikeItems (known.twins M₀.memory N₀.memory) xs ys) :
    Lockstep known M₀ N₀ (Value.Alike (known.twins M₀.memory N₀.memory)) (Eval.newList xs)
      (Eval.newList ys) :=
  newObject.bind fun _ _ same => .pure (.list same h)

theorem newDict {xs ys : Entries Value}
    (h : Value.AlikeEntries (known.twins M₀.memory N₀.memory) xs ys) :
    Lockstep known M₀ N₀ (Value.Alike (known.twins M₀.memory N₀.memory)) (Eval.newDict xs)
      (Eval.newDict ys) :=
  newObject.bind fun _ _ same => .pure (.dict same h)

theorem cast {v w : Value} (h : v.Alike (known.twins M₀.memory N₀.memory) w) (ty : Ty) :
    Lockstep known M₀ N₀ (Value.Alike (known.twins M₀.memory N₀.memory)) (Eval.cast v ty)
      (Eval.cast w ty) :=
  newObject.bind fun _ _ same => .ofExcept (Value.cast_alike h same ty)

/-- A function without captures. -/
theorem newFunction {signature : Signature} {vs ws : List Value}
    (h : Value.AlikeItems (known.twins M₀.memory N₀.memory) vs ws) (body : Op) (template : Template)
    (region : Span) :
    Lockstep known M₀ N₀ (Value.Alike (known.twins M₀.memory N₀.memory))
      (do
        let closure ← Eval.newClosure []
        Eval.create (·.newFunction ⟨signature, vs, .literal body template closure region⟩))
      (do
        let closure ← Eval.newClosure []
        Eval.create (·.newFunction ⟨signature, ws, .literal body template closure region⟩)) := by
  intro M N abreast
  obtain ⟨k, hk, hk'⟩ := abreast.functions
  -- The machine after both steps.
  have run : ∀ (M : Machine) (vs : List Value), (do
        let closure ← Eval.newClosure []
        Eval.create (·.newFunction ⟨signature, vs, .literal body template closure region⟩)) M =
      .ok (.function M.memory.functions.size signature) { M with memory :=
        ((M.memory.newClosure []).2.newFunction
          ⟨signature, vs, .literal body template M.memory.closures.size region⟩).2 } :=
          fun _ _ => rfl
  have creates : ∀ (M : Machine) (f : FunctionObject), M.Creates { M with memory :=
      ((M.memory.newClosure []).2.newFunction f).2 } := by
    intro M f
    refine ⟨rfl, rfl, rfl, rfl, Nat.le_refl _, ?_, fun id lt => ?_, ?_, fun id lt => ?_⟩
    · show _ ≤ (M.memory.functions.push f).size
      rw [Array.size_push]
      exact Nat.le_succ _
    · rw [Memory.function_newFunction]
      exact if_neg (Nat.ne_of_lt lt)
    · show _ ≤ (M.memory.closures.push []).size
      rw [Array.size_push]
      exact Nat.le_succ _
    · show (M.memory.newClosure []).2.closure id = _
      rw [Memory.closure_newClosure, if_neg (Nat.ne_of_lt lt)]
  rw [run, run]
  refine .ok (.function _ (.inr ⟨k, hk, hk'⟩)) ⟨abreast.left.trans (creates M _),
    abreast.right.trans (creates N _), abreast.objects, ⟨k + 1, ?_, ?_⟩, fun l lt => ?_⟩
  · show (M.memory.functions.push _).size = _
    rw [Array.size_push, hk, Nat.add_assoc]
  · show (N.memory.functions.push _).size = _
    rw [Array.size_push, hk', Nat.add_assoc]
  · show FunctionObject.Alike _ _ _ (Memory.function _ (M₀.memory.functions.size + l))
      (Memory.function _ (N₀.memory.functions.size + l))
    rw [Memory.function_newFunction, Memory.function_newFunction]
    show FunctionObject.Alike _ _ _ (if _ = M.memory.functions.size then _ else M.memory.function _)
      (if _ = N.memory.functions.size then _ else N.memory.function _)
    by_cases new : l = k
    · rw [if_pos (by omega), if_pos (by omega)]
      refine ⟨rfl, h, body, template, _, _, region, rfl, rfl, ⟨?_, ?_⟩, ?_, ?_⟩
      · exact Nat.lt_of_lt_of_eq (Nat.lt_succ_self _) (Array.size_push ..).symm
      · exact (Memory.closure_newClosure ..).trans (if_pos rfl)
      · exact Nat.lt_of_lt_of_eq (Nat.lt_succ_self _) (Array.size_push ..).symm
      · exact (Memory.closure_newClosure ..).trans (if_pos rfl)
    · have old : M₀.memory.functions.size + l < M.memory.functions.size := by
        have lt : _ < (M.memory.functions.push _).size := lt
        rw [Array.size_push] at lt
        omega
      rw [if_neg (by omega), if_neg (by omega)]
      exact (abreast.alike l old).later (creates M _).retains (creates N _).retains

end Eval.Lockstep

/-! ## Constants -/

/-- What the memory knows, and nothing else. -/
def Memory.identities (m : Memory) : Identities where
  objects i j := i = j ∧ i < m.objects
  functions f g := f = g ∧ f < m.functions.size

/-- All identities in the value are known. -/
def Value.Known (m : Memory) (v : Value) : Prop := v.Alike m.identities v

theorem Memory.identities_le_twins (known m n : Memory) : known.identities.Le (known.twins m n) :=
  ⟨fun _ _ h => .inl h, fun _ _ h => .inl h⟩

namespace Code

section Known

variable (m : Memory)

mutual

/-- All identities in what a constant is made of are known. -/
def Op.Known : Op → Prop
  | ⟨_, action⟩ => action.Known

def Action.Known : Action → Prop
  | .constant v => v.Known m
  | .list items => KnownItems items
  | .patchedList segments => KnownListSegments segments
  | .dict entries => KnownEntries entries
  | .mergedDict segments => KnownDictSegments segments
  | .function params _ _ _ _ _ => KnownDefaults params
  | .ifElse c t e => c.Known ∧ t.Known ∧ e.Known
  | .binary _ _ l r => l.Known ∧ r.Known
  | .unary _ e => e.Known
  | .cast e _ => e.Known
  | .isOf e _ => e.Known
  | .fail _ | .reference _ _ | .call _ _ | .fixedCall _ _ _ | .curry _ _ | .letIn _ _ | .matchOn _ _
  | .forEach _ _ _ | .access _ _ | .keyAccess _ _ | .tryCatch _ _ _ _ _ | .throw _ => True

def KnownItems : List Item → Prop
  | [] => True
  | .value op :: rest => op.Known ∧ KnownItems rest
  | .splat op :: rest => op.Known ∧ KnownItems rest

def KnownListSegments : List ListSegment → Prop
  | [] => True
  | .constant run :: rest => Value.AlikeItems m.identities run run ∧ KnownListSegments rest
  | .value _ :: _ => True
  | .splat _ :: _ => True

def KnownEntries : List Entry → Prop
  | [] => True
  | .pair k v :: rest => k.Known ∧ v.Known ∧ KnownEntries rest
  | .splat op :: rest => op.Known ∧ KnownEntries rest

def KnownDictSegments : List DictSegment → Prop
  | [] => True
  | .constant run :: rest => Value.AlikeEntries m.identities run run ∧ KnownDictSegments rest
  | .pair _ _ :: _ => True
  | .dynamic _ _ :: _ => True
  | .splat _ :: _ => True

def KnownDefaults : List Param → Prop
  | [] => True
  | ⟨_, _, none⟩ :: rest => KnownDefaults rest
  | ⟨_, _, some op⟩ :: rest => op.Known ∧ KnownDefaults rest

end

end Known

section Lockstep

open Eval (Lockstep)

variable {known : Memory} {M₀ N₀ : Machine} (left : known.Retains M₀.memory)
  (right : known.Retains N₀.memory) (meet meet' : Demand → Eval Value)
  (bind bind' : CellId → Value → Eval PUnit) (space space' : SpaceId)

include left right

set_option linter.unusedSectionVars false

mutual

/-- **Wherever constants are evaluated, they create alike things and end alike.** -/
theorem Op.eval_lockstep : ∀ op : Op, op.isConstant = true → op.Known known →
    Lockstep known M₀ N₀ (Value.Alike (known.twins M₀.memory N₀.memory))
      (op.eval ⟨meet, .idle, bind⟩ space) (op.eval ⟨meet', .idle, bind'⟩ space')
  | ⟨span, action⟩, h, k => (Action.eval_lockstep action h k).located span

theorem Action.eval_lockstep : ∀ action : Action, action.isConstant = true → action.Known known →
    Lockstep known M₀ N₀ (Value.Alike (known.twins M₀.memory N₀.memory))
      (action.eval ⟨meet, .idle, bind⟩ space) (action.eval ⟨meet', .idle, bind'⟩ space')
  | .constant v, _, k => .pure (k.mono (known.identities_le_twins _ _))
  | .list items, h, k => by
    rw [Action.eval, Action.eval]
    exact (evalItems_lockstep items h k).bind fun _ _ same => .newList same
  | .patchedList segments, h, k => by
    rw [Action.eval, Action.eval]
    exact (evalListSegments_lockstep segments h k).bind fun _ _ same => .newList same
  | .dict entries, h, k => by
    rw [Action.eval, Action.eval]
    exact (evalEntries_lockstep entries h k _ _ .nil).bind fun _ _ same => .newDict same
  | .mergedDict segments, h, k => by
    rw [Action.eval, Action.eval]
    exact (evalDictSegments_lockstep segments h k _ _ .nil).bind fun _ _ same => .newDict same
  | .function params _ body template captures region, h, k => by
    rw [Action.isConstant, Bool.and_eq_true, List.isEmpty_iff] at h
    obtain ⟨rfl, h⟩ := h
    rw [Action.eval, Action.eval]
    exact (evalDefaults_lockstep params h k).bind fun _ _ same =>
      .newFunction same body template region
  | .ifElse c t e, h, k => by
    simp only [Action.isConstant, Bool.and_eq_true] at h
    obtain ⟨kc, kt, ke⟩ := k
    rw [Action.eval, Action.eval]
    refine (Op.eval_lockstep c h.1.1 kc).bind fun v w same => ?_
    rw [same.truthy]
    split
    · exact Op.eval_lockstep t h.1.2 kt
    · exact Op.eval_lockstep e h.2 ke
  | .binary op mode l r, h, k => by
    simp only [Action.isConstant, Bool.and_eq_true] at h
    have first := Op.eval_lockstep l h.1.2 k.1
    have second := Op.eval_lockstep r h.2 k.2
    have binary := fun {a a' b b' : Value} (ha : a.Alike _ a') (hb : b.Alike _ b') =>
      Value.binary_alike op (fun _ => Memory.twins_oneToOne left right) ha hb
    cases op with
    | and | or =>
      rw [Action.eval, Action.eval]
      refine first.bind fun v w same => ?_
      rw [same.truthy]
      split
      all_goals first
        | exact .pure (.scalar trivial)
        | exact second.bind fun v w same => .pure (by rw [same.truthy]; exact .scalar trivial)
    | _ =>
      simp only [Action.eval, Value.binaryIn_eq]
      exact first.bind fun _ _ ha => second.bind fun _ _ hb => .ofExcept (binary ha hb)
  | .unary op e, h, k => by
    rw [Action.eval, Action.eval]
    exact (Op.eval_lockstep e h k).bind fun _ _ same => .ofExcept (Value.unary_alike op same)
  | .cast e ty, h, k => by
    rw [Action.eval, Action.eval]
    exact (Op.eval_lockstep e h k).bind fun _ _ same => .cast same ty
  | .isOf e ty, h, k => by
    rw [Action.eval, Action.eval]
    exact (Op.eval_lockstep e h k).bind fun _ _ same =>
      .pure (by rw [same.isOf]; exact .scalar trivial)
  | .fail _, h, _ | .reference _ _, h, _ | .call _ _, h, _ | .fixedCall _ _ _, h, _
  | .curry _ _, h, _ | .letIn _ _, h, _ | .matchOn _ _, h, _ | .forEach _ _ _, h, _
  | .access _ _, h, _ | .keyAccess _ _, h, _ | .tryCatch _ _ _ _ _, h, _ | .throw _, h,
      _ => by cases h

theorem evalItems_lockstep : ∀ items : List Item, constantItems items = true →
    KnownItems known items →
      Lockstep known M₀ N₀ (Value.AlikeItems (known.twins M₀.memory N₀.memory))
        (evalItems ⟨meet, .idle, bind⟩ space items) (evalItems ⟨meet', .idle, bind'⟩ space' items)
  | [], _, _ => .pure .nil
  | .value op :: rest, h, k => by
    simp only [constantItems, Bool.and_eq_true] at h
    rw [evalItems, evalItems]
    exact (Op.eval_lockstep op h.1 k.1).bind fun _ _ first =>
      (evalItems_lockstep rest h.2 k.2).bind fun _ _ rest => .pure (.cons first rest)
  | .splat op :: rest, h, k => by
    simp only [constantItems, Bool.and_eq_true] at h
    rw [evalItems, evalItems]
    exact (Op.eval_lockstep op h.1 k.1).bind fun _ _ same =>
      (Lockstep.ofExcept (Value.spreadItems_alike same)).bind fun _ _ first =>
        (evalItems_lockstep rest h.2 k.2).bind fun _ _ rest => .pure (first.append rest)

theorem evalListSegments_lockstep : ∀ segments : List ListSegment,
    constantListSegments segments = true → KnownListSegments known segments →
    Lockstep known M₀ N₀ (Value.AlikeItems (known.twins M₀.memory N₀.memory))
      (evalListSegments ⟨meet, .idle, bind⟩ space segments)
      (evalListSegments ⟨meet', .idle, bind'⟩ space' segments)
  | [], _, _ => .pure .nil
  | .constant run :: rest, h, k => by
    rw [evalListSegments, evalListSegments]
    exact (evalListSegments_lockstep rest h k.2).bind fun _ _ rest =>
      .pure ((k.1.mono (known.identities_le_twins _ _)).append rest)
  | .value _ :: _, h, _ | .splat _ :: _, h, _ => by cases h

theorem evalEntries_lockstep : ∀ entries : List Entry, constantEntries entries = true →
    KnownEntries known entries → ∀ es fs : Entries Value,
    Value.AlikeEntries (known.twins M₀.memory N₀.memory) es fs →
    Lockstep known M₀ N₀ (Value.AlikeEntries (known.twins M₀.memory N₀.memory))
      (evalEntries ⟨meet, .idle, bind⟩ space es entries)
      (evalEntries ⟨meet', .idle, bind'⟩ space' fs entries)
  | [], _, _, _, _, same => .pure same
  | .pair k v :: rest, h, known', es, fs, same => by
    simp only [constantEntries, Bool.and_eq_true] at h
    rw [evalEntries, evalEntries]
    refine (Op.eval_lockstep k h.1.1 known'.1).bind fun key key' sameKey => ?_
    rw [sameKey.toKey]
    refine (Lockstep.ofExcept (BothEnd.same (fun _ => rfl) _)).bind fun key key' hkey => ?_
    subst hkey
    exact (Op.eval_lockstep v h.1.2 known'.2.1).bind fun _ _ first =>
      evalEntries_lockstep rest h.2 known'.2.2 _ _ (same.insert key first)
  | .splat op :: rest, h, known', es, fs, same => by
    simp only [constantEntries, Bool.and_eq_true] at h
    rw [evalEntries, evalEntries]
    exact (Op.eval_lockstep op h.1 known'.1).bind fun _ _ first =>
      (Lockstep.ofExcept (Value.spreadEntries_alike first)).bind fun _ _ more =>
        evalEntries_lockstep rest h.2 known'.2 _ _ (same.merge more)

theorem evalDictSegments_lockstep : ∀ segments : List DictSegment,
    constantDictSegments segments = true → KnownDictSegments known segments →
    ∀ es fs : Entries Value, Value.AlikeEntries (known.twins M₀.memory N₀.memory) es fs →
    Lockstep known M₀ N₀ (Value.AlikeEntries (known.twins M₀.memory N₀.memory))
      (evalDictSegments ⟨meet, .idle, bind⟩ space es segments)
      (evalDictSegments ⟨meet', .idle, bind'⟩ space' fs segments)
  | [], _, _, _, _, same => .pure same
  | .constant run :: rest, h, k, es, fs, same => by
    rw [evalDictSegments, evalDictSegments]
    exact evalDictSegments_lockstep rest h k.2 _ _
      (same.merge (k.1.mono (known.identities_le_twins _ _)))
  | .pair _ _ :: _, h, _, _, _, _ | .dynamic _ _ :: _, h, _, _, _, _ | .splat _ :: _, h,
      _, _, _, _ => by
    cases h

theorem evalDefaults_lockstep : ∀ params : List Param, constantDefaults params = true →
    KnownDefaults known params →
    Lockstep known M₀ N₀ (Value.AlikeItems (known.twins M₀.memory N₀.memory))
      (evalDefaults ⟨meet, .idle, bind⟩ space params)
      (evalDefaults ⟨meet', .idle, bind'⟩ space' params)
  | [], _, _ => .pure .nil
  | ⟨_, _, none⟩ :: rest, h, k => by
    rw [evalDefaults, evalDefaults]
    exact (evalDefaults_lockstep rest h k).bind fun _ _ rest => .pure (.cons (.scalar trivial) rest)
  | ⟨_, ty, some op⟩ :: rest, h, k => by
    simp only [constantDefaults, Bool.and_eq_true] at h
    rw [evalDefaults, evalDefaults]
    exact (Op.eval_lockstep op h.1 k.1).bind fun _ _ same =>
      (Lockstep.cast same ty).bind fun _ _ first =>
      (evalDefaults_lockstep rest h.2 k.2).bind fun _ _ rest => .pure (.cons first rest)

end

end Lockstep

/-- **Constants may be computed anywhere, and in advance.** An operation that is a constant looks
neither at cells nor at the context: at any two machines, whatever their spaces and contexts, it
gives values that are alike or the same exception, and all it does to either machine is to create
lists, dictionaries and functions, those of one alike to those of the other. Folded, it gives such a
value at once, which is the one that was computed in advance; where it fails, it is left as it
is. -/
theorem Op.fold_sound {op : Op} (constant : op.isConstant = true) {m : Memory}
    (known : op.Known m) :
    (∀ (meet meet' : Demand → Eval Value) (bind bind' : CellId → Value → Eval PUnit)
      (space space' : SpaceId) (M N : Machine), m.Retains M.memory → m.Retains N.memory →
      Eval.EndAlike m M N (Value.Alike (m.twins M.memory N.memory))
        (op.eval ⟨meet, .idle, bind⟩ space M) (op.eval ⟨meet', .idle, bind'⟩ space' N)) ∧
    ∀ (meet : Demand → Eval Value) (bind : CellId → Value → Eval PUnit) (space : SpaceId)
      (N : Machine), (op.fold m).2.Retains N.memory →
      (∀ w N', op.eval ⟨meet, .idle, bind⟩ space N = .ok w N' →
        ∃ v, (op.fold m).1.eval ⟨meet, .idle, bind⟩ space N = .ok v N ∧
          v.Alike (m.twins m N.memory) w ∧
          ∀ k, m.functions.size + k < (op.fold m).2.functions.size →
            FunctionObject.Alike (m.twins m N.memory) N.memory N'.memory
              (N.memory.function (m.functions.size + k))
              (N'.memory.function (N.memory.functions.size + k))) ∧
      ∀ stop N', op.eval ⟨meet, .idle, bind⟩ space N = .error stop N' → op.fold m = (op, m) := by
  have anywhere : ∀ (meet meet' : Demand → Eval Value) (bind bind' : CellId → Value → Eval PUnit)
      (space space' : SpaceId) (M N : Machine), m.Retains M.memory → m.Retains N.memory →
      Eval.EndAlike m M N (Value.Alike (m.twins M.memory N.memory))
        (op.eval ⟨meet, .idle, bind⟩ space M) (op.eval ⟨meet', .idle, bind'⟩ space' N) :=
    fun meet meet' bind bind' space space' M N left right =>
      op.eval_lockstep left right meet meet' bind bind' space space' constant known M
        N (.refl m M N)
  refine ⟨anywhere, fun meet bind space N => ?_⟩
  have self : m.Retains m := (Machine.Creates.refl ⟨m, .detached⟩).retains
  cases hc : op.constant? with
  | some v =>
    -- Nothing is left to compute.
    have folded : op.fold m = (op, m) := by rw [fold, hc]; rfl
    have runs : ∀ N : Machine, op.eval ⟨meet, .idle, bind⟩ space N = .ok v N := fun N =>
      congrFun (Op.eval_of_constant meet bind space hc) N
    rw [folded]
    refine fun right => ⟨fun w N' ran => ⟨v, runs N, ?_, fun k lt => ?_⟩, fun _ _ _ => rfl⟩
    · cases (runs N).symm.trans ran
      obtain ⟨span, action⟩ := op
      cases action <;> cases hc
      exact known.mono (m.identities_le_twins _ _)
    · exact absurd lt (Nat.not_lt_of_le (Nat.le_add_right ..))
  | none =>
    have folds : (op.constant?.isSome || !op.isConstant) = false := by rw [hc, constant]; rfl
    have inAdvance := fun N => anywhere Supply.none.meet meet Supply.none.bind bind
      Memory.detachedSpace space ⟨m, .detached⟩ N self
    cases hm : op.eval ⟨Supply.none.meet, .idle, Supply.none.bind⟩ Memory.detachedSpace
        ⟨m, .detached⟩ with
    | error stop M' =>
      have folded : op.fold m = (op, m) := by
        rw [fold, folds, show op.eval Supply.none _ _ = _ from hm]
        rfl
      rw [folded]
      refine fun right => ⟨fun w N' ran => ?_, fun _ _ _ => rfl⟩
      have ends := inAdvance N right
      rw [hm, ran] at ends
      cases ends
    | ok v M' =>
      have folded : op.fold m = (⟨op.span, .constant v⟩, M'.memory) := by
        rw [fold, folds, show op.eval Supply.none _ _ = _ from hm]
        rfl
      rw [folded]
      intro right
      have creates : (⟨m, .detached⟩ : Machine).Creates M' := by
        have ends := anywhere Supply.none.meet Supply.none.meet Supply.none.bind Supply.none.bind
          Memory.detachedSpace Memory.detachedSpace ⟨m, .detached⟩ ⟨m, .detached⟩ self self
        rw [hm] at ends
        cases ends with
        | ok _ abreast => exact abreast.left
      have ends := inAdvance N (creates.retains.trans right)
      rw [hm] at ends
      refine ⟨fun w N' ran => ?_, fun stop N' ran => ?_⟩
      · rw [ran] at ends
        cases ends with
        | ok same abreast =>
          refine ⟨v, rfl, same, fun k lt => ?_⟩
          have alike := (abreast.alike k lt).later right (Machine.Creates.refl N').retains
          rwa [← right.function _ lt] at alike
      · rw [ran] at ends
        cases ends

/-- `[1, () -> nil]`, a constant with a function in it. -/
def listOfFunction : Op :=
  let here (action : Action) : Op := ⟨.null, action⟩
  here (.list [.value (here (.constant (.long 1))),
    .value (here (.function [] .any (here (.constant .nil)) .empty [] .null))])

/-- The theorem at this operation. -/
theorem Op.fold_sound_listOfFunction :
    listOfFunction.isConstant = true ∧ listOfFunction.Known Memory.initial ∧
      (∀ M N : Machine, Memory.initial.Retains M.memory → Memory.initial.Retains N.memory →
        Eval.EndAlike Memory.initial M N (Value.Alike (Memory.initial.twins M.memory N.memory))
          (listOfFunction.eval Supply.none 0 M) (listOfFunction.eval Supply.none 0 N)) ∧
      ∀ N : Machine, (listOfFunction.fold Memory.initial).2.Retains N.memory →
        ∀ w N', listOfFunction.eval Supply.none 0 N = .ok w N' →
          ∃ v, (listOfFunction.fold Memory.initial).1.eval Supply.none 0 N = .ok v N ∧
            v.Alike (Memory.initial.twins Memory.initial N.memory) w := by
  have constant : listOfFunction.isConstant = true := by decide
  have known : listOfFunction.Known Memory.initial := ⟨.scalar trivial, trivial, trivial⟩
  obtain ⟨anywhere, inAdvance⟩ := Op.fold_sound constant known
  refine ⟨constant, known, fun M N left right => anywhere _ _ _ _ 0 0 M N left right,
    fun N later w N' ran => ?_⟩
  obtain ⟨v, runs, alike, -⟩ := (inAdvance _ _ 0 N later).1 w N' ran
  exact ⟨v, runs, alike⟩

end Code

end CellScript
