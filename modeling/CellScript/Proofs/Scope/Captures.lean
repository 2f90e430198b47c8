import CellScript.Proofs.Scope.Groups
import CellScript.Proofs.Scope.Reach
import CellScript.Scope.Closure

/-!
# What functions capture suffices

A reference inside a function reaches what lies outside only through what the function has captured,
and the function in turn finds that where it is created. The walk over a program captures enough for
both: whatever a function captures is laid out once, or near the place where the function is
created, or captured by the function around it.

* `Arena.Located` — a symbol can be reached from a scope
* `Arena.capturers_located` — the functions that capture a symbol pass it on to each other
* `Analysis.Supplied` — whatever a function captures can be reached where the function is created
* `Capturing.visitExpr_walks` — the walk over an expression leaves all its references reachable
-/

namespace CellScript

namespace Arena

/-! ## Functions around a scope -/

/-- The innermost function around a scope, none outside all functions. -/
inductive InFunction (a : Arena) : ScopeId → Option NodeId → Prop where
  | members {σ : ScopeId} {s : SymbolId} (kind : (a.scope σ).kind = .members s) :
    InFunction a σ none
  | function {σ : ScopeId} {n : NodeId} (kind : (a.scope σ).kind = .function n) :
    InFunction a σ (some n)
  | block {σ outer : ScopeId} {n : NodeId} {f : Option NodeId} (kind : (a.scope σ).kind = .block n)
    (enclosing : (a.scope σ).enclosing = some outer) (rest : InFunction a outer f) :
    InFunction a σ f

/-- All functions around a scope, innermost first. -/
inductive Frames (a : Arena) : ScopeId → List FunctionFrame → Prop where
  | members {σ : ScopeId} {s : SymbolId} (kind : (a.scope σ).kind = .members s) : Frames a σ []
  | function {σ outer : ScopeId} {n : NodeId} {fs : List FunctionFrame}
    (kind : (a.scope σ).kind = .function n) (enclosing : (a.scope σ).enclosing = some outer)
    (rest : Frames a outer fs) : Frames a σ (⟨n, σ⟩ :: fs)
  | block {σ outer : ScopeId} {n : NodeId} {fs : List FunctionFrame}
    (kind : (a.scope σ).kind = .block n) (enclosing : (a.scope σ).enclosing = some outer)
    (rest : Frames a outer fs) : Frames a σ fs

variable {a : Arena} {σ : ScopeId} {t : SymbolId}

theorem InFunction.unique {f g : Option NodeId} (h : InFunction a σ f) (h' : InFunction a σ g) :
    f = g := by
  induction h with
  | members kind =>
    cases h' with
    | members => rfl
    | function kind' | block kind' => rw [kind] at kind'; cases kind'
  | function kind =>
    cases h' with
    | function kind' =>
      rw [kind] at kind'
      cases kind'
      rfl
    | members kind' | block kind' => rw [kind] at kind'; cases kind'
  | block kind enclosing _ ih =>
    cases h' with
    | block kind' enclosing' rest' =>
      rw [enclosing] at enclosing'
      cases enclosing'
      exact ih rest'
    | members kind' | function kind' => rw [kind] at kind'; cases kind'

/-- The innermost function is near. -/
theorem Frames.near {f : FunctionFrame} {fs : List FunctionFrame} (h : Frames a σ (f :: fs)) :
    ∃ d, Near a σ f.scope d := by
  generalize hl : f :: fs = all at h
  induction h with
  | members kind => cases hl
  | function kind enclosing rest =>
    cases hl
    exact ⟨0, .here⟩
  | block kind enclosing rest ih =>
    obtain ⟨d, near⟩ := ih hl
    exact ⟨d + 1, .out kind enclosing near⟩

/-! ## Reachable symbols -/

/-- The symbol is reached without help of a function. -/
def Direct (a : Arena) (σ : ScopeId) (t : SymbolId) : Prop :=
  a.Static t ∨ ∃ d, Near a σ (a.symbol t).scope d

/-- The symbol is reached, perhaps because the innermost function has captured it. -/
def Located (a : Arena) (closed : NodeId → List SymbolId) (σ : ScopeId) (t : SymbolId) : Prop :=
  a.Direct σ t ∨ ∃ f, InFunction a σ (some f) ∧ t ∈ closed f

theorem Direct.block {outer : ScopeId} {n : NodeId} (h : a.Direct outer t)
    (kind : (a.scope σ).kind = .block n) (enclosing : (a.scope σ).enclosing = some outer) :
    a.Direct σ t := by
  rcases h with static | ⟨d, near⟩
  · exact .inl static
  · exact .inr ⟨d + 1, .out kind enclosing near⟩

theorem Located.block {closed : NodeId → List SymbolId} {outer : ScopeId} {n : NodeId}
    (h : a.Located closed outer t) (kind : (a.scope σ).kind = .block n)
    (enclosing : (a.scope σ).enclosing = some outer) : a.Located closed σ t := by
  rcases h with direct | ⟨f, inFunction, mem⟩
  · exact .inl (direct.block kind enclosing)
  · exact .inr ⟨f, .block kind enclosing inFunction, mem⟩

theorem Located.mono {closed closed' : NodeId → List SymbolId} (h : a.Located closed σ t)
    (sub : ∀ f, t ∈ closed f → t ∈ closed' f) : a.Located closed' σ t := by
  rcases h with direct | ⟨f, inFunction, mem⟩
  · exact .inl direct
  · exact .inr ⟨f, inFunction, sub f mem⟩

open Capturing (capturers)

/-- A function that does not lie around the declaration captures, and so may those around it. -/
theorem capturers_cons_of_not_within {f : FunctionFrame} {fs : List FunctionFrame} {τ : ScopeId}
    (h : f.scope ∉ a.chain τ) : capturers a (f :: fs) τ = f :: capturers a fs τ := by
  have : a.isWithin τ f.scope = false := by
    rw [← Bool.not_eq_true, isWithin_iff]
    exact h
  simp [capturers, this]

/-- A symbol that lies no further out than the innermost function is captured by none. -/
theorem capturers_eq_nil {f : FunctionFrame} {fs : List FunctionFrame} {τ : ScopeId}
    (h : f.scope ∈ a.chain τ) : capturers a (f :: fs) τ = [] := by
  have : a.isWithin τ f.scope = true := isWithin_iff.mpr h
  simp [capturers, this]

/-- **The functions that capture a symbol pass it on to each other.** Once they all have it, it is
reached from the scope, and from where each of them is created. -/
theorem capturers_located (ready : a.Ready) {fs : List FunctionFrame} (frames : Frames a σ fs)
    (place : a.Static t ∨ Inside a σ (a.symbol t).scope) :
    (capturers a fs (a.symbol t).scope = [] → a.Direct σ t) ∧
      ∀ closed : NodeId → List SymbolId,
        (∀ f ∈ capturers a fs (a.symbol t).scope, t ∈ closed f.node) →
        a.Located closed σ t ∧ ∀ f ∈ capturers a fs (a.symbol t).scope, ∀ outer,
          (a.scope f.scope).enclosing = some outer → a.Located closed outer t := by
  rcases place with static | inside
  · exact ⟨fun _ => .inl static, fun closed _ => ⟨.inl (.inl static), fun _ _ _ _ =>
      .inl (.inl static)⟩⟩
  · generalize hτ : (a.symbol t).scope = τ at inside ⊢
    have here : a.Direct τ t := .inr ⟨0, by rw [hτ]; exact .here⟩
    induction frames with
    | members kind =>
      have := inside.isDynamic.1
      rw [kind] at this
      cases this
    | @function σ outer n fs kind enclosing rest ih =>
      cases inside with
      | refl dynamic =>
        rw [capturers_eq_nil (mem_chain_self a τ)]
        exact ⟨fun _ => here, fun closed _ => ⟨.inl here, fun f hf => by cases hf⟩⟩
      | step dynamic enclosing' inside =>
        rw [enclosing] at enclosing'
        cases enclosing'
        -- The function lies inside the scope of the symbol, so that scope cannot lie inside it.
        have outside : σ ∉ a.chain τ := by
          intro mem
          have below := (ready.inside_of_mem _ mem dynamic).le ready
          have above := inside.le ready
          have older := (ready.dynamic σ outer enclosing dynamic).1
          exact absurd (Nat.le_trans below above) (Nat.not_le.mpr older)
        rw [capturers_cons_of_not_within outside]
        refine ⟨fun h => (by cases h), fun closed all => ?_⟩
        rw [List.forall_mem_cons] at all
        obtain ⟨located, others⟩ := (ih inside).2 closed all.2
        refine ⟨.inr ⟨n, .function kind, all.1⟩, fun f hf outer' enclosing' => ?_⟩
        rcases List.mem_cons.mp hf with rfl | hf
        · rw [enclosing] at enclosing'
          cases enclosing'
          exact located
        · exact others f hf outer' enclosing'
    | @block σ outer n fs kind enclosing rest ih =>
      cases inside with
      | refl dynamic =>
        have none : capturers a fs τ = [] := by
          cases fs with
          | nil => rfl
          | cons f fs =>
            obtain ⟨d, near⟩ := (Frames.block kind enclosing rest).near
            refine capturers_eq_nil (isWithin_iff.mp ?_)
            rw [isWithin, near.depth? ready]
            rfl
        rw [none]
        exact ⟨fun _ => here, fun closed _ => ⟨.inl here, fun f hf => by cases hf⟩⟩
      | step dynamic enclosing' inside =>
        rw [enclosing] at enclosing'
        cases enclosing'
        obtain ⟨direct, located⟩ := ih inside
        exact ⟨fun h => (direct h).block kind enclosing, fun closed all =>
          ⟨(located closed all).1.block kind enclosing, (located closed all).2⟩⟩

end Arena

/-! ## The analysis while captures are found -/

namespace Analysis

/-- The node is a reference in a scope that is bound to something. -/
def BoundAt (a : Analysis) (σ : ScopeId) (node : NodeId) : Prop :=
  ∃ r, a.references.get? node = some (.ok r) ∧ a.arena.Bound σ r

/-- The node is a reference in a scope, and what it is bound to is reached from there. -/
def Reaches (a : Analysis) (σ : ScopeId) (node : NodeId) : Prop :=
  ∃ r, a.references.get? node = some (.ok r) ∧ a.arena.Bound σ r ∧
    (r.kind = .closure ∨ a.arena.Direct σ r.target) ∧ a.arena.Located a.closedOver σ r.target

/-- Whatever a function captures is a variable, and reached where the function is created. -/
def Supplied (a : Analysis) : Prop :=
  ∀ n σ outer t, a.createdScopes.get? n = some σ → (a.arena.scope σ).enclosing = some outer →
    t ∈ a.closedOver n → t < a.arena.symbols.size ∧ a.arena.IsVariable t ∧
      a.arena.Located a.closedOver outer t

/-- The second analysis is the first one with more captured. -/
structure Captures (a a' : Analysis) : Prop where
  arena : a'.arena = a.arena
  units : a'.units = a.units
  created : a'.createdScopes = a.createdScopes
  nodeScopes : a'.nodeScopes = a.nodeScopes
  definitions : a'.definitions = a.definitions
  references : ∀ n, a'.references.get? n = a.references.get? n ∨
    ∃ r, a.references.get? n = some (.ok r) ∧
      a'.references.get? n = some (.ok { r with kind := .closure })
  closed : ∀ n t, t ∈ a.closedOver n → t ∈ a'.closedOver n
  noted : ∀ n, (a.closures.get? n).isSome = true → (a'.closures.get? n).isSome = true

variable {a a' a'' : Analysis}

theorem Captures.refl (a : Analysis) : a.Captures a :=
  ⟨rfl, rfl, rfl, rfl, rfl, fun _ => .inl rfl, fun _ _ => id, fun _ => id⟩

theorem Captures.trans (h : a.Captures a') (h' : a'.Captures a'') : a.Captures a'' := by
  refine ⟨h'.arena.trans h.arena, h'.units.trans h.units, h'.created.trans h.created,
    h'.nodeScopes.trans h.nodeScopes, h'.definitions.trans h.definitions, fun n => ?_,
    fun n t ht => h'.closed n t (h.closed n t ht), fun n hn => h'.noted n (h.noted n hn)⟩
  rcases h.references n with same | ⟨r, before, after⟩ <;>
    rcases h'.references n with same' | ⟨r', before', after'⟩
  · exact .inl (same'.trans same)
  · exact .inr ⟨r', same ▸ before', after'⟩
  · exact .inr ⟨r, before, same'.trans after⟩
  · rw [after] at before'
    cases before'
    exact .inr ⟨r, before, after'⟩

theorem Captures.boundAt {σ : ScopeId} {node : NodeId} (h : a.Captures a') (b : a.BoundAt σ node) :
    a'.BoundAt σ node := by
  obtain ⟨r, found, bound⟩ := b
  rw [BoundAt, h.arena]
  rcases h.references node with same | ⟨r', before, after⟩
  · exact ⟨r, same.trans found, bound⟩
  · rw [found] at before
    cases before
    exact ⟨_, after, bound.scope, bound.known, bound.isVariable, bound.place, fun h => (by cases h),
      fun h => (by cases h)⟩

theorem Captures.reaches {σ : ScopeId} {node : NodeId} (h : a.Captures a') (r : a.Reaches σ node) :
    a'.Reaches σ node := by
  obtain ⟨r, found, bound, kind, located⟩ := r
  rw [Reaches, h.arena]
  have located' := located.mono (fun f => h.closed f r.target)
  rcases h.references node with same | ⟨r', before, after⟩
  · exact ⟨r, same.trans found, bound, kind, located'⟩
  · rw [found] at before
    cases before
    exact ⟨_, after, ⟨bound.scope, bound.known, bound.isVariable, bound.place, fun h =>
      (by cases h), fun h => (by cases h)⟩,
      .inl rfl, located'⟩

theorem Captures.blockOf {node : NodeId} {σ inner : ScopeId} (h : a.Captures a')
    (b : a.BlockOf node σ inner) : a'.BlockOf node σ inner := by
  obtain ⟨created, kind, enclosing⟩ := b
  exact ⟨by rw [h.created]; exact created, by rw [h.arena]; exact kind,
    by rw [h.arena]; exact enclosing⟩

theorem Captures.functionOf {node : NodeId} {σ inner : ScopeId} {types : List Ty}
    (h : a.Captures a') (f : a.FunctionOf node σ inner types) :
    a'.FunctionOf node σ inner types := by
  obtain ⟨created, standing, kind, enclosing, types⟩ := f
  exact ⟨by rw [h.created]; exact created, by rw [h.nodeScopes]; exact standing,
    by rw [h.arena]; exact kind, by rw [h.arena]; exact enclosing, by rw [h.arena]; exact types⟩

theorem Captures.declares {node : NodeId} {σ : ScopeId} {ty : Ty} (h : a.Captures a')
    (d : a.Declares node σ ty) : a'.Declares node σ ty := by
  rw [Declares, h.definitions, h.arena]
  exact d

theorem Captures.fills {nodes : List NodeId} {σ : ScopeId} (h : a.Captures a')
    (f : a.Fills nodes σ) : a'.Fills nodes σ := by
  rw [Fills, h.definitions, h.arena]
  exact f

theorem Captures.binds {σ : ScopeId} {captures : List Capture} (h : a.Captures a')
    (b : a.Binds σ captures) : a'.Binds σ captures :=
  fun c hc => h.declares (b c hc)

end Analysis

namespace Capturing

open Analysis (Captures)

variable {a₀ a : Analysis} {σ : ScopeId} {fs : List FunctionFrame}

/-- The functions have entries in the table of captures, and the scopes that the frames say. -/
def Noted (a : Analysis) (fs : List FunctionFrame) : Prop :=
  ∀ f ∈ fs, (a.closures.get? f.node).isSome = true ∧ a.createdScopes.get? f.node = some f.scope

theorem Noted.captures {a' : Analysis} (h : Noted a fs) (c : a.Captures a') : Noted a' fs :=
  fun f hf => ⟨c.noted _ (h f hf).1, by rw [c.created]; exact (h f hf).2⟩

/-- Whenever the step is taken inside the functions, in an analysis that goes on from `a₀`, it
captures only what is supplied, and `S` holds of every analysis that goes on from there. -/
def Walks (a₀ : Analysis) (fs : List FunctionFrame) (x : Capturing PUnit) (S : Analysis → Prop) :
    Prop :=
  ∀ a, a₀.Captures a → a.Supplied → Noted a fs →
    a.Captures (x a).2 ∧ (x a).2.Supplied ∧ ∀ af, (x a).2.Captures af → S af

variable {x y : Capturing PUnit} {S T : Analysis → Prop}

theorem Walks.pure (h : ∀ af, a₀.Captures af → S af) : Walks a₀ fs (Pure.pure ⟨⟩) S :=
  fun a start supplied _ => ⟨.refl a, supplied, fun af goes => h af (start.trans goes)⟩

theorem Walks.mono (h : Walks a₀ fs x S) (mono : ∀ af, a₀.Captures af → S af → T af) :
    Walks a₀ fs x T := by
  intro a start supplied noted
  obtain ⟨goes, supplied', after⟩ := h a start supplied noted
  exact ⟨goes, supplied', fun af goes' => mono af ((start.trans goes).trans goes') (after af goes')⟩

theorem Walks.seq (h : Walks a₀ fs x S) (h' : Walks a₀ fs y T) :
    Walks a₀ fs (x >>= fun _ => y) (fun af => S af ∧ T af) := by
  intro a start supplied noted
  obtain ⟨goes, supplied₁, after⟩ := h a start supplied noted
  obtain ⟨goes', supplied₂, after'⟩ := h' _ (start.trans goes) supplied₁ (noted.captures goes)
  exact ⟨goes.trans goes', supplied₂, fun af more => ⟨after af (goes'.trans more), after' af more⟩⟩

/-! ## Single steps of the walk -/

theorem closedOver_capture (t : SymbolId) (f n : NodeId) (a : Analysis) :
    ((capture t f a).2).closedOver n =
      if n = f ∧ (a.closures.get? f).isSome = true ∧ t ∉ a.closedOver f then a.closedOver n ++ [t]
      else a.closedOver n := by
  show (if (a.closedOver f).contains t then a
    else { a with closures := a.closures.update f fun symbols => symbols ++ [t] }).closedOver n = _
  by_cases mem : t ∈ a.closedOver f
  · simp [mem]
  · simp only [List.contains_eq_mem, mem, decide_false, Bool.false_eq_true, if_false,
      not_false_eq_true, and_true]
    show ((a.closures.update f fun symbols => symbols ++ [t]).get? n).getD [] = _
    rw [Table.get?_update]
    by_cases hn : f = n
    · subst hn
      rw [if_pos rfl]
      cases hc : a.closures.get? f with
      | none => simp [Analysis.closedOver, hc]
      | some symbols => simp [Analysis.closedOver, hc]
    · rw [if_neg hn, if_neg (fun h => hn h.1.symm)]
      rfl

theorem captures_capture (t : SymbolId) (f : NodeId) (a : Analysis) :
    a.Captures (capture t f a).2 := by
  have closed : ∀ n s, s ∈ a.closedOver n → s ∈ ((capture t f a).2).closedOver n := by
    intro n s hs
    rw [closedOver_capture]
    split
    · exact List.mem_append_left _ hs
    · exact hs
  refine ⟨?_, ?_, ?_, ?_, ?_, fun n => .inl ?_, closed, fun n hn => ?_⟩
  all_goals
    by_cases mem : t ∈ a.closedOver f <;>
      simp [capture, modify, modifyGet, MonadStateOf.modifyGet, StateT.modifyGet, pure, mem]
  · exact hn
  · rw [Table.get?_update]
    split
    · simpa using hn
    · exact hn

/-- All capturing functions get the symbol, and nothing else is captured. -/
theorem captures_forM (t : SymbolId) (cs : List FunctionFrame) (a : Analysis) :
    let a' := ((cs.forM fun f => capture t f.node : Capturing PUnit) a).2
    a.Captures a' ∧
      (∀ f ∈ cs, (a.closures.get? f.node).isSome = true → t ∈ a'.closedOver f.node) ∧
      ∀ n s, s ∈ a'.closedOver n → s ∈ a.closedOver n ∨ s = t ∧ ∃ f ∈ cs, f.node = n := by
  induction cs generalizing a with
  | nil => exact ⟨.refl a, fun f hf => (by cases hf), fun n s hs => .inl hs⟩
  | cons c rest ih =>
    have first := captures_capture t c.node a
    obtain ⟨goes, given, only⟩ := ih (capture t c.node a).2
    refine ⟨first.trans goes, fun f hf noted => ?_, fun n s hs => ?_⟩
    · rcases List.mem_cons.mp hf with rfl | hf
      · refine goes.closed _ _ ?_
        rw [closedOver_capture]
        split
        · exact List.mem_append_right _ (List.mem_singleton.mpr rfl)
        · next h => exact Classical.byContradiction fun mem => h ⟨rfl, noted, mem⟩
      · exact given f hf (first.noted _ noted)
    · rcases only n s hs with hs | ⟨rfl, f, hf, rfl⟩
      · rw [closedOver_capture] at hs
        split at hs
        · next h =>
          rcases List.mem_append.mp hs with hs | hs
          · exact .inl hs
          · exact .inr ⟨List.mem_singleton.mp hs, c, List.mem_cons_self .., h.1.symm⟩
        · exact .inl hs
      · exact .inr ⟨rfl, f, List.mem_cons_of_mem _ hf, rfl⟩

/-- The references table after a reference was found to be captured. -/
def asCaptured (node : NodeId) (a : Analysis) : Analysis :=
  { a with references := a.references.update node fun outcome =>
      outcome.map fun r => { r with kind := .closure } }

theorem captures_asCaptured (node : NodeId) (a : Analysis) : a.Captures (asCaptured node a) := by
  refine ⟨rfl, rfl, rfl, rfl, rfl, fun n => ?_, fun _ _ => id, fun _ => id⟩
  rw [asCaptured, Table.get?_update]
  by_cases hn : node = n
  · rw [if_pos hn]
    cases hr : a.references.get? n with
    | none => exact .inl rfl
    | some outcome =>
      cases outcome with
      | error e => exact .inl rfl
      | ok r => exact .inr ⟨r, rfl, rfl⟩
  · rw [if_neg hn]
    exact .inl rfl

/-- A reference that no function captures is left alone. -/
theorem visitReference_of_nil {node : NodeId} {r : ResolvedReference}
    (h : a.references.get? node = some (.ok r))
    (none : capturers a.arena fs (a.arena.symbol r.target).scope = []) :
    (visitReference fs node a).2 = a := by
  have got : (get : Capturing Analysis) a = (a, a) := rfl
  simp only [visitReference, bind, StateT.bind, got, h, none]
  rfl

/-- All functions that capture what a reference denotes get it. -/
theorem visitReference_of_cons {node : NodeId} {r : ResolvedReference} {c : FunctionFrame}
    {cs : List FunctionFrame} (h : a.references.get? node = some (.ok r))
    (some : capturers a.arena fs (a.arena.symbol r.target).scope = c :: cs) :
    (visitReference fs node a).2 = asCaptured node
      (((c :: cs).forM fun f => capture r.target f.node : Capturing PUnit) a).2 := by
  have got : (get : Capturing Analysis) a = (a, a) := rfl
  simp only [visitReference, bind, StateT.bind, got, h, some]
  rfl

/-- **A reference that was visited is reached.** -/
theorem visitReference_walks (ready : a₀.arena.Ready) (frames : a₀.arena.Frames σ fs)
    {node : NodeId} (bound : a₀.BoundAt σ node) :
    Walks a₀ fs (visitReference fs node) fun af => af.Reaches σ node := by
  intro a start supplied noted
  obtain ⟨r, found, bound⟩ := start.boundAt bound
  rw [← start.arena] at ready frames
  obtain ⟨direct, located⟩ := Arena.capturers_located ready frames bound.place
  cases hcs : capturers a.arena fs (a.arena.symbol r.target).scope with
  | nil =>
    rw [visitReference_of_nil found hcs]
    exact ⟨.refl a, supplied, fun af more =>
      more.reaches ⟨r, found, bound, .inr (direct hcs), .inl (direct hcs)⟩⟩
  | cons c cs =>
    rw [visitReference_of_cons found hcs]
    obtain ⟨goes, given, only⟩ := captures_forM r.target (c :: cs) a
    generalize (((c :: cs).forM fun f => capture r.target f.node : Capturing PUnit) a).2 = a₁
      at goes given only
    have inside : ∀ f ∈ c :: cs, f ∈ fs := by
      rw [← hcs]
      exact fun f hf => List.takeWhile_subset _ hf
    rw [hcs] at located
    obtain ⟨here, there⟩ := located a₁.closedOver fun f hf => given f hf (noted f (inside f hf)).1
    have marked := captures_asCaptured node a₁
    refine ⟨goes.trans marked, ?_, fun af more => more.reaches ?_⟩
    · intro n τ outer s created enclosing mem
      change a₁.createdScopes.get? n = some τ at created
      change s ∈ a₁.closedOver n at mem
      change s < a₁.arena.symbols.size ∧ a₁.arena.IsVariable s ∧
        a₁.arena.Located a₁.closedOver outer s
      change (a₁.arena.scope τ).enclosing = some outer at enclosing
      rw [goes.created] at created
      rw [goes.arena] at enclosing ⊢
      rcases only n s mem with mem | ⟨rfl, f, hf, rfl⟩
      · obtain ⟨known, var, old⟩ := supplied n τ outer s created enclosing mem
        exact ⟨known, var, old.mono fun f => goes.closed f s⟩
      · refine ⟨bound.known, bound.isVariable, there f hf outer ?_⟩
        rw [(noted f (inside f hf)).2] at created
        cases created
        exact enclosing
    · obtain ⟨r', found', bound'⟩ := (goes.trans marked).boundAt ⟨r, found, bound⟩
      refine ⟨{ r with kind := .closure }, ?_, ?_, .inl rfl, ?_⟩
      · show (a₁.references.update node _).get? node = _
        rw [Table.get?_update, if_pos rfl]
        rcases goes.references node with same | ⟨r'', before, after⟩
        · rw [same, found]
          rfl
        · rw [found] at before
          cases before
          rw [after]
          rfl
      · show a₁.arena.Bound σ _
        rw [goes.arena]
        exact ⟨bound.scope, bound.known, bound.isVariable, bound.place, fun h => (by cases h),
          fun h => (by cases h)⟩
      · show a₁.arena.Located a₁.closedOver σ r.target
        rw [goes.arena]
        exact here

/-- A function that is noted has an entry, and nothing else changes. -/
theorem noteFunction_spec (n : NodeId) (a : Analysis) :
    let a' := (noteFunction n a).2
    a.Captures a' ∧ (a'.closures.get? n).isSome = true ∧ ∀ m, a'.closedOver m = a.closedOver m := by
  cases hc : a.closures.get? n with
  | some symbols =>
    have same : (noteFunction n a).2 = a := by
      simp only [noteFunction, modify, modifyGet, MonadStateOf.modifyGet, StateT.modifyGet, hc]
      rfl
    rw [same]
    exact ⟨.refl a, by rw [hc]; rfl, fun _ => rfl⟩
  | none =>
    have same : (noteFunction n a).2 = { a with closures := a.closures.insert n [] } := by
      simp only [noteFunction, modify, modifyGet, MonadStateOf.modifyGet, StateT.modifyGet, hc]
      rfl
    have closed : ∀ m, ({ a with closures := a.closures.insert n [] } : Analysis).closedOver m =
        a.closedOver m := by
      intro m
      show ((a.closures.insert n []).get? m).getD [] = _
      rw [Table.get?_insert]
      split
      · next he =>
        subst he
        rw [Analysis.closedOver, hc]
        rfl
      · rfl
    simp only [same]
    refine ⟨⟨rfl, rfl, rfl, rfl, rfl, fun _ => .inl rfl, fun m t ht => ?_, fun m hm =>
      ?_⟩, ?_, closed⟩
    · rw [closed]
      exact ht
    · rw [Table.get?_insert]
      split
      · rfl
      · exact hm
    · rw [Table.get?_insert, if_pos rfl]
      rfl

theorem Walks.block {n : NodeId} {inner : ScopeId} (frames : a₀.arena.Frames σ fs)
    (block : a₀.BlockOf n σ inner) : a₀.arena.Frames inner fs :=
  .block block.kind block.enclosing frames

/-- The body of a function is walked inside the function. -/
theorem Walks.function {n : NodeId} {inner : ScopeId} {types : List Ty}
    (function : a₀.FunctionOf n σ inner types) (h : Walks a₀ (⟨n, inner⟩ :: fs) x S) :
    Walks a₀ fs (noteFunction n >>= fun _ => x) S := by
  intro a start supplied noted
  obtain ⟨goes, entry, same⟩ := noteFunction_spec n a
  have supplied' : (noteFunction n a).2.Supplied := by
    intro m τ outer t created enclosing mem
    rw [goes.created] at created
    rw [goes.arena] at enclosing ⊢
    rw [same] at mem
    obtain ⟨known, var, located⟩ := supplied m τ outer t created enclosing mem
    exact ⟨known, var, located.mono fun f => goes.closed f t⟩
  have noted' : Noted (noteFunction n a).2 (⟨n, inner⟩ :: fs) := by
    intro f hf
    rcases List.mem_cons.mp hf with rfl | hf
    · refine ⟨entry, ?_⟩
      rw [goes.created, start.created]
      exact function.created
    · exact noted.captures goes f hf
  obtain ⟨goes', supplied'', after⟩ := h _ (start.trans goes) supplied' noted'
  exact ⟨goes.trans goes', supplied'', after⟩

/-- The scope of a function is the one that its node has created. -/
theorem Walks.created {n : NodeId} {inner : ScopeId} {y : ScopeId → Capturing PUnit}
    (created : a₀.createdScopes.get? n = some inner) (h : Walks a₀ fs (y inner) S) :
    Walks a₀ fs (do
      match (← get).createdScopes.get? n with
      | none => Pure.pure ⟨⟩
      | some scope => y scope) S := by
  intro a start supplied noted
  have same : ((do
      match (← get).createdScopes.get? n with
      | none => Pure.pure ⟨⟩
      | some scope => y scope : Capturing PUnit) a) = y inner a := by
    show ((match a.createdScopes.get? n with
      | none => _
      | some scope => _ : Capturing PUnit) a) = _
    rw [start.created, created]
  rw [same]
  exact h a start supplied noted

/-! ## The whole walk -/

section Walk

variable (ready : a₀.arena.Ready)

include ready

set_option linter.unusedSectionVars false

mutual

/-- **All references of an expression that was walked are reached.** -/
theorem visitExpr_walks {σ : ScopeId} {fs : List FunctionFrame} (frames : a₀.arena.Frames σ fs) :
    ∀ e : Expr, e.Sound a₀ a₀.BoundAt σ →
      Walks a₀ fs (visitExpr fs e) fun af => e.Sound af af.Reaches σ
  | .constant _ _, _ => .pure fun _ _ => trivial
  | .reference _ _, h => visitReference_walks ready frames h
  | .list _ items, h => visitItems_walks frames items h
  | .dict _ entries, h => visitEntries_walks frames entries h
  | .function node params _ body, ⟨defaults, inner, function, h⟩ => by
    rw [visitExpr]
    have inside := visitExpr_walks (.function function.kind function.enclosing frames) body h
    refine ((visitDefaults_walks frames params defaults).seq
      (.created function.created (.function function inside))).mono fun af goes after => ?_
    exact ⟨after.1, inner, goes.functionOf function, after.2⟩
  | .call _ callee args, h =>
    (visitExpr_walks frames callee h.1).seq (visitArguments_walks frames args h.2)
  | .curry _ callee args, h =>
    (visitExpr_walks frames callee h.1).seq (visitNamed_walks frames args h.2)
  | .letIn _ bindings body, ⟨inner, block, fills, hb, h⟩ => by
    have frames' := Walks.block frames block
    exact ((visitBindings_walks frames' bindings hb).seq (visitExpr_walks frames' body h)).mono
      fun af goes after => ⟨inner, goes.blockOf block, goes.fills fills, after⟩
  | .ifElse _ c t e, h =>
    (visitExpr_walks frames c h.1).seq
      ((visitExpr_walks frames t h.2.1).seq (visitExpr_walks frames e h.2.2))
  | .matchOn _ subject lines, h =>
    (visitExpr_walks frames subject h.1).seq (visitLines_walks frames lines h.2)
  | .forEach _ heads body, ⟨inner, block, fills, hh, h⟩ => by
    have frames' := Walks.block frames block
    exact ((visitHeads_walks frames' heads hh).seq (visitExpr_walks frames' body h)).mono
      fun af goes after => ⟨inner, goes.blockOf block, goes.fills fills, after⟩
  | .binary _ _ l r, h => (visitExpr_walks frames l h.1).seq (visitExpr_walks frames r h.2)
  | .unary _ _ e, h => visitExpr_walks frames e h
  | .cast _ e _, h => visitExpr_walks frames e h
  | .isOf _ e _, h => visitExpr_walks frames e h
  | .access _ c keys, h => (visitExpr_walks frames c h.1).seq (visitExprs_walks frames keys h.2)
  | .tryCatch _ body _ _ _ handler, ⟨hb, inner, block, fills, binds, h⟩ => by
    have frames' := Walks.block frames block
    exact ((visitExpr_walks frames body hb).seq (visitExpr_walks frames' handler h)).mono
      fun af goes after =>
        ⟨after.1, inner, goes.blockOf block, goes.fills fills, goes.binds binds, after.2⟩
  | .throw _ e, h => visitExpr_walks frames e h

theorem visitExprs_walks {σ : ScopeId} {fs : List FunctionFrame} (frames : a₀.arena.Frames σ fs) :
    ∀ es : List Expr, soundExprs a₀ a₀.BoundAt σ es →
      Walks a₀ fs (visitExprs fs es) fun af => soundExprs af af.Reaches σ es
  | [], _ => .pure fun _ _ => trivial
  | e :: rest, h => (visitExpr_walks frames e h.1).seq (visitExprs_walks frames rest h.2)

theorem visitOption_walks {σ : ScopeId} {fs : List FunctionFrame} (frames : a₀.arena.Frames σ fs) :
    ∀ e : Option Expr, soundOption a₀ a₀.BoundAt σ e →
      Walks a₀ fs (visitOption fs e) fun af => soundOption af af.Reaches σ e
  | none, _ => .pure fun _ _ => trivial
  | some e, h => visitExpr_walks frames e h

theorem visitItems_walks {σ : ScopeId} {fs : List FunctionFrame} (frames : a₀.arena.Frames σ fs) :
    ∀ items : List ListItem, soundItems a₀ a₀.BoundAt σ items →
      Walks a₀ fs (visitItems fs items) fun af => soundItems af af.Reaches σ items
  | [], _ => .pure fun _ _ => trivial
  | .value e :: rest, h => (visitExpr_walks frames e h.1).seq (visitItems_walks frames rest h.2)
  | .splat e :: rest, h => (visitExpr_walks frames e h.1).seq (visitItems_walks frames rest h.2)

theorem visitEntries_walks {σ : ScopeId} {fs : List FunctionFrame} (frames : a₀.arena.Frames σ fs) :
    ∀ entries : List DictEntry, soundEntries a₀ a₀.BoundAt σ entries →
      Walks a₀ fs (visitEntries fs entries) fun af => soundEntries af af.Reaches σ entries
  | [], _ => .pure fun _ _ => trivial
  | .pair k v :: rest, h =>
    (visitExpr_walks frames k h.1).seq
      ((visitExpr_walks frames v h.2.1).seq (visitEntries_walks frames rest h.2.2))
  | .splat e :: rest, h => (visitExpr_walks frames e h.1).seq (visitEntries_walks frames rest h.2)

theorem visitDefaults_walks {σ : ScopeId} {fs : List FunctionFrame}
    (frames : a₀.arena.Frames σ fs) :
    ∀ params : List Param, soundDefaults a₀ a₀.BoundAt σ params →
      Walks a₀ fs (visitDefaults fs params) fun af => soundDefaults af af.Reaches σ params
  | [], _ => .pure fun _ _ => trivial
  | ⟨_, _, _, default⟩ :: rest, h =>
    (visitOption_walks frames default h.1).seq (visitDefaults_walks frames rest h.2)

theorem visitArguments_walks {σ : ScopeId} {fs : List FunctionFrame}
    (frames : a₀.arena.Frames σ fs) : ∀ args : List Argument, soundArguments a₀ a₀.BoundAt σ args →
      Walks a₀ fs (visitArguments fs args) fun af => soundArguments af af.Reaches σ args
  | [], _ => .pure fun _ _ => trivial
  | .positional e :: rest, h => (visitExpr_walks frames e h.1).seq
      (visitArguments_walks frames rest h.2)
  | .named _ e :: rest, h => (visitExpr_walks frames e h.1).seq
      (visitArguments_walks frames rest h.2)
  | .splat e :: rest, h => (visitExpr_walks frames e h.1).seq (visitArguments_walks frames rest h.2)

theorem visitNamed_walks {σ : ScopeId} {fs : List FunctionFrame} (frames : a₀.arena.Frames σ fs) :
    ∀ args : List NamedExpr, soundNamed a₀ a₀.BoundAt σ args →
      Walks a₀ fs (visitNamed fs args) fun af => soundNamed af af.Reaches σ args
  | [], _ => .pure fun _ _ => trivial
  | ⟨_, e⟩ :: rest, h => (visitExpr_walks frames e h.1).seq (visitNamed_walks frames rest h.2)

theorem visitBindings_walks {σ : ScopeId} {fs : List FunctionFrame}
    (frames : a₀.arena.Frames σ fs) :
    ∀ vars : List VarDef, soundVars a₀ a₀.BoundAt σ vars →
      Walks a₀ fs (visitBindings fs vars) fun af => soundVars af af.Reaches σ vars
  | [], _ => .pure fun _ _ => trivial
  | ⟨_, _, _, e⟩ :: rest, h =>
    (visitExpr_walks frames e h.1).seq (visitBindings_walks frames rest h.2)

theorem visitLines_walks {σ : ScopeId} {fs : List FunctionFrame} (frames : a₀.arena.Frames σ fs) :
    ∀ lines : List MatchLine, soundLines a₀ a₀.BoundAt σ lines →
      Walks a₀ fs (visitLines fs lines) fun af => soundLines af af.Reaches σ lines
  | [], _ => .pure fun _ _ => trivial
  | ⟨_, pattern, guard, result⟩ :: rest, ⟨hp, ⟨inner, block, fills, binds, hg, h⟩, hr⟩ => by
    have frames' := Walks.block frames block
    refine ((visitPattern_walks frames pattern hp).seq ((visitOption_walks frames' guard hg).seq
      ((visitExpr_walks frames' result h).seq (visitLines_walks frames rest hr)))).mono
      fun af goes after => ?_
    exact ⟨after.1, ⟨inner, goes.blockOf block, goes.fills fills, goes.binds binds, after.2.1,
      after.2.2.1⟩, after.2.2.2⟩

theorem visitHeads_walks {σ : ScopeId} {fs : List FunctionFrame} (frames : a₀.arena.Frames σ fs) :
    ∀ heads : List ForHead, soundHeads a₀ a₀.BoundAt σ heads →
      Walks a₀ fs (visitHeads fs heads) fun af => soundHeads af af.Reaches σ heads
  | [], _ => .pure fun _ _ => trivial
  | .generator _ _ _ source :: rest, h =>
    ((visitExpr_walks frames source h.1).seq (visitHeads_walks frames rest h.2.2)).mono
      fun _ goes after => ⟨after.1, goes.declares h.2.1, after.2⟩
  | .definition _ _ _ e :: rest, h =>
    ((visitExpr_walks frames e h.2.1).seq (visitHeads_walks frames rest h.2.2)).mono
      fun _ goes after => ⟨goes.declares h.1, after.1, after.2⟩
  | .condition e :: rest, h => (visitExpr_walks frames e h.1).seq (visitHeads_walks frames rest h.2)

theorem visitPattern_walks {σ : ScopeId} {fs : List FunctionFrame} (frames : a₀.arena.Frames σ fs) :
    ∀ p : Pattern, p.Sound a₀ a₀.BoundAt σ →
      Walks a₀ fs (visitPattern fs p) fun af => p.Sound af af.Reaches σ
  | ⟨_, shape, _⟩, h => visitShape_walks frames shape h

theorem visitShape_walks {σ : ScopeId} {fs : List FunctionFrame} (frames : a₀.arena.Frames σ fs) :
    ∀ shape : PatternShape, shape.Sound a₀ a₀.BoundAt σ →
      Walks a₀ fs (visitShape fs shape) fun af => shape.Sound af af.Reaches σ
  | .expr e, h => visitExpr_walks frames e h
  | .wildcard, _ => .pure fun _ _ => trivial
  | .default, _ => .pure fun _ _ => trivial
  | .ofType _, _ => .pure fun _ _ => trivial
  | .list items, h => visitPatterns_walks frames items h
  | .headTail head _, h => visitPatterns_walks frames head h
  | .initLast _ last, h => visitPatterns_walks frames last h
  | .middle head _ last, h =>
    (visitPatterns_walks frames head h.1).seq (visitPatterns_walks frames last h.2)
  | .dict entries, h => visitKeyPatterns_walks frames entries h
  | .openDict entries _, h => visitKeyPatterns_walks frames entries h

theorem visitPatterns_walks {σ : ScopeId} {fs : List FunctionFrame}
    (frames : a₀.arena.Frames σ fs) :
    ∀ ps : List Pattern, soundPatterns a₀ a₀.BoundAt σ ps →
      Walks a₀ fs (visitPatterns fs ps) fun af => soundPatterns af af.Reaches σ ps
  | [], _ => .pure fun _ _ => trivial
  | p :: rest, h => (visitPattern_walks frames p h.1).seq (visitPatterns_walks frames rest h.2)

theorem visitKeyPatterns_walks {σ : ScopeId} {fs : List FunctionFrame}
    (frames : a₀.arena.Frames σ fs) :
    ∀ entries : List KeyPattern, soundKeyPatterns a₀ a₀.BoundAt σ entries →
      Walks a₀ fs (visitKeyPatterns fs entries) fun af => soundKeyPatterns af af.Reaches σ entries
  | [], _ => .pure fun _ _ => trivial
  | ⟨_, p⟩ :: rest, h => (visitPattern_walks frames p h.1).seq
      (visitKeyPatterns_walks frames rest h.2)

end

end Walk

end Capturing

end CellScript
