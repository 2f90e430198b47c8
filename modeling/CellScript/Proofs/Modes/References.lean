import CellScript.Proofs.Modes.Ahead
import CellScript.Proofs.Modes.Values

/-!
# References, captures and calls in two sessions

Spaces are the same in both sessions, so that a reference leads to the same cell. What was captured
there is alike, and so is what a function is called with.

* `Supply.Follows` — demands are met alike
* `Eval.resolve_follows` — a reference leads to the same cell
* `Supply.Follows.reference`, `Supply.Follows.capture` — its value, and what a function captures
* `Supply.Follows.callWith`, `Eval.curry_follows` — calls and curried functions
-/

namespace CellScript

open Code Eval

/-- Both supplies meet demands alike, and nobody watches. -/
structure Supply.Follows (static : Memory) (S T : Supply) : Prop where
  force : ∀ L cell, Eval.Follows static L Links.values (S (.force cell)) (T (.force cell))
  call : ∀ (L : Links) f g args args', L.functions f g → L.items args args' →
    Eval.Follows static L Links.values (S (.call f args)) (T (.call g args'))
  bind : ∀ (L : Links) id v w, L.values v w →
    Eval.Follows static L (fun _ _ _ => True) (S.bind id v) (T.bind id w)
  left : S.watch = .idle
  right : T.watch = .idle

variable {static : Memory} {L : Links}

namespace Eval

/-! ## Cells -/

theorem cellIn_follows (space : SpaceId) (slot : Nat) :
    Follows static L (fun _ => Eq) (ask (·.cellIn space slot)) (ask (·.cellIn space slot)) :=
  .ask (fun _ _ now => now.cellIn space slot) fun m e failed => by
    rw [Memory.cellIn] at failed
    split at failed <;> cases failed
    rfl

theorem ancestor_follows (depth : Nat) (space : SpaceId) :
    Follows static L (fun _ => Eq) (ask (·.ancestor depth space)) (ask (·.ancestor depth space)) :=
  .ask (fun _ _ now => now.ancestor depth space) fun m e failed => by
    rw [Memory.ancestor] at failed
    split at failed <;> cases failed
    rfl

theorem walk_follows (name : String) (space : SpaceId) (path : List Nat) :
    Follows static L (fun _ => Eq) (walk name space path) (walk name space path) := by
  induction path generalizing space L with
  | nil => exact .raise (.refl rfl)
  | cons slot rest ih =>
    cases rest with
    | nil => exact cellIn_follows space slot
    | cons next rest =>
      rw [walk]
      · refine (cellIn_follows space slot).bind fun L' id _ _ same => ?_
        subst same
        refine .memory fun m n now => ?_
        have cell := now.cell id
        simp only
        rw [cell.members, Cell.name, Cell.name, cell.shape.name]
        split
        · exact ih _
        · exact .raise (.refl rfl)
      · exact fun h => by cases h

theorem units_follows : Follows static L (fun _ => Eq) units units := by
  refine .context fun c d now => ?_
  rw [now.units]
  split
  · exact .pure rfl
  · exact .raise (.refl rfl)

theorem absolute_follows (ref : CellRef) (path : List Nat) :
    Follows static L (fun _ => Eq) (absolute ref path) (absolute ref path) := by
  have walks : ∀ {L : Links}, Follows static L (fun _ => Eq)
      (units >>= fun u => walk ref.name u path) (units >>= fun u => walk ref.name u path) :=
    units_follows.bind fun L' u _ _ same => same ▸ walk_follows ref.name u path
  unfold absolute
  split
  · exact walks
  · refine .memory fun m n now => ?_
    rw [now.pins]
    split
    · exact .pure rfl
    · refine units_follows.bind fun L' u _ _ same => ?_
      subst same
      refine (walk_follows ref.name u path).bind fun L'' cell _ _ same => ?_
      subst same
      exact (Follows.modifyMemory fun m n now => now.pin _ cell).bind fun _ _ _ _ _ => .pure rfl

theorem resolve_follows (space : SpaceId) (ref : CellRef) :
    Follows static L (fun _ => Eq) (resolve space ref) (resolve space ref) := by
  unfold resolve
  split
  · exact .raise (.refl rfl)
  · exact cellIn_follows space _
  · exact (ancestor_follows 1 space).bind fun _ outer _ _ same => same ▸ cellIn_follows outer _
  · exact (ancestor_follows _ space).bind fun _ outer _ _ same => same ▸ cellIn_follows outer _
  · exact absolute_follows ref _

/-- One of the captured symbols. -/
theorem captured_follows {c d : ClosureId} (linked : L.closures c d) (index : Nat) :
    Follows static L (fun L' a b => Captured.Follows L' a b) (ask (·.captured c index))
      (ask (·.captured d index)) := by
  refine .memory fun m n now => ?_
  have follows := now.closure c d linked
  simp only [Memory.captured]
  generalize m.closure c = cs at follows
  generalize n.closure d = ds at follows
  have found : Option.Rel (Captured.Follows L) cs[index]? ds[index]? := by
    induction follows generalizing index with
    | nil => exact .none
    | cons first _ ih =>
      cases index with
      | zero => exact .some first
      | succ index => exact ih index
  generalize cs[index]? = x at found
  generalize ds[index]? = y at found
  cases found with
  | some same => exact .pure same
  | none => exact .raise (.refl rfl)

/-! ## Binding parts of a subject -/

/-- Slots of a clause receive alike values. -/
abbrev bindings (L : Links) : Bindings → Bindings → Prop := List.Forall₂ L.keyed

theorem bindings_monotone : Relation.Monotone bindings :=
  fun le _ _ h => h.imp fun _ _ => Links.keyed_monotone le

theorem bindList_follows (slot : Option Nat) {xs ys : List Value} (h : L.items xs ys) :
    Follows static L bindings (bindList slot xs) (bindList slot ys) := by
  cases slot with
  | none => exact .pure .nil
  | some slot => exact (newList_follows h).bind fun _ _ _ _ same => .pure (.cons ⟨rfl, same⟩ .nil)

theorem bindDict_follows (slot : Option Nat) {es fs : Entries Value} (h : L.entries es fs) :
    Follows static L bindings (bindDict slot es) (bindDict slot fs) := by
  cases slot with
  | none => exact .pure .nil
  | some slot => exact (newDict_follows h).bind fun _ _ _ _ same => .pure (.cons ⟨rfl, same⟩ .nil)

/-! ## Curried functions -/

theorem fix_follows {f g : FunctionObject} (signature : f.signature = g.signature)
    {fixed fixed' : List (Option Value)} (h : List.Forall₂ (Option.Rel L.values) fixed fixed')
    (name : String) {v w : Value} (same : L.values v w) :
    Follows static L (fun L => List.Forall₂ (Option.Rel L.values)) (f.fix fixed name v)
      (g.fix fixed' name w) := by
  rw [FunctionObject.fix, FunctionObject.fix, signature]
  split
  · exact (cast_follows same _).bind fun _ _ _ le same =>
      .pure (Arguments.Follows.set (h.imp fun _ _ x => optionValues_links le x) _ same)
  · exact .raise (.refl rfl)

theorem curry_follows {f g : FunctionId} (linked : L.functions f g)
    {args args' : List (String × Value)} (h : List.Forall₂ L.keyed args args') :
    Follows static L Links.values (curry f args) (curry g args') := by
  refine .memory fun m n now => ?_
  have follows := now.function f g linked
  have unfixed : List.Forall₂ (Option.Rel L.values)
      ((m.function f).signature.params.map fun _ => none)
      ((n.function g).signature.params.map fun _ => none) := by
    rw [follows.signature]
    exact List.forall₂_same.mpr fun x mem => by
      obtain ⟨_, -, rfl⟩ := List.mem_map.mp mem
      exact .none
  refine (Follows.foldlM (R := Links.keyed) (S := fun L => List.Forall₂ (Option.Rel L.values))
    Links.keyed_monotone (fun L' fixed fixed' a b _ now same => ?_) h
    unfixed).bind fun L' fixed fixed' le known => ?_
  · rw [same.1]
    exact fix_follows follows.signature now _ same.2
  · refine newFunction_follows ⟨?_, ?_, .curried (le.functions f g linked) known⟩
    · simp only [FunctionObject.curried]
      rw [follows.signature]
      congr 1
      exact List.forall₂_eq_eq_eq ▸ FunctionObject.free_follows known (List.forall₂_refl _)
    · exact Value.alikeItems_of_forall₂ (FunctionObject.free_follows known
        (follows.defaults.mono le.identities).forall₂)

end Eval

namespace Supply.Follows

variable {S T : Supply} (h : S.Follows static T)

include h

theorem bindSlot (space : SpaceId) (slot : Nat) {v w : Value} (same : L.values v w) :
    Eval.Follows static L (fun _ _ _ => True) (bindSlot S space slot v)
      (bindSlot T space slot w) :=
  (cellIn_follows space slot).bind fun _ id _ le hid => hid ▸ h.bind _ id v w (same.links le)

theorem bindSlots (space : SpaceId) {bs bs' : Bindings} (same : bindings L bs bs') :
    Eval.Follows static L (fun _ _ _ => True) (bindSlots S space bs) (bindSlots T space bs') :=
  .forM (R := Links.keyed) Links.keyed_monotone
    (fun L' b b' _ same => by rw [same.1]; exact h.bindSlot space _ same.2) same

/-- What a catch clause gets to know. -/
theorem bindCaught (error trace : Option Nat) {e e' : Exception} (same : Exception.Follows L e e')
    (block : SpaceId) :
    Eval.Follows static L (fun _ _ _ => True) (bindCaught S error trace e block)
      (bindCaught T error trace e' block) := by
  have fills : ∀ {L : Links} (slot : Option Nat) {value value' : ObjectId → Value},
      (∀ L' i j, L.Le L' → Links.values L' (value i) (value' j)) →
      Eval.Follows static L (fun _ _ _ => True)
        (slot.forM fun slot => do Eval.bindSlot S block slot (value (← create Memory.newObject)))
        (slot.forM fun slot => do
          Eval.bindSlot T block slot (value' (← create Memory.newObject))) := by
    intro L slot value value' same
    cases slot with
    | none => exact .pure trivial
    | some slot =>
      exact newObject_follows.bind fun _ i j le _ => h.bindSlot block slot (same _ i j le)
  exact (fills error fun L' i j le => (same.links le).caughtValue i j).bind fun _ _ _ le _ =>
    fills trace fun L' i j le' => (same.links (le.trans le')).traceValue i j

theorem reference (space : SpaceId) (ref : CellRef) :
    Eval.Follows static L Links.values (reference S space ref) (reference T space ref) := by
  unfold Eval.reference
  split
  · next index _ =>
    refine .memory fun m n now => ?_
    have closure := (now.space space).closure
    generalize (m.space space).closure = x at closure
    generalize (n.space space).closure = y at closure
    cases closure with
    | none => exact .raise (.refl rfl)
    | some linked =>
      refine (captured_follows linked index).bind fun L' a b le same => ?_
      cases same with
      | empty => exact .pure (.scalar trivial)
      | value origin same => exact .pure same
      | pending cell =>
        refine (h.force _ cell).bind fun L'' v w le' same => ?_
        exact (Eval.Follows.modifyMemory fun m n now =>
          now.fill ((le.trans le').closures _ _ linked) index same).bind
            fun _ _ _ le'' _ => .pure (same.links le'')
  · exact (resolve_follows space ref).bind fun _ id _ _ same => same ▸ h.force _ id

theorem capture (space : SpaceId) (plan : CapturePlan) :
    Eval.Follows static L (fun L a b => Captured.Follows L a b) (capture S space plan)
      (capture T space plan) := by
  cases plan with
  | propagate index =>
    refine .memory fun m n now => ?_
    have closure := (now.space space).closure
    generalize (m.space space).closure = x at closure
    generalize (n.space space).closure = y at closure
    cases closure with
    | none => exact .raise (.refl rfl)
    | some linked =>
      refine (captured_follows linked index).bind fun L' a b le same => ?_
      cases same with
      | empty => exact .pure (.value _ (.scalar trivial))
      | value origin same => exact .pure (.value origin same)
      | pending cell =>
        have value := (now.cell cell).value
        show Eval.Follows static L' _ (pure (m.settled (.pending cell)))
          (pure (n.settled (.pending cell)))
        rw [Memory.settled, Memory.settled]
        generalize (m.cell cell).value = x at value
        generalize (n.cell cell).value = y at value
        cases value with
        | some same => exact .pure (.value cell (same.links le))
        | none => exact .pure (.pending cell)
  | cell ref =>
    refine (resolve_follows space ref).bind fun L' id _ _ same => ?_
    subst same
    refine .memory fun m n now => ?_
    have cell := now.cell id
    have value := cell.value
    simp only
    generalize (m.cell id).value = x at value
    generalize (n.cell id).value = y at value
    cases value with
    | some same => exact .pure (.value id same)
    | none =>
      simp only
      rw [cell.evaluating]
      split
      · exact .pure (.pending id)
      · exact (h.force _ id).bind fun _ _ _ _ same => .pure (.value id same)

theorem callBound {f g : FunctionId} (linked : L.functions f g) {args args' : List CallArgument}
    (same : List.Forall₂ (CallArgument.Follows L) args args') :
    Eval.Follows static L Links.values (callBound S f args) (callBound T g args') := by
  have bound : Eval.Follows static L Links.items (ask fun m => (m.function f).bind args)
      (ask fun m => (m.function g).bind args') := .memory fun m n now =>
    .orderly ((now.function f g linked).bind same) (FunctionObject.bind_orderly _ args)
  exact bound.bind fun _ vs ws le same => h.call _ f g vs ws (le.functions f g linked) same

theorem callWith {f g : FunctionId} (linked : L.functions f g) {args args' : List CallArgument}
    (same : List.Forall₂ (CallArgument.Follows L) args args') :
    Eval.Follows static L Links.values (callWith S f args) (callWith T g args') := by
  have positional : Option.Rel L.items (CallArgument.positionals? args)
      (CallArgument.positionals? args') := by
    induction same with
    | nil => exact .some .nil
    | cons first _ ih =>
      cases first with
      | positional same => exact optionRel_map ih fun _ _ rest => .cons same rest
      | named | splat => exact .none
  unfold Eval.callWith
  generalize CallArgument.positionals? args = x at positional
  generalize CallArgument.positionals? args' = y at positional
  cases positional with
  | some values => exact h.call _ f g _ _ linked values
  | none => exact h.callBound linked same

end Supply.Follows

end CellScript
