import CellScript.Proofs.Modes.Steps

/-!
# Constants that one session has found in advance

Where folding has found a constant, the one session has it at once, and the other evaluates the
operation that the constant stands for. It creates lists, dictionaries and functions of its own, and
its value is alike to the constant.

* `literal_ahead` — a function that folding has created stands for one that is created now
* `Op.Yields.ahead` — evaluation of an operation gives the constant that it stands for
-/

namespace CellScript

open Code

namespace Eval

variable {static : Memory} {L : Links}

/-! ## Steps that only the first session takes -/

theorem newObject_ahead : Follows static L (fun _ _ _ => True) (Eval.create Memory.newObject)
    (pure ()) :=
  fun _ N now => .ok (.refl L) trivial
    ⟨now.memory.objects _ N.memory.objects (Nat.le_refl _), now.context⟩

theorem newList_ahead {xs ys : List Value} (i : ObjectId) (h : L.items xs ys) :
    Follows static L Links.values (newList xs) (pure (.list i ys)) :=
  newObject_ahead.ahead fun _ _ le _ => .pure (.list trivial (h.mono le.identities))

theorem newDict_ahead {es fs : Entries Value} (i : ObjectId) (h : L.entries es fs) :
    Follows static L Links.values (newDict es) (pure (.dict i fs)) :=
  newObject_ahead.ahead fun _ _ le _ => .pure (.dict trivial (h.mono le.identities))

/-- An outcome of the value library that the second session knows already. -/
theorem ofExcept_ahead {α β : Type} {R : Relation α β} {x : Except Exception α}
    {y : Except Exception β} {w : β} (h : BothEnd (R L) x y) (found : y = .ok w) :
    Follows static L R (ofExcept x) (pure w) := by
  subst found
  cases h with
  | ok h => exact .pure h

theorem cast_ahead {v w u : Value} {i : ObjectId} {ty : Ty} (h : L.values v w)
    (converted : w.cast i ty = .ok u) : Follows static L Links.values (cast v ty) (pure u) :=
  newObject_ahead.ahead fun _ _ le _ =>
    ofExcept_ahead (Value.cast_alike (h.links le) trivial ty) converted

/-- A function that has captured nothing is created where there is one already. -/
theorem literal_ahead {signature : Signature} {vs ws : List Value} (h : L.items vs ws)
    {body body' : Op} (hBody : Op.Becomes static body body') {t t' : Template}
    (hTemplate : Template.Becomes static t t') (region : Span) {g : FunctionId} {d : ClosureId}
    (created : g < static.functions.size ∧ d < static.closures.size) (empty : static.closure d = [])
    (found : static.function g = ⟨signature, ws, .literal body' t' d region⟩) :
    Follows static L Links.values (do
      let closure ← newClosure []
      Eval.create (·.newFunction ⟨signature, vs, .literal body t closure region⟩))
      (pure (.function g signature)) := by
  intro M N now
  have kept := now.memory.static
  -- First the new closure is linked to the one that folding has created, then the new function.
  have closed := now.memory.emptyClosure (Nat.lt_of_lt_of_le created.2 kept.closures)
    (kept.closure d created.2 empty)
  have le := L.le_withClosures M.memory.closures.size d
  have le' := (L.withClosures M.memory.closures.size d).le_withFunctions
    (M.memory.newClosure []).2.functions.size g
  have made := closed.withFunctions (f := ⟨signature, vs, .literal body t M.memory.closures.size
    region⟩) (.refl _) rfl (fun _ _ => rfl)
    (Nat.lt_of_lt_of_le created.1 kept.functions) rfl (by
      rw [kept.function g created.1, found]
      exact ⟨rfl, h.mono (le.trans le').identities,
        .literal hBody hTemplate (le'.closures _ _ (.inr ⟨rfl, rfl⟩)) region⟩)
  exact .ok (le.trans le') (.function signature (.inr ⟨rfl, rfl⟩))
    ⟨made, now.context.links (le.trans le')⟩

end Eval

namespace Code

open Eval

variable {static : Memory} (meet : Demand → Eval Value) (bind : CellId → Value → Eval PUnit)
  (space : SpaceId)

mutual

/-- **Evaluation gives the constant that the operation stands for.** -/
theorem Op.Yields.ahead : ∀ {op : Op} {v : Value} {L : Links}, Op.Yields static op v →
    Eval.Follows static L Links.values (op.eval ⟨meet, .idle, bind⟩ space) (pure v)
  | _, _, _, .mk span h => h.ahead.located span

theorem Action.Yields.ahead : ∀ {a : Action} {v : Value} {L : Links}, Action.Yields static a v →
    Eval.Follows static L Links.values (a.eval ⟨meet, .idle, bind⟩ space) (pure v)
  | _, _, _, .constant scalar => .pure (.scalar scalar)
  | _, _, _, .list i h => by
    rw [Action.eval]
    exact h.ahead.ahead fun _ _ _ same => newList_ahead i same
  | _, _, _, .dict i h => by
    rw [Action.eval]
    exact (h.ahead .nil).ahead fun _ _ _ same => newDict_ahead i same
  | _, _, _, .function h returns hBody hTemplate region created empty found => by
    rw [Action.eval]
    exact h.ahead.ahead fun _ _ _ same =>
      literal_ahead same hBody hTemplate region created empty found
  | _, _, _, .ifTrue e hc truthy ht => by
    rw [Action.eval]
    refine hc.ahead.ahead fun L' u _ same => ?_
    rw [same.truthy, truthy]
    exact ht.ahead
  | _, _, _, .ifFalse t hc falsy he => by
    rw [Action.eval]
    refine hc.ahead.ahead fun L' u _ same => ?_
    rw [same.truthy, falsy]
    exact he.ahead
  | _, _, _, .andTrue mode hl truthy hr => by
    rw [Action.eval]
    refine hl.ahead.ahead fun L' u _ same => ?_
    rw [same.truthy, truthy]
    exact hr.ahead.ahead fun _ _ _ same => .pure (by rw [same.truthy]; exact .scalar trivial)
  | _, _, _, .andFalse mode r hl falsy => by
    rw [Action.eval]
    refine hl.ahead.ahead fun L' u _ same => ?_
    rw [same.truthy, falsy]
    exact .pure (.scalar trivial)
  | _, _, _, .orTrue mode r hl truthy => by
    rw [Action.eval]
    refine hl.ahead.ahead fun L' u _ same => ?_
    rw [same.truthy, truthy]
    exact .pure (.scalar trivial)
  | _, _, _, .orFalse mode hl falsy hr => by
    rw [Action.eval]
    refine hl.ahead.ahead fun L' u _ same => ?_
    rw [same.truthy, falsy]
    exact hr.ahead.ahead fun _ _ _ same => .pure (by rw [same.truthy]; exact .scalar trivial)
  | .binary op _ _ _, _, _, .binary blind both mode hl hr result => by
    rw [Action.eval]
    · refine hl.ahead.ahead fun L' a _ left => hr.ahead.ahead fun L'' b le right => ?_
      refine ofExcept_ahead ?_ result
      rw [Value.binaryIn_eq, Value.binaryIn_eq]
      exact Value.binary_alike op (fun equal => absurd equal blind) (left.links le) right
    · exact both.1
    · exact both.2
  | _, _, _, .unary op h result => by
    rw [Action.eval]
    exact h.ahead.ahead fun _ _ _ same => ofExcept_ahead (Value.unary_alike op same) result
  | _, _, _, .cast ty i h result => by
    rw [Action.eval]
    exact h.ahead.ahead fun _ _ _ same => cast_ahead same result
  | _, _, _, .isOf ty h => by
    rw [Action.eval]
    exact h.ahead.ahead fun _ _ _ same => .pure (by rw [same.isOf]; exact .scalar trivial)

theorem ItemsYield.ahead : ∀ {items : List Item} {vs : List Value} {L : Links},
    ItemsYield static items vs →
    Eval.Follows static L Links.items (evalItems ⟨meet, .idle, bind⟩ space items) (pure vs)
  | _, _, _, .nil => .pure .nil
  | _, _, _, .value h rest => by
    rw [evalItems]
    exact h.ahead.ahead fun _ _ _ first => rest.ahead.ahead fun _ _ le others =>
      .pure (.cons (first.links le) others)
  | _, _, _, .splat h spread rest => by
    rw [evalItems]
    exact h.ahead.ahead fun _ _ _ same =>
      (ofExcept_ahead (R := Links.items) (Value.spreadItems_alike same) spread).ahead
        fun _ _ _ first => rest.ahead.ahead fun _ _ le others =>
          .pure ((first.mono le.identities).append others)

theorem EntriesYield.ahead : ∀ {before after es : Entries Value} {entries : List Entry} {L : Links},
    L.entries es before → EntriesYield static before entries after →
    Eval.Follows static L Links.entries (evalEntries ⟨meet, .idle, bind⟩ space es entries)
      (pure after)
  | _, _, _, _, _, same, .nil _ => .pure same
  | _, _, _, _, _, same, .pair hk converted hv rest => by
    rw [evalEntries]
    refine hk.ahead.ahead fun L' u le first => ?_
    -- The key is the same text on both sides, and only the value is computed ahead.
    rw [first.toKey, converted]
    exact Follows.ahead (R := fun _ => Eq) (.pure rfl) fun L'' key le' hkey => hv.ahead.ahead
      fun L''' w le'' second => hkey ▸ rest.ahead
        ((same.mono ((le.trans le').trans le'').identities).insert _ second)
  | _, _, _, _, _, same, .splat h spread rest => by
    rw [evalEntries]
    exact h.ahead.ahead fun _ _ le first =>
      (ofExcept_ahead (R := Links.entries) (Value.spreadEntries_alike first) spread).ahead
        fun _ _ le' others => rest.ahead ((same.mono (le.trans le').identities).merge others)

theorem ParamsYield.ahead : ∀ {params : List Param} {vs : List Value} {L : Links},
    ParamsYield static params vs →
    Eval.Follows static L Links.items (evalDefaults ⟨meet, .idle, bind⟩ space params) (pure vs)
  | _, _, _, .nil => .pure .nil
  | _, _, _, .required name ty rest => by
    rw [evalDefaults]
    exact rest.ahead.ahead fun _ _ _ others => .pure (.cons (.scalar trivial) others)
  | _, _, _, .optional name ty i h converted rest => by
    rw [evalDefaults]
    exact h.ahead.ahead fun _ _ _ same => (cast_ahead same converted).ahead fun _ _ le first =>
      rest.ahead.ahead fun _ _ le' others => .pure (.cons (first.links le') others)

end

end Code

end CellScript
