import CellScript.Proofs.Code.Templates
import CellScript.Proofs.Session.Requests

/-!
# Buffers between requests

No call leaves anything in the buffer that it has used. Compilation evaluates constants only, laying
out uses no buffer, and whatever is asked of a session, all buffers are empty when the answer is
there. So every call finds an empty buffer, also when it is made by one that has a buffer in use.

* `Layout.program_leaves` — laying out
* `Session.start_clear` — a new session
* `Session.serve_clear` — after any sequence of requests
-/

namespace CellScript

open Code (Options Template)

namespace Layout

variable {α β : Type}

/-- The step leaves the buffers as they are. -/
def Leaves (x : Step α) : Prop :=
  ∀ ⦃l l' : Layout⦄ ⦃v : α⦄, x.run l = .ok (v, l') → l'.memory.scratch = l.memory.scratch

namespace Leaves

theorem pure (v : α) : Leaves (Pure.pure v) := by
  rintro l _ _ ⟨⟩
  rfl

theorem get : Leaves (MonadState.get : Step Layout) := by
  rintro l _ _ ⟨⟩
  rfl

theorem throw (e : Exception) : Leaves (MonadExcept.throw e : Step α) := by
  rintro l l' v ⟨⟩

theorem bind {x : Step α} {f : α → Step β} (hx : Leaves x) (hf : ∀ v, Leaves (f v)) :
    Leaves (x >>= f) := by
  intro l l' v h
  rw [StateT.run_bind] at h
  cases first : x.run l with
  | error e =>
    rw [first] at h
    cases h
  | ok r =>
    rw [first] at h
    exact (hf r.1 h).trans (hx first)

theorem add (scope : ScopeId) {create : Memory → SpaceId × Memory}
    (same : ∀ m, (create m).2.scratch = m.scratch) : Leaves (add scope create) := by
  rintro l _ _ ⟨⟩
  exact same l.memory

theorem setMembers (id : CellId) (space : SpaceId) :
    Leaves (modify fun l : Layout =>
      { l with memory := l.memory.modifyCell id fun c => { c with members := some space } }) := by
  rintro l _ _ ⟨⟩
  rfl

end Leaves

theorem members_leaves {layOut : ScopeId → Step SpaceId} (h : ∀ σ, Leaves (layOut σ)) :
    ∀ ids : List CellId, Leaves (members layOut ids)
  | [] => .pure _
  | id :: rest => by
    rw [members]
    refine Leaves.get.bind fun l => ?_
    dsimp only
    split
    · exact members_leaves h rest
    · exact (h _).bind fun space => (Leaves.setMembers id space).bind fun _ => members_leaves h rest

variable (arena : Arena) (templates : Table ScopeId Template)

theorem scope_leaves : ∀ (fuel : Nat) (id : ScopeId) (parent : SpaceId),
    Leaves (scope arena templates fuel id parent)
  | 0, _, _ => .throw _
  | fuel + 1, id, parent => by
    rw [scope]
    split
    · exact .throw _
    · refine Leaves.get.bind fun l => (Leaves.add id fun _ => rfl).bind fun space => ?_
      refine Leaves.get.bind fun l => ?_
      exact (members_leaves (fun inner => scope_leaves fuel inner space) _).bind fun _ => .pure _

/-- **Laying out uses no buffer.** -/
theorem program_leaves : Leaves (program arena templates) := by
  unfold program
  split
  · exact .throw _
  · refine (Leaves.add _ fun _ => rfl).bind fun units => Leaves.get.bind fun l => ?_
    exact (members_leaves (fun id => scope_leaves arena templates _ id units) _).bind
      fun _ => .pure _

end Layout

namespace Session

variable {s : Session} {supply : Supply}

/-- **All buffers of a new session are empty.** -/
theorem start_clear {options : Options} {units : UnitSet} {a : Analysis}
    (started : start options units a = .ok s) : s.memory.scratch.Clear := by
  have compiled := (Compiler.program_keeps (c := ⟨a, options⟩) units ⟨.initial, []⟩).memory.clear
    Pool.clear_unused
  unfold start at started
  simp only [bind, Except.bind] at started
  split at started
  · cases started
  · next r laid =>
    cases started
    exact (Layout.program_leaves _ _ laid).symm ▸ compiled

theorem run_clear {α : Type} {x : Eval α} (keeps : Eval.Enlarges x)
    (clear : s.memory.scratch.Clear) :
    (s.run x).2.memory.scratch.Clear :=
  (keeps.run _).clear clear

theorem report_clear {α : Type} {r : Answer α × Session} (clear : r.2.memory.scratch.Clear) :
    (report r).2.memory.scratch.Clear := by
  unfold report
  split
  · exact clear
  · exact clear

theorem forceAll_enlarges (keeps : supply.Enlarges) :
    ∀ (depth : Nat) (space : SpaceId), Eval.Enlarges (forceAll supply depth space)
  | 0, _ => .pure _
  | depth + 1, space => by
    rw [forceAll_succ]
    refine Eval.Enlarges.memory.bind fun m => .forM (fun id => ?_) _
    refine Eval.Enlarges.memory.bind fun m => ?_
    dsimp only
    split
    · exact forceAll_enlarges keeps depth _
    · split
      · exact (keeps.meet _).map _
      · exact .pure _

theorem spaceBy_clear (keeps : supply.Enlarges) (found : Except Exception SpaceId)
    (clear : s.memory.scratch.Clear) : (s.spaceBy supply found).2.memory.scratch.Clear := by
  unfold spaceBy whenFound
  split
  · exact report_clear (run_clear ((forceAll_enlarges keeps _ _).bind fun _ => .pure _) clear)
  · exact clear

/-- However a request ends, its calls have cleared their buffers. -/
theorem answerBy_clear (keeps : supply.Enlarges) (clear : s.memory.scratch.Clear) :
    ∀ request : Request, (request.answerBy supply s).2.memory.scratch.Clear
  | .var path names => by
    show (s.varBy supply path names).2.memory.scratch.Clear
    unfold varBy whenFound
    split
    · exact report_clear (run_clear (keeps.meet _) clear)
    · exact clear
  | .unit _ => spaceBy_clear keeps _ clear
  | .interactiveSection _ _ => spaceBy_clear keeps _ clear
  | .call _ _ => run_clear ((Eval.Enlarges.ask _).bind fun _ => keeps.meet _) clear

/-- **After any requests all buffers are empty**, whoever watches without taking memory back. -/
theorem serve_clear {watch : Watch} (keeps : watch.Enlarges) (requests : List (Nat × Request))
    (clear : s.memory.scratch.Clear) : (s.serve watch requests).2.memory.scratch.Clear := by
  induction requests generalizing s with
  | nil => exact clear
  | cons first rest ih =>
    exact ih (answerBy_clear (Supply.watched_enlarges keeps first.1) clear first.2)

end Session

end CellScript
