import CellScript.Proofs.Code.Address
import CellScript.Proofs.Code.Below
import CellScript.Proofs.Scope.Sees

/-!
# Operations that ask for no later names

An expression that asks for the first names of a scope only becomes an operation that looks at the
first slots only, in the spaces of that scope. This is said of every scope around the place where
the expression stands, in the same function: from further in than the innermost function no address
leads out.

* `Analysis.Heeds` — a part of an operation looks no further than expressions ask
* `Analysis.Suits` — the same, together with what else is known about the part
* `Code.CellRef.Leads.below`, `Code.CapturePlan.Ok.below` — references and captured symbols
-/

namespace CellScript

open Code

namespace Arena

variable {a : Arena} {σ τ τ' : ScopeId} {depth : Nat}

/-- As many steps outwards there is one scope only. -/
theorem Near.unique (h : a.Near σ τ depth) (h' : a.Near σ τ' depth) : τ = τ' := by
  induction h with
  | here =>
    cases h'
    rfl
  | out _ enclosing _ ih =>
    cases h' with
    | out _ enclosing' rest =>
      rw [enclosing] at enclosing'
      cases enclosing'
      exact ih rest

end Arena

variable {a : Analysis} {σ inner : ScopeId} {count depth : Nat} {t : SymbolId}

/-! ## Addresses -/

/-- A reference that leads to one of the first symbols looks at one of the first slots. -/
theorem Code.CellRef.Leads.below {ref : CellRef} (h : ref.Leads a σ t)
    (near : a.arena.Near σ inner depth) (first : a.First inner count t) :
    ref.Below count depth := by
  have leads := h.address
  intro slot place
  cases ha : ref.address with
  | closure index | absolute path =>
    rw [ha] at place
    cases place
  | own slot' =>
    rw [ha] at leads place
    cases place
    obtain ⟨home, rfl⟩ := leads
    exact first (home.trans near.scope_eq.symm)
  | parent slot' | frame depth' slot' =>
    rw [ha] at leads place
    cases place
    obtain ⟨there, rfl⟩ := leads
    exact first (there.unique near)

/-- A function that captures one of the first symbols looks at one of the first slots. -/
theorem Code.CapturePlan.Ok.below {plan : CapturePlan} (h : plan.Ok a (some σ) t)
    (near : a.arena.Near σ inner depth) (first : a.First inner count t) :
    plan.Below count depth := by
  obtain ⟨creation, same, ok⟩ := h
  cases same
  cases plan with
  | propagate index => trivial
  | cell ref => exact ok.1.below near first

namespace Analysis

/-! ## Parts of operations -/

/-- Whatever the expressions ask for of a scope around this one, a part of an operation looks no
further. -/
def Heeds (a : Analysis) (σ : ScopeId) (es : List Expr) (below : Nat → Nat → Prop) : Prop :=
  ∀ inner depth count, a.arena.Near σ inner depth → (∀ e ∈ es, a.Sees inner count e) →
    below count depth

/-- A part of an operation is all right and looks no further than the expressions ask. -/
structure Suits (a : Analysis) (σ : ScopeId) (es : List Expr) (ok : Prop)
    (below : Nat → Nat → Prop) :
    Prop where
  ok : ok
  heeds : a.Heeds σ es below

/-- Every comprehension in the expressions is in order. -/
def AllOrdered (a : Analysis) (es : List Expr) : Prop := ∀ e ∈ es, a.Ordered e

theorem Ordered.children {e : Expr} (h : a.Ordered e) : a.AllOrdered e.children :=
  fun _ mem => h.child mem

namespace AllOrdered

variable {es fs : List Expr} {e : Expr}

theorem head (h : a.AllOrdered (e :: es)) : a.Ordered e := h e (List.mem_cons_self ..)

theorem tail (h : a.AllOrdered (e :: es)) : a.AllOrdered es :=
  fun e mem => h e (List.mem_cons_of_mem _ mem)

theorem left (h : a.AllOrdered (es ++ fs)) : a.AllOrdered es :=
  fun e mem => h e (List.mem_append_left _ mem)

theorem right (h : a.AllOrdered (es ++ fs)) : a.AllOrdered fs :=
  fun e mem => h e (List.mem_append_right _ mem)

end AllOrdered

namespace Suits

variable {es fs : List Expr} {P Q : Prop} {B C : Nat → Nat → Prop}

/-- Nothing is looked at. -/
theorem bare (ok : P) (below : ∀ count depth, B count depth) : a.Suits σ es P B :=
  ⟨ok, fun _ depth count _ _ => below count depth⟩

theorem imp (h : a.Suits σ es P B) (imp : P → Q) : a.Suits σ es Q B := ⟨imp h.ok, h.heeds⟩

/-- Another part that looks no further. -/
theorem narrow (h : a.Suits σ es P B) (imp : ∀ count depth, B count depth → C count depth) :
    a.Suits σ es P C :=
  ⟨h.ok, fun inner depth count near sees => imp count depth (h.heeds inner depth count near sees)⟩

/-- More expressions, which ask for more. -/
theorem among (h : a.Suits σ es P B) (sub : es ⊆ fs) : a.Suits σ fs P B :=
  ⟨h.ok, fun inner depth count near sees => h.heeds inner depth count near fun e mem =>
    sees e (sub mem)⟩

/-- Two parts, each for expressions of its own. -/
theorem pair (h : a.Suits σ es P B) (h' : a.Suits σ fs Q C) :
    a.Suits σ (es ++ fs) (P ∧ Q) fun count depth => B count depth ∧ C count depth :=
  ⟨⟨h.ok, h'.ok⟩, fun inner depth count near sees =>
    ⟨h.heeds inner depth count near fun e mem => sees e (List.mem_append_left _ mem),
      h'.heeds inner depth count near fun e mem => sees e (List.mem_append_right _ mem)⟩⟩

/-- An expression asks for what the expressions ask for of which it is made. -/
theorem whole {e : Expr} (h : a.Suits σ e.children P B) : a.Suits σ [e] P B :=
  ⟨h.ok, fun inner depth count near sees => h.heeds inner depth count near fun _ mem =>
    (sees e (List.mem_singleton.mpr rfl)).child mem⟩

/-- What stands in a block looks one step further out than what stands around it. -/
theorem out {node : NodeId} (h : a.Suits inner es P B) (block : a.BlockOf node σ inner) :
    a.Suits σ es P fun count depth => B count (depth + 1) :=
  ⟨h.ok, fun τ depth count near sees =>
    h.heeds τ (depth + 1) count (.out block.kind block.enclosing near) sees⟩

end Suits

/-- An operation looks at the first slots of its own scope only, if that is all the expression asks
for. -/
theorem Heeds.awaits {e : Expr} {op : Op} (h : a.Heeds σ [e] (op.Below · ·))
    (sees : a.Sees σ count e) :
    op.Awaits count :=
  fun more le => h σ 0 more .here fun _ mem => List.mem_singleton.mp mem ▸ sees.mono le

end Analysis

end CellScript
