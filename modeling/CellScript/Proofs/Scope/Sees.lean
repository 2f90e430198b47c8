import CellScript.Code.Compile
import CellScript.Proofs.Scope.Analyzed
import CellScript.Proofs.Syntax.Occurs

/-!
# Comprehensions in order

The heads of a comprehension hold their slots in the order in which they stand, and what stands in a
head asks only for names that come before it: references do, at any depth, and so do functions with
what they capture. A definition may ask for itself.

* `Analysis.Sees` — an expression asks for the first names of a scope only
* `Analysis.Ordered` — every comprehension in an expression is in order
* `Analysis.Accepts` — what is known about an accepted program
-/

namespace CellScript

namespace Analysis

variable (a : Analysis)

/-- The symbol is among the first of a scope, if it is declared there at all. -/
def First (inner : ScopeId) (count : Nat) (t : SymbolId) : Prop :=
  (a.arena.symbol t).scope = inner → (a.arena.symbol t).slot < count

/-- Of the names of a scope, the expression asks for the first ones only. -/
structure Sees (inner : ScopeId) (count : Nat) (e : Expr) : Prop where
  reference : ∀ node target, e.Occurs (.reference node target) →
    ∀ r, a.references.get? node.id = some (.ok r) → a.First inner count r.target
  captured : ∀ f σ, e.Occurs f → a.createdScopes.get? f.node.id = some σ →
    ∀ t ∈ a.closedOver f.node.id, a.First inner count t

/-- The heads hold the slots of a scope from a number on, one after the other and all of them. What
stands in a head asks only for names that come before it, the value of a definition also for
itself. -/
def HeadsOrdered (inner : ScopeId) : Nat → List ForHead → Prop
  | count, [] => count = (a.arena.scope inner).slots.length
  | count, .generator node _ _ source :: rest =>
    a.slotOf? node.id = some count ∧ a.Sees inner count source ∧ HeadsOrdered inner (count + 1) rest
  | count, .definition node _ _ value :: rest =>
    a.slotOf? node.id = some count ∧ a.Sees inner (count + 1) value ∧
      HeadsOrdered inner (count + 1) rest
  | count, .condition e :: rest => a.Sees inner count e ∧ HeadsOrdered inner count rest

/-- Every comprehension in the expression is in order. -/
def Ordered (e : Expr) : Prop :=
  ∀ node heads body inner, e.Occurs (.forEach node heads body) →
    a.createdScopes.get? node.id = some inner → a.HeadsOrdered inner 0 heads

variable {a} {inner : ScopeId} {count more : Nat} {e part : Expr}

theorem Sees.child (h : a.Sees inner count e) (mem : part ∈ e.children) : a.Sees inner count part :=
  ⟨fun node target occurs => h.reference node target (occurs.trans (.child mem .whole)),
    fun f σ occurs => h.captured f σ (occurs.trans (.child mem .whole))⟩

theorem Sees.mono (h : a.Sees inner count e) (le : count ≤ more) : a.Sees inner more e :=
  ⟨fun node target occurs r found home =>
      Nat.lt_of_lt_of_le (h.reference node target occurs r found home) le,
    fun f σ occurs created t mem home =>
      Nat.lt_of_lt_of_le (h.captured f σ occurs created t mem home) le⟩

theorem Ordered.child (h : a.Ordered e) (mem : part ∈ e.children) : a.Ordered part :=
  fun node heads body inner occurs => h node heads body inner (occurs.trans (.child mem .whole))

end Analysis

/-- The tables describe every expression of the program. -/
theorem Analysis.Covers.sound {a : Analysis} {units : UnitSet} (covers : a.Covers units) {e : Expr}
    (located : units.Contains e) : ∃ σ, e.Sound a a.Reaches σ := by
  obtain ⟨u, mem, g, hg, v, hv, occurs⟩ := located
  obtain ⟨M, home, -, -, -, -, group⟩ := covers.describes.group u mem
  rw [← u.map_namedGroups] at hg
  obtain ⟨named, hnamed, rfl⟩ := List.mem_map.mp hg
  obtain ⟨σ, l, grouped⟩ := group named hnamed
  obtain ⟨inner, -, sound⟩ :=
    ((soundVars_iff _).mp grouped.sound _ (List.mem_map_of_mem hv)).occurs occurs
  exact ⟨inner, sound⟩

/-- The tables describe a program, everything it refers to can be reached, and what comprehensions
ask for comes before. -/
structure Analysis.Accepts (a : Analysis) (units : UnitSet) : Prop extends a.Covers units where
  ordered : ∀ e, units.Contains e → a.Ordered e

end CellScript
