import CellScript.Proofs.Scope.Visits
import CellScript.Proofs.Syntax.Uses

/-!
# Expressions told apart by their nodes

In a program whose nodes are told apart no two expressions have the same node. The functions around
a use are known by their nodes only, so this tells which expressions they are: a reference that is
used in the body of a function occurs in it.

* `UnitSet.Numbered.eq_of_node` — expressions of a program with the same node are the same
* `Expr.function_of_mem_uses` — the functions around a use occur around the reference
-/

namespace CellScript

theorem Expr.node_mem_nodeIds (e : Expr) : e.node.id ∈ e.nodeIds :=
  e.parts_subperm.subset (List.mem_cons_self ..)

theorem idsOfExprs_eq (es : List Expr) : idsOfExprs es = es.flatMap (·.nodeIds) := by
  induction es with
  | nil => rfl
  | cons e rest ih => rw [idsOfExprs, ih, List.flatMap_cons]

/-- If nothing is listed twice, what is listed under two keys is listed under one. -/
theorem eq_of_nodup_flatMap {α β : Type} {l : List α} {f : α → List β} {a b : α} {x : β}
    (nodup : (l.flatMap f).Nodup) (ha : a ∈ l) (hb : b ∈ l) (inA : x ∈ f a)
    (inB : x ∈ f b) : a = b :=
  have : Std.Symm (Function.onFun List.Disjoint f) := ⟨fun _ _ h => List.disjoint_comm.mp h⟩
  Classical.byContradiction fun other =>
    (List.nodup_flatMap.mp nodup).2.forall ha hb other inA inB

/-- **What occurs in an expression is known by its node**, if the nodes are told apart. -/
theorem Expr.Occurs.eq_of_node {whole e e' : Expr} (nodup : whole.nodeIds.Nodup)
    (h : whole.Occurs e) (h' : whole.Occurs e') (same : e.node.id = e'.node.id) : e = e' := by
  induction whole using Expr.children_induction with
  | step whole ih =>
    have parts := nodup_of_subperm whole.parts_subperm nodup
    obtain ⟨outside, once⟩ := List.nodup_cons.mp parts
    rw [idsOfExprs_eq] at outside once
    have inside : ∀ {part inner : Expr}, part ∈ whole.children → part.Occurs inner →
        inner.node.id ∈ whole.children.flatMap (·.nodeIds) := fun mem occurs =>
      List.mem_flatMap.mpr ⟨_, mem, occurs.subperm.subset (node_mem_nodeIds _)⟩
    rcases h.cases with rfl | ⟨part, mem, occurs⟩ <;>
      rcases h'.cases with rfl | ⟨part', mem', occurs'⟩
    · rfl
    · exact absurd (same ▸ inside mem' occurs') outside
    · exact absurd (same ▸ inside mem occurs) outside
    · obtain rfl : part = part' := eq_of_nodup_flatMap once mem mem'
        (occurs.subperm.subset e.node_mem_nodeIds)
          (same ▸ occurs'.subperm.subset e'.node_mem_nodeIds)
      exact ih part mem ((List.nodup_flatMap.mp once).1 part mem) occurs occurs'

/-- **Expressions of a program with the same node are the same.** -/
theorem UnitSet.Numbered.eq_of_node {units : UnitSet} (numbered : units.Numbered) {e e' : Expr}
    (h : units.Contains e) (h' : units.Contains e') (same : e.node.id = e'.node.id) : e = e' := by
  obtain ⟨u, hu, h⟩ := h
  obtain ⟨u', hu', h'⟩ := h'
  have inUnit : ∀ {u : SourceUnit} {e : Expr}, u.Contains e → e.node.id ∈ u.nodeIds := fun h =>
    List.mem_cons_of_mem _ (h.subperm.subset (Expr.node_mem_nodeIds _))
  obtain rfl : u = u' := eq_of_nodup_flatMap numbered.nodup hu hu' (inUnit h) (same ▸ inUnit h')
  have once : (u.groups.flatMap idsOfGroup).Nodup := u.groups_sublist.nodup
    (List.nodup_cons.mp ((List.nodup_flatMap.mp numbered.nodup).1 u hu)).2
  obtain ⟨g, hg, v, hv, occurs⟩ := h
  obtain ⟨g', hg', v', hv', occurs'⟩ := h'
  have inGroup : ∀ {g : Node × List VarDef} {v : VarDef} {e : Expr}, v ∈ g.2 → v.value.Occurs e →
      e.node.id ∈ idsOfGroup g := fun mem occurs =>
    List.mem_cons_of_mem _ ((VarDef.value_subperm mem).subset
      (occurs.subperm.subset (Expr.node_mem_nodeIds _)))
  obtain rfl : g = g' := eq_of_nodup_flatMap once hg hg' (inGroup hv occurs)
    (same ▸ inGroup hv' occurs')
  have values : (g.2.flatMap fun v => v.value.nodeIds).Nodup := by
    have all := (idsOfVars_perm g.2).nodup_iff.mp
      (List.nodup_cons.mp ((List.nodup_flatMap.mp once).1 g hg)).2
    rw [idsOfExprs_eq, List.flatMap_map] at all
    exact (List.nodup_append'.mp all).2.1
  obtain rfl : v = v' := eq_of_nodup_flatMap values hv hv'
    (occurs.subperm.subset e.node_mem_nodeIds) (same ▸ occurs'.subperm.subset e'.node_mem_nodeIds)
  exact occurs.eq_of_node ((List.nodup_flatMap.mp values).1 v hv) occurs' same

/-! ## Uses -/

namespace Expr

variable {u : Use}

/-- What is used in an expression is a reference in it. -/
theorem reference_of_mem_uses (e : Expr) : ∀ {around : List NodeId}, u ∈ e.uses around →
    ∃ node target, node.id = u.node ∧ e.Occurs (.reference node target) := by
  induction e using children_induction with
  | step e ih =>
    intro around h
    have parts : ∀ {es : List Expr}, es ⊆ e.children → u ∈ es.flatMap (·.uses around) →
        ∃ node target, node.id = u.node ∧ e.Occurs (.reference node target) := by
      intro es sub mem
      obtain ⟨part, mem, hu⟩ := List.mem_flatMap.mp mem
      obtain ⟨node, target, same, occurs⟩ := ih part (sub mem) hu
      exact ⟨node, target, same, occurs.trans (.child (sub mem) .whole)⟩
    cases hp : e.isPlain with
    | true =>
      rw [uses_of_children around hp] at h
      exact parts (List.Subset.refl _) h
    | false =>
      cases e with
      | reference node target =>
        rw [uses_reference, List.mem_singleton] at h
        exact ⟨node, target, by rw [h], .whole⟩
      | function node params returns body =>
        rw [uses_function] at h
        rcases List.mem_append.mp h with h | h
        · exact parts (List.subset_append_left ..) h
        · have mem : body ∈ (function node params returns body).children :=
            List.mem_append_right _ (List.mem_singleton.mpr rfl)
          obtain ⟨rnode, target, same, occurs⟩ := ih body mem h
          exact ⟨rnode, target, same, occurs.trans (.child mem .whole)⟩
      | _ => cases hp

/-- **The functions around a use in an expression occur in it, with the reference in them**, or they
lie around the expression. -/
theorem function_of_mem_uses {n : NodeId} (inside : n ∈ u.functions) (e : Expr) :
    ∀ {around : List NodeId}, u ∈ e.uses around → n ∈ around ∨ ∃ f, e.Occurs f ∧ f.node.id = n ∧
      ∃ node target, node.id = u.node ∧ f.Occurs (.reference node target) := by
  induction e using children_induction with
  | step e ih =>
    intro around h
    have outwards : ∀ {around : List NodeId} {part : Expr}, part ∈ e.children →
        u ∈ part.uses around → n ∈ around ∨ ∃ f, e.Occurs f ∧ f.node.id = n ∧
          ∃ node target, node.id = u.node ∧ f.Occurs (.reference node target) := fun mem hu =>
      (ih _ mem hu).imp_right fun ⟨f, occurs, rest⟩ => ⟨f, occurs.trans (.child mem .whole), rest⟩
    cases hp : e.isPlain with
    | true =>
      rw [uses_of_children around hp] at h
      obtain ⟨part, mem, hu⟩ := List.mem_flatMap.mp h
      exact outwards mem hu
    | false =>
      cases e with
      | reference node target =>
        rw [uses_reference, List.mem_singleton] at h
        rw [h] at inside
        exact .inl inside
      | function node params returns body =>
        have used := reference_of_mem_uses _ h
        rw [uses_function] at h
        rcases List.mem_append.mp h with h | h
        · obtain ⟨part, mem, hu⟩ := List.mem_flatMap.mp h
          exact outwards (List.mem_append_left _ mem) hu
        · rcases outwards (List.mem_append_right _ (List.mem_singleton.mpr rfl))
            h with there | found
          · rcases List.mem_cons.mp there with rfl | there
            · exact .inr ⟨_, .whole, rfl, used⟩
            · exact .inl there
          · exact .inr found
      | _ => cases hp

end Expr

/-- **A reference that is used in a function of a program occurs in the function.** -/
theorem UnitSet.Numbered.occurs_of_mem_uses {units : UnitSet} (numbered : units.Numbered) {f : Expr}
    (contains : units.Contains f) {u : Use} (mem : u ∈ units.uses)
    (inside : f.node.id ∈ u.functions) :
    ∃ node target, node.id = u.node ∧ f.Occurs (.reference node target) := by
  obtain ⟨unit, hunit, mem⟩ := List.mem_flatMap.mp mem
  obtain ⟨g, hg, mem⟩ := List.mem_flatMap.mp mem
  obtain ⟨v, hv, mem⟩ := List.mem_flatMap.mp mem
  rcases v.value.function_of_mem_uses inside mem with none | ⟨f', occurs, same, used⟩
  · cases none
  · rwa [numbered.eq_of_node contains ⟨unit, hunit, g, hg, v, hv, occurs⟩ same.symm]

end CellScript
