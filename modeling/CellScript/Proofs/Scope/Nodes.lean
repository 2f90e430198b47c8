import CellScript.Syntax.Unit

/-!
# The nodes of a program

Every node of a syntax tree in the order in which it is read. Analysis keeps its findings in tables
by node, so that nothing can be said about them unless the nodes of a program are told apart.

* `UnitSet.Numbered` — no two nodes of a program have the same identity
* `Pattern.count_le` — what a pattern captures and the expressions in it are different nodes
-/

namespace CellScript

/-- The node of a captured name, if there is one. -/
def captureIds (capture : Option Capture) : List NodeId := capture.toList.map (·.node.id)

mutual

def Expr.nodeIds : Expr → List NodeId
  | .constant node _ => [node.id]
  | .reference node _ => [node.id]
  | .list node items => node.id :: idsOfItems items
  | .dict node entries => node.id :: idsOfEntries entries
  | .function node params _ body => node.id :: (idsOfParams params ++ body.nodeIds)
  | .call node callee args => node.id :: (callee.nodeIds ++ idsOfArguments args)
  | .curry node callee args => node.id :: (callee.nodeIds ++ idsOfNamed args)
  | .letIn node bindings body => node.id :: (idsOfVars bindings ++ body.nodeIds)
  | .ifElse node c t e => node.id :: (c.nodeIds ++ (t.nodeIds ++ e.nodeIds))
  | .matchOn node subject lines => node.id :: (subject.nodeIds ++ idsOfLines lines)
  | .forEach node heads body => node.id :: (idsOfHeads heads ++ body.nodeIds)
  | .binary node _ l r => node.id :: (l.nodeIds ++ r.nodeIds)
  | .unary node _ e => node.id :: e.nodeIds
  | .cast node e _ => node.id :: e.nodeIds
  | .isOf node e _ => node.id :: e.nodeIds
  | .access node c keys => node.id :: (c.nodeIds ++ idsOfExprs keys)
  | .tryCatch node body clause error trace handler =>
    node.id :: (body.nodeIds ++ clause.id :: (captureIds error ++ captureIds trace ++
      handler.nodeIds))
  | .throw node e => node.id :: e.nodeIds

def idsOfExprs : List Expr → List NodeId
  | [] => []
  | e :: rest => e.nodeIds ++ idsOfExprs rest

def idsOfOption : Option Expr → List NodeId
  | none => []
  | some e => e.nodeIds

def idsOfItems : List ListItem → List NodeId
  | [] => []
  | .value e :: rest => e.nodeIds ++ idsOfItems rest
  | .splat e :: rest => e.nodeIds ++ idsOfItems rest

def idsOfEntries : List DictEntry → List NodeId
  | [] => []
  | .pair k v :: rest => k.nodeIds ++ (v.nodeIds ++ idsOfEntries rest)
  | .splat e :: rest => e.nodeIds ++ idsOfEntries rest

def idsOfParams : List Param → List NodeId
  | [] => []
  | ⟨node, _, _, default⟩ :: rest => node.id :: (idsOfOption default ++ idsOfParams rest)

def idsOfArguments : List Argument → List NodeId
  | [] => []
  | .positional e :: rest => e.nodeIds ++ idsOfArguments rest
  | .named _ e :: rest => e.nodeIds ++ idsOfArguments rest
  | .splat e :: rest => e.nodeIds ++ idsOfArguments rest

def idsOfNamed : List NamedExpr → List NodeId
  | [] => []
  | ⟨_, e⟩ :: rest => e.nodeIds ++ idsOfNamed rest

def idsOfVars : List VarDef → List NodeId
  | [] => []
  | ⟨node, _, _, e⟩ :: rest => node.id :: (e.nodeIds ++ idsOfVars rest)

def idsOfLines : List MatchLine → List NodeId
  | [] => []
  | ⟨node, pattern, guard, result⟩ :: rest =>
    node.id :: (pattern.nodeIds ++ (idsOfOption guard ++ (result.nodeIds ++ idsOfLines rest)))

def idsOfHeads : List ForHead → List NodeId
  | [] => []
  | .generator node _ _ source :: rest => node.id :: (source.nodeIds ++ idsOfHeads rest)
  | .definition node _ _ e :: rest => node.id :: (e.nodeIds ++ idsOfHeads rest)
  | .condition e :: rest => e.nodeIds ++ idsOfHeads rest

def Pattern.nodeIds : Pattern → List NodeId
  | ⟨node, shape, whole⟩ => node.id :: (shape.nodeIds ++ captureIds whole)

def PatternShape.nodeIds : PatternShape → List NodeId
  | .expr e => e.nodeIds
  | .wildcard => []
  | .default => []
  | .ofType _ => []
  | .list items => idsOfPatterns items
  | .headTail head tail => idsOfPatterns head ++ captureIds tail
  | .initLast init last => captureIds init ++ idsOfPatterns last
  | .middle head mid last => idsOfPatterns head ++ (captureIds mid ++ idsOfPatterns last)
  | .dict entries => idsOfKeyPatterns entries
  | .openDict entries rest => idsOfKeyPatterns entries ++ captureIds rest

def idsOfPatterns : List Pattern → List NodeId
  | [] => []
  | p :: rest => p.nodeIds ++ idsOfPatterns rest

def idsOfKeyPatterns : List KeyPattern → List NodeId
  | [] => []
  | ⟨_, p⟩ :: rest => p.nodeIds ++ idsOfKeyPatterns rest

end

/-! ## Units -/

def Import.nodeIds (i : Import) : List NodeId := i.node.id :: i.members.map (·.node.id)

def Library.nodeIds (l : Library) : List NodeId := l.node.id :: idsOfVars l.vars

def Section.nodeIds (s : Section) : List NodeId := s.node.id :: idsOfVars s.vars

def Module.nodeIds (m : Module) : List NodeId :=
  m.imports.flatMap Import.nodeIds ++ m.aliases.map (·.node.id) ++
    m.libraries.flatMap Library.nodeIds ++ m.exports.map (·.node.id)

def UnitKind.nodeIds : UnitKind → List NodeId
  | .module m => m.nodeIds
  | .interactive sections => sections.flatMap Section.nodeIds

def SourceUnit.nodeIds (u : SourceUnit) : List NodeId := u.node.id :: u.kind.nodeIds

def UnitSet.nodeIds (units : UnitSet) : List NodeId := List.flatMap SourceUnit.nodeIds units

/-- The nodes of a group of definitions. -/
def idsOfGroup (g : Node × List VarDef) : List NodeId := g.1.id :: idsOfVars g.2

theorem SourceUnit.groups_sublist (u : SourceUnit) :
    (u.groups.flatMap idsOfGroup).Sublist u.kind.nodeIds := by
  unfold SourceUnit.groups UnitKind.nodeIds
  cases u.kind with
  | module m =>
    simp only [List.flatMap_map]
    exact (List.sublist_append_right ..).trans (List.sublist_append_left ..)
  | interactive sections =>
    simp only [List.flatMap_map]
    exact List.Sublist.refl _

/-- The nodes of a program are numbered: each has an identity of its own, and none has the identity
that stands for the global name of a unit. -/
structure UnitSet.Numbered (units : UnitSet) : Prop where
  nodup : units.nodeIds.Nodup
  tree : ∀ id ∈ units.nodeIds, ∃ index, id = .tree index

/-- The node stands in a syntax tree. -/
def NodeId.isTree : NodeId → Bool
  | .tree _ => true
  | .globalName _ => false

theorem NodeId.isTree_iff {id : NodeId} : id.isTree = true ↔ ∃ index, id = .tree index := by
  cases id with
  | tree index => exact ⟨fun _ => ⟨index, rfl⟩, fun _ => rfl⟩
  | globalName index => exact ⟨fun h => (by cases h), fun ⟨_, h⟩ => (by cases h)⟩

instance (units : UnitSet) : Decidable units.Numbered :=
  decidable_of_iff (units.nodeIds.Nodup ∧ ∀ id ∈ units.nodeIds, id.isTree = true)
    ⟨fun h => ⟨h.1, fun id mem => NodeId.isTree_iff.mp (h.2 id mem)⟩,
      fun h => ⟨h.nodup, fun id mem => NodeId.isTree_iff.mpr (h.tree id mem)⟩⟩

/-! ## Names and expressions apart

Parameters, definitions and patterns are read in one go, but the names they introduce are declared
at another time than the expressions in them are visited. -/

theorem idsOfExprs_append (es rest : List Expr) :
    idsOfExprs (es ++ rest) = idsOfExprs es ++ idsOfExprs rest := by
  induction es with
  | nil => rfl
  | cons e es ih => rw [List.cons_append, idsOfExprs, idsOfExprs, ih, List.append_assoc]

/-- The nodes of the defaults of parameters. -/
def idsOfDefaults (params : List Param) : List NodeId :=
  params.flatMap fun p => idsOfOption p.default

theorem idsOfParams_perm (params : List Param) :
    (idsOfParams params).Perm (params.map (·.node.id) ++ idsOfDefaults params) := by
  induction params with
  | nil => exact .refl _
  | cons p rest ih =>
    obtain ⟨node, name, ty, default⟩ := p
    rw [List.perm_iff_count] at ih ⊢
    intro id
    have := ih id
    simp only [idsOfParams, idsOfDefaults, List.map_cons, List.flatMap_cons, List.cons_append,
      List.count_cons, List.count_append] at this ⊢
    omega

theorem idsOfVars_perm (vars : List VarDef) :
    (idsOfVars vars).Perm (vars.map (·.node.id) ++ idsOfExprs (vars.map (·.value))) := by
  induction vars with
  | nil => exact .refl _
  | cons v rest ih =>
    obtain ⟨node, name, ty, e⟩ := v
    rw [List.perm_iff_count] at ih ⊢
    intro id
    have := ih id
    simp only [idsOfVars, idsOfExprs, List.map_cons, List.cons_append, List.count_cons,
      List.count_append] at this ⊢
    omega

mutual

/-- The node of a pattern, what the pattern captures and the expressions in it are different nodes
of the pattern. -/
theorem Pattern.count_le (id : NodeId) : ∀ p : Pattern,
    (p.node.id :: (p.captures.map (·.node.id) ++ idsOfExprs p.expressions)).count id ≤
      p.nodeIds.count id
  | ⟨node, shape, whole⟩ => by
    have := shape.count_le id
    simp only [Pattern.captures, Pattern.expressions, Pattern.nodeIds, captureIds, List.map_append,
      List.count_append, List.count_cons] at this ⊢
    omega

theorem PatternShape.count_le (id : NodeId) : ∀ s : PatternShape,
    (s.captures.map (·.node.id)).count id + (idsOfExprs s.expressions).count id ≤
      s.nodeIds.count id
  | .expr e => by simp [PatternShape.captures, PatternShape.expressions, idsOfExprs,
      PatternShape.nodeIds]
  | .wildcard => Nat.le_refl 0
  | .default => Nat.le_refl 0
  | .ofType _ => Nat.le_refl 0
  | .list items => countOfPatterns_le id items
  | .headTail head tail => by
    have := countOfPatterns_le id head
    simp only [PatternShape.captures, PatternShape.expressions, PatternShape.nodeIds, captureIds,
      List.map_append, List.count_append] at this ⊢
    omega
  | .initLast init last => by
    have := countOfPatterns_le id last
    simp only [PatternShape.captures, PatternShape.expressions, PatternShape.nodeIds, captureIds,
      List.map_append, List.count_append] at this ⊢
    omega
  | .middle head mid last => by
    have first := countOfPatterns_le id head
    have second := countOfPatterns_le id last
    simp only [PatternShape.captures, PatternShape.expressions, PatternShape.nodeIds, captureIds,
      idsOfExprs_append, List.map_append, List.count_append] at first second ⊢
    omega
  | .dict entries => countOfEntries_le id entries
  | .openDict entries rest => by
    have := countOfEntries_le id entries
    simp only [PatternShape.captures, PatternShape.expressions, PatternShape.nodeIds, captureIds,
      List.map_append, List.count_append] at this ⊢
    omega

theorem countOfPatterns_le (id : NodeId) : ∀ ps : List Pattern,
    ((capturesOfPatterns ps).map (·.node.id)).count id +
      (idsOfExprs (expressionsOfPatterns ps)).count id ≤ (idsOfPatterns ps).count id
  | [] => Nat.le_refl 0
  | p :: rest => by
    have first := p.count_le id
    have more := countOfPatterns_le id rest
    simp only [capturesOfPatterns, expressionsOfPatterns, idsOfPatterns, idsOfExprs_append,
      List.map_append, List.count_append, List.count_cons] at first more ⊢
    omega

theorem countOfEntries_le (id : NodeId) : ∀ es : List KeyPattern,
    ((capturesOfEntries es).map (·.node.id)).count id +
      (idsOfExprs (expressionsOfEntries es)).count id ≤ (idsOfKeyPatterns es).count id
  | [] => Nat.le_refl 0
  | ⟨_, p⟩ :: rest => by
    have first := p.count_le id
    have more := countOfEntries_le id rest
    simp only [capturesOfEntries, expressionsOfEntries, idsOfKeyPatterns, idsOfExprs_append,
      List.map_append, List.count_append, List.count_cons] at first more ⊢
    omega

end

theorem Pattern.parts_subset (p : Pattern) :
    p.captures.map (·.node.id) ++ idsOfExprs p.expressions ⊆ p.nodeIds := by
  intro id hid
  have := p.count_le id
  rw [← List.count_pos_iff] at hid
  rw [List.count_cons] at this
  exact List.count_pos_iff.mp (by omega)

end CellScript
