import CellScript.Scope.Closure

/-!
# What the walk for captures leaves alone

The walk enters what functions capture and which references reach their targets through captures. It
changes nothing else, whatever was analysed before, with faults or without.

* `Analysis.Annotated` — two analyses that differ in captures and the kinds of references only
* `Analysis.captureAll_annotated` — the walk over a program
-/

namespace CellScript

/-- The second analysis is the first one with other captures, through which some references reach
what they are bound to. Captures have been added for functions with a scope only. -/
structure Analysis.Annotated (a a' : Analysis) : Prop where
  same : a' = { a with references := a'.references, closures := a'.closures }
  reference : ∀ n, a'.references.get? n = a.references.get? n ∨
    ∃ r, a.references.get? n = some (.ok r) ∧
      a'.references.get? n = some (.ok { r with kind := .closure })
  noted : ∀ n, (a'.closures.get? n).isSome = true →
    (a.closures.get? n).isSome = true ∨ (a.createdScopes.get? n).isSome = true

namespace Analysis.Annotated

variable {a a' a'' : Analysis}

theorem refl (a : Analysis) : a.Annotated a := ⟨rfl, fun _ => .inl rfl, fun _ => .inl⟩

/-- Other captures alone. -/
theorem of_closures (a : Analysis) {closures : Table NodeId (List SymbolId)}
    (noted : ∀ n, (closures.get? n).isSome = true →
      (a.closures.get? n).isSome = true ∨ (a.createdScopes.get? n).isSome = true) :
    a.Annotated { a with closures := closures } := ⟨rfl, fun _ => .inl rfl, noted⟩

theorem trans (h : a.Annotated a') (h' : a'.Annotated a'') : a.Annotated a'' := by
  refine ⟨by rw [h'.same, h.same], fun n => ?_, fun n found => ?_⟩
  · rcases h.reference n with same | ⟨r, before, after⟩ <;>
      rcases h'.reference n with same' | ⟨r', before', after'⟩
    · exact .inl (same'.trans same)
    · exact .inr ⟨r', same ▸ before', after'⟩
    · exact .inr ⟨r, before, same'.trans after⟩
    · rw [after] at before'
      cases before'
      exact .inr ⟨r, before, after'⟩
  · rcases h'.noted n found with found | created
    · exact h.noted n found
    · rw [h.same] at created
      exact .inr created

theorem arena (h : a.Annotated a') : a'.arena = a.arena := by rw [h.same]

theorem units (h : a.Annotated a') : a'.units = a.units := by rw [h.same]

theorem createdScopes (h : a.Annotated a') : a'.createdScopes = a.createdScopes := by rw [h.same]

theorem faults (h : a.Annotated a') : a'.faults = a.faults := by rw [h.same]

/-- A reference stays bound to what it was bound to. -/
theorem target (h : a.Annotated a') {n : NodeId} {r : ResolvedReference}
    (found : a.references.get? n = some (.ok r)) :
    ∃ kind, a'.references.get? n = some (.ok { r with kind := kind }) := by
  rcases h.reference n with same | ⟨r', before, after⟩
  · exact ⟨r.kind, same.trans found⟩
  · rw [found] at before
    cases before
    exact ⟨_, after⟩

/-- If nothing was captured before, nothing is captured without a scope. -/
theorem closedOver_eq_nil (h : a.Annotated a') (empty : a.closures = []) {n : NodeId}
    (unscoped : a.createdScopes.get? n = none) : a'.closedOver n = [] := by
  cases found : a'.closures.get? n with
  | none =>
    rw [closedOver, found]
    rfl
  | some symbols =>
    rcases h.noted n (by rw [found]; rfl) with old | created
    · rw [empty] at old
      cases old
    · rw [unscoped] at created
      cases created

end Analysis.Annotated

namespace Capturing

variable {α β : Type}

/-- The steps of a walk only annotate. -/
def Annotates (x : Capturing α) : Prop := ∀ a : Analysis, a.Annotated (x a).2

theorem Annotates.pure (v : α) : Annotates (Pure.pure v) := fun a => .refl a

theorem annotated_modify {f : Analysis → Analysis} {a : Analysis} (h : a.Annotated (f a)) :
    a.Annotated ((modify f : Capturing PUnit) a).2 := h

theorem Annotates.modify {f : Analysis → Analysis} (h : ∀ a : Analysis, a.Annotated (f a)) :
    Annotates (modify f) := fun a => annotated_modify (h a)

theorem Annotates.bind {x : Capturing α} {f : α → Capturing β} (h : Annotates x)
    (rest : ∀ v, Annotates (f v)) : Annotates (x >>= f) := fun a => (h a).trans (rest _ _)

/-- What follows may depend on the analysis so far. -/
theorem Annotates.get {f : Analysis → Capturing β} (h : ∀ a, Annotates (f a)) :
    Annotates (MonadState.get >>= f) := fun a => h a a

/-- What follows may depend on what is known of the analysis so far. -/
theorem Annotates.of_get {f : Analysis → Capturing β} (h : ∀ a : Analysis, a.Annotated (f a a).2) :
    Annotates (MonadState.get >>= f) := h

theorem capture_annotates (target : SymbolId) (function : NodeId) :
    Annotates (capture target function) := by
  refine .modify fun a => ?_
  dsimp only
  split
  · exact .refl a
  · refine .of_closures a fun n found => .inl ?_
    rw [Table.get?_update] at found
    split at found
    · rwa [Option.isSome_map] at found
    · exact found

theorem forM_annotates {f : α → Capturing PUnit} (as : List α) (h : ∀ v, Annotates (f v)) :
    Annotates (as.forM f) := by
  induction as with
  | nil => exact .pure _
  | cons v rest ih => exact (h v).bind fun _ => ih

/-- Functions capture what a reference is bound to. -/
theorem annotated_update (a : Analysis) (node : NodeId) :
    a.Annotated { a with
      references := a.references.update node (·.map fun r => { r with kind := .closure }) } := by
  refine ⟨rfl, fun n => ?_, fun _ => .inl⟩
  dsimp only
  rw [Table.get?_update]
  split
  · cases hr : a.references.get? n with
    | none => exact .inl rfl
    | some outcome =>
      cases outcome with
      | error e => exact .inl rfl
      | ok r => exact .inr ⟨r, rfl, rfl⟩
  · exact .inl rfl

theorem visitReference_annotates (functions : List FunctionFrame) (node : NodeId) :
    Annotates (visitReference functions node) := by
  refine .get fun a => ?_
  split
  · refine (forM_annotates _ fun f => capture_annotates _ _).bind fun _ => ?_
    split
    · exact .modify fun a => annotated_update a node
    · exact .pure _
  · exact .pure _

theorem noteFunction_annotated {a : Analysis} {node : NodeId}
    (created : (a.createdScopes.get? node).isSome = true) :
    a.Annotated (noteFunction node a).2 := by
  refine annotated_modify ?_
  split
  · exact .refl a
  · refine .of_closures a fun n noted => ?_
    rw [Table.get?_insert] at noted
    split at noted
    · next here => exact .inr (here ▸ created)
    · exact .inl noted

mutual

theorem visitExpr_annotates (fs : List FunctionFrame) : ∀ e : Expr, Annotates (visitExpr fs e)
  | .constant _ _ => .pure _
  | .reference node _ => visitReference_annotates fs node.id
  | .list _ items => visitItems_annotates fs items
  | .dict _ entries => visitEntries_annotates fs entries
  | .function node params _ body => by
    refine (visitDefaults_annotates fs params).bind fun _ => .of_get fun a => ?_
    cases created : a.createdScopes.get? node.id with
    | none => exact .refl a
    | some scope =>
      exact (noteFunction_annotated (by rw [created]; rfl)).trans
        (visitExpr_annotates (⟨node.id, scope⟩ :: fs) body _)
  | .call _ callee args =>
    (visitExpr_annotates fs callee).bind fun _ => visitArguments_annotates fs args
  | .curry _ callee args =>
    (visitExpr_annotates fs callee).bind fun _ => visitNamed_annotates fs args
  | .letIn _ bindings body =>
    (visitBindings_annotates fs bindings).bind fun _ => visitExpr_annotates fs body
  | .ifElse _ c t e =>
    (visitExpr_annotates fs c).bind fun _ => (visitExpr_annotates fs t).bind fun _ =>
      visitExpr_annotates fs e
  | .matchOn _ subject lines =>
    (visitExpr_annotates fs subject).bind fun _ => visitLines_annotates fs lines
  | .forEach _ heads body =>
    (visitHeads_annotates fs heads).bind fun _ => visitExpr_annotates fs body
  | .binary _ _ l r => (visitExpr_annotates fs l).bind fun _ => visitExpr_annotates fs r
  | .unary _ _ e => visitExpr_annotates fs e
  | .cast _ e _ => visitExpr_annotates fs e
  | .isOf _ e _ => visitExpr_annotates fs e
  | .access _ c keys => (visitExpr_annotates fs c).bind fun _ => visitExprs_annotates fs keys
  | .tryCatch _ body _ _ _ handler =>
    (visitExpr_annotates fs body).bind fun _ => visitExpr_annotates fs handler
  | .throw _ e => visitExpr_annotates fs e

theorem visitExprs_annotates (fs : List FunctionFrame) :
    ∀ es : List Expr, Annotates (visitExprs fs es)
  | [] => .pure _
  | e :: rest => (visitExpr_annotates fs e).bind fun _ => visitExprs_annotates fs rest

theorem visitOption_annotates (fs : List FunctionFrame) :
    ∀ e : Option Expr, Annotates (visitOption fs e)
  | none => .pure _
  | some e => visitExpr_annotates fs e

theorem visitItems_annotates (fs : List FunctionFrame) :
    ∀ items : List ListItem, Annotates (visitItems fs items)
  | [] => .pure _
  | .value e :: rest => (visitExpr_annotates fs e).bind fun _ => visitItems_annotates fs rest
  | .splat e :: rest => (visitExpr_annotates fs e).bind fun _ => visitItems_annotates fs rest

theorem visitEntries_annotates (fs : List FunctionFrame) :
    ∀ entries : List DictEntry, Annotates (visitEntries fs entries)
  | [] => .pure _
  | .pair k v :: rest =>
    (visitExpr_annotates fs k).bind fun _ => (visitExpr_annotates fs v).bind fun _ =>
      visitEntries_annotates fs rest
  | .splat e :: rest => (visitExpr_annotates fs e).bind fun _ => visitEntries_annotates fs rest

theorem visitDefaults_annotates (fs : List FunctionFrame) :
    ∀ params : List Param, Annotates (visitDefaults fs params)
  | [] => .pure _
  | ⟨_, _, _, default⟩ :: rest =>
    (visitOption_annotates fs default).bind fun _ => visitDefaults_annotates fs rest

theorem visitArguments_annotates (fs : List FunctionFrame) :
    ∀ args : List Argument, Annotates (visitArguments fs args)
  | [] => .pure _
  | .positional e :: rest =>
    (visitExpr_annotates fs e).bind fun _ => visitArguments_annotates fs rest
  | .named _ e :: rest => (visitExpr_annotates fs e).bind fun _ => visitArguments_annotates fs rest
  | .splat e :: rest => (visitExpr_annotates fs e).bind fun _ => visitArguments_annotates fs rest

theorem visitNamed_annotates (fs : List FunctionFrame) :
    ∀ args : List NamedExpr, Annotates (visitNamed fs args)
  | [] => .pure _
  | ⟨_, e⟩ :: rest => (visitExpr_annotates fs e).bind fun _ => visitNamed_annotates fs rest

theorem visitBindings_annotates (fs : List FunctionFrame) :
    ∀ bindings : List VarDef, Annotates (visitBindings fs bindings)
  | [] => .pure _
  | ⟨_, _, _, e⟩ :: rest => (visitExpr_annotates fs e).bind fun _ => visitBindings_annotates fs rest

theorem visitLines_annotates (fs : List FunctionFrame) :
    ∀ lines : List MatchLine, Annotates (visitLines fs lines)
  | [] => .pure _
  | ⟨_, pattern, guard, result⟩ :: rest =>
    (visitPattern_annotates fs pattern).bind fun _ => (visitOption_annotates fs guard).bind fun _ =>
      (visitExpr_annotates fs result).bind fun _ => visitLines_annotates fs rest

theorem visitHeads_annotates (fs : List FunctionFrame) :
    ∀ heads : List ForHead, Annotates (visitHeads fs heads)
  | [] => .pure _
  | .generator _ _ _ source :: rest =>
    (visitExpr_annotates fs source).bind fun _ => visitHeads_annotates fs rest
  | .definition _ _ _ e :: rest =>
    (visitExpr_annotates fs e).bind fun _ => visitHeads_annotates fs rest
  | .condition e :: rest => (visitExpr_annotates fs e).bind fun _ => visitHeads_annotates fs rest

theorem visitPattern_annotates (fs : List FunctionFrame) :
    ∀ p : Pattern, Annotates (visitPattern fs p)
  | ⟨_, shape, _⟩ => visitShape_annotates fs shape

theorem visitShape_annotates (fs : List FunctionFrame) :
    ∀ shape : PatternShape, Annotates (visitShape fs shape)
  | .expr e => visitExpr_annotates fs e
  | .wildcard | .default | .ofType _ => .pure _
  | .list items => visitPatterns_annotates fs items
  | .headTail head _ => visitPatterns_annotates fs head
  | .initLast _ last => visitPatterns_annotates fs last
  | .middle head _ last =>
    (visitPatterns_annotates fs head).bind fun _ => visitPatterns_annotates fs last
  | .dict entries => visitKeyPatterns_annotates fs entries
  | .openDict entries _ => visitKeyPatterns_annotates fs entries

theorem visitPatterns_annotates (fs : List FunctionFrame) :
    ∀ ps : List Pattern, Annotates (visitPatterns fs ps)
  | [] => .pure _
  | p :: rest => (visitPattern_annotates fs p).bind fun _ => visitPatterns_annotates fs rest

theorem visitKeyPatterns_annotates (fs : List FunctionFrame) :
    ∀ entries : List KeyPattern, Annotates (visitKeyPatterns fs entries)
  | [] => .pure _
  | ⟨_, p⟩ :: rest => (visitPattern_annotates fs p).bind fun _ => visitKeyPatterns_annotates fs rest

end

end Capturing

/-- **The walk over a program only annotates.** -/
theorem Analysis.captureAll_annotated (a : Analysis) (units : UnitSet) :
    a.Annotated (a.captureAll units) := Capturing.visitBindings_annotates [] _ a

end CellScript
