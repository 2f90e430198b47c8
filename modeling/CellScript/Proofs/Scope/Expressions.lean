import CellScript.Proofs.Scope.Growth

/-!
# Visiting expressions

Visiting an expression takes steps of the first pass, for nodes of the expression only. So does
visiting any part of one.

* `visitExpr_steps` — by recursion over the expression
-/

namespace CellScript

namespace Build

variable {ids : List NodeId} {b b' : Building}

mutual

/-- **Visiting an expression takes steps for nodes of the expression only.** -/
theorem visitExpr_steps {scope : ScopeId} {b b' : Building} {u : PUnit} (hosts : b.Hosts scope) :
    ∀ e : Expr, e.nodeIds ⊆ ids → visitExpr scope e b = .ok (u, b') → Steps ids b b'
  | .constant node _, sub, h => enter_steps (sub (List.mem_cons_self ..)) h
  | .reference node r, sub, h => by
    simp only [visitExpr, bind_eq_ok] at h
    obtain ⟨_, b₁, h₁, h⟩ := h
    have mem : node.id ∈ ids := sub (List.mem_cons_self ..)
    have s₁ := enter_steps mem h₁
    exact s₁.trans (await_steps mem (s₁.hosts hosts) h)
  | .list node items, sub, h => by
    simp only [Expr.nodeIds, List.cons_subset] at sub
    simp only [visitExpr, bind_eq_ok] at h
    obtain ⟨_, b₁, h₁, h⟩ := h
    have s₁ := enter_steps sub.1 h₁
    exact s₁.trans (visitItems_steps (s₁.hosts hosts) items sub.2 h)
  | .dict node entries, sub, h => by
    simp only [Expr.nodeIds, List.cons_subset] at sub
    simp only [visitExpr, bind_eq_ok] at h
    obtain ⟨_, b₁, h₁, h⟩ := h
    have s₁ := enter_steps sub.1 h₁
    exact s₁.trans (visitEntries_steps (s₁.hosts hosts) entries sub.2 h)
  | .function node params _ body, sub, h => by
    simp only [Expr.nodeIds, List.cons_subset, List.append_subset] at sub
    simp only [visitExpr, bind_eq_ok] at h
    obtain ⟨_, b₁, h₁, _, b₂, h₂, inner, b₃, h₃, _, b₄, h₄, h⟩ := h
    have parts := List.Subset.trans (idsOfParams_perm params).symm.subset sub.2.1
    rw [List.append_subset] at parts
    have s₁ := enter_steps sub.1 h₁
    have s₂ := s₁.trans (visitDefaults_steps (s₁.hosts hosts) params parts.2 h₂)
    obtain ⟨t₃, opens⟩ := createScope_steps sub.1 (.inl rfl) (s₂.hosts hosts) h₃
    have t₄ := declareParams_steps params parts.1 opens h₄
    exact ((s₂.trans t₃).trans t₄).trans (visitExpr_steps (t₄.hosts opens.hosts) body sub.2.2 h)
  | .call node callee args, sub, h => by
    simp only [Expr.nodeIds, List.cons_subset, List.append_subset] at sub
    simp only [visitExpr, bind_eq_ok] at h
    obtain ⟨_, b₁, h₁, _, b₂, h₂, h⟩ := h
    have s₁ := enter_steps sub.1 h₁
    have s₂ := s₁.trans (visitExpr_steps (s₁.hosts hosts) callee sub.2.1 h₂)
    exact s₂.trans (visitArguments_steps (s₂.hosts hosts) args sub.2.2 h)
  | .curry node callee args, sub, h => by
    simp only [Expr.nodeIds, List.cons_subset, List.append_subset] at sub
    simp only [visitExpr, bind_eq_ok] at h
    obtain ⟨_, b₁, h₁, _, b₂, h₂, h⟩ := h
    have s₁ := enter_steps sub.1 h₁
    have s₂ := s₁.trans (visitExpr_steps (s₁.hosts hosts) callee sub.2.1 h₂)
    exact s₂.trans (visitNamed_steps (s₂.hosts hosts) args sub.2.2 h)
  | .letIn node bindings body, sub, h => by
    simp only [Expr.nodeIds, List.cons_subset, List.append_subset] at sub
    simp only [visitExpr, blockScope, bind_eq_ok] at h
    obtain ⟨_, b₁, h₁, inner, b₂, h₂, _, b₃, h₃, h⟩ := h
    have s₁ := enter_steps sub.1 h₁
    obtain ⟨t₂, opens⟩ := createScope_steps sub.1 (.inr rfl) (s₁.hosts hosts) h₂
    have t₃ := visitBindings_steps opens bindings sub.2.1 h₃
    exact ((s₁.trans t₂).trans t₃).trans (visitExpr_steps (t₃.hosts opens.hosts) body sub.2.2 h)
  | .ifElse node c t e, sub, h => by
    simp only [Expr.nodeIds, List.cons_subset, List.append_subset] at sub
    simp only [visitExpr, bind_eq_ok] at h
    obtain ⟨_, b₁, h₁, _, b₂, h₂, _, b₃, h₃, h⟩ := h
    have s₁ := enter_steps sub.1 h₁
    have s₂ := s₁.trans (visitExpr_steps (s₁.hosts hosts) c sub.2.1 h₂)
    have s₃ := s₂.trans (visitExpr_steps (s₂.hosts hosts) t sub.2.2.1 h₃)
    exact s₃.trans (visitExpr_steps (s₃.hosts hosts) e sub.2.2.2 h)
  | .matchOn node subject lines, sub, h => by
    simp only [Expr.nodeIds, List.cons_subset, List.append_subset] at sub
    simp only [visitExpr, bind_eq_ok] at h
    obtain ⟨_, b₁, h₁, _, b₂, h₂, h⟩ := h
    have s₁ := enter_steps sub.1 h₁
    have s₂ := s₁.trans (visitExpr_steps (s₁.hosts hosts) subject sub.2.1 h₂)
    exact s₂.trans (visitLines_steps (s₂.hosts hosts) lines sub.2.2 h)
  | .forEach node heads body, sub, h => by
    simp only [Expr.nodeIds, List.cons_subset, List.append_subset] at sub
    simp only [visitExpr, blockScope, bind_eq_ok] at h
    obtain ⟨_, b₁, h₁, inner, b₂, h₂, _, b₃, h₃, h⟩ := h
    have s₁ := enter_steps sub.1 h₁
    obtain ⟨t₂, opens⟩ := createScope_steps sub.1 (.inr rfl) (s₁.hosts hosts) h₂
    have t₃ := visitHeads_steps opens heads sub.2.1 h₃
    exact ((s₁.trans t₂).trans t₃).trans (visitExpr_steps (t₃.hosts opens.hosts) body sub.2.2 h)
  | .binary node _ l r, sub, h => by
    simp only [Expr.nodeIds, List.cons_subset, List.append_subset] at sub
    simp only [visitExpr, bind_eq_ok] at h
    obtain ⟨_, b₁, h₁, _, b₂, h₂, h⟩ := h
    have s₁ := enter_steps sub.1 h₁
    have s₂ := s₁.trans (visitExpr_steps (s₁.hosts hosts) l sub.2.1 h₂)
    exact s₂.trans (visitExpr_steps (s₂.hosts hosts) r sub.2.2 h)
  | .unary node _ e, sub, h => by
    simp only [Expr.nodeIds, List.cons_subset] at sub
    simp only [visitExpr, bind_eq_ok] at h
    obtain ⟨_, b₁, h₁, h⟩ := h
    have s₁ := enter_steps sub.1 h₁
    exact s₁.trans (visitExpr_steps (s₁.hosts hosts) e sub.2 h)
  | .cast node e _, sub, h => by
    simp only [Expr.nodeIds, List.cons_subset] at sub
    simp only [visitExpr, bind_eq_ok] at h
    obtain ⟨_, b₁, h₁, h⟩ := h
    have s₁ := enter_steps sub.1 h₁
    exact s₁.trans (visitExpr_steps (s₁.hosts hosts) e sub.2 h)
  | .isOf node e _, sub, h => by
    simp only [Expr.nodeIds, List.cons_subset] at sub
    simp only [visitExpr, bind_eq_ok] at h
    obtain ⟨_, b₁, h₁, h⟩ := h
    have s₁ := enter_steps sub.1 h₁
    exact s₁.trans (visitExpr_steps (s₁.hosts hosts) e sub.2 h)
  | .access node c keys, sub, h => by
    simp only [Expr.nodeIds, List.cons_subset, List.append_subset] at sub
    simp only [visitExpr, bind_eq_ok] at h
    obtain ⟨_, b₁, h₁, _, b₂, h₂, h⟩ := h
    have s₁ := enter_steps sub.1 h₁
    have s₂ := s₁.trans (visitExpr_steps (s₁.hosts hosts) c sub.2.1 h₂)
    exact s₂.trans (visitExprs_steps (s₂.hosts hosts) keys sub.2.2 h)
  | .tryCatch node body clause error trace handler, sub, h => by
    simp only [Expr.nodeIds, List.cons_subset, List.append_subset] at sub
    simp only [visitExpr, blockScope, bind_eq_ok] at h
    obtain ⟨_, b₁, h₁, _, b₂, h₂, inner, b₃, h₃, _, b₄, h₄, _, b₅, h₅, h⟩ := h
    have s₁ := enter_steps sub.1 h₁
    have s₂ := s₁.trans (visitExpr_steps (s₁.hosts hosts) body sub.2.1 h₂)
    obtain ⟨t₃, opens⟩ := createScope_steps sub.2.2.1 (.inr rfl) (s₂.hosts hosts) h₃
    have t₄ : Steps ids b₃ b₄ := recordPosition_steps h₄
    have opens₄ := t₄.opens opens
    have captured : (error.toList ++ trace.toList).map (·.node.id) ⊆ ids := by
      rw [List.map_append, List.append_subset]
      exact sub.2.2.2.1
    have t₅ := declareCaptures_steps _ captured opens₄ h₅
    exact (((s₂.trans t₃).trans t₄).trans t₅).trans
      (visitExpr_steps (t₅.hosts opens₄.hosts) handler sub.2.2.2.2 h)
  | .throw node e, sub, h => by
    simp only [Expr.nodeIds, List.cons_subset] at sub
    simp only [visitExpr, bind_eq_ok] at h
    obtain ⟨_, b₁, h₁, h⟩ := h
    have s₁ := enter_steps sub.1 h₁
    exact s₁.trans (visitExpr_steps (s₁.hosts hosts) e sub.2 h)

theorem visitExprs_steps {scope : ScopeId} {b b' : Building} {u : PUnit}
    (hosts : b.Hosts scope) :
    ∀ es : List Expr, idsOfExprs es ⊆ ids → visitExprs scope es b = .ok (u, b') → Steps ids b b'
  | [], _, h => by
    rw [visitExprs, pure_eq_ok] at h
    exact h.2 ▸ .refl
  | e :: rest, sub, h => by
    simp only [idsOfExprs, List.append_subset] at sub
    simp only [visitExprs, bind_eq_ok] at h
    obtain ⟨_, b₁, h₁, h⟩ := h
    have s₁ := visitExpr_steps hosts e sub.1 h₁
    exact s₁.trans (visitExprs_steps (s₁.hosts hosts) rest sub.2 h)

theorem visitOption_steps {scope : ScopeId} {b b' : Building} {u : PUnit}
    (hosts : b.Hosts scope) :
    ∀ e : Option Expr, idsOfOption e ⊆ ids → visitOption scope e b = .ok (u, b') → Steps ids b b'
  | none, _, h => by
    rw [visitOption, pure_eq_ok] at h
    exact h.2 ▸ .refl
  | some e, sub, h => visitExpr_steps hosts e sub h

theorem visitItems_steps {scope : ScopeId} {b b' : Building} {u : PUnit}
    (hosts : b.Hosts scope) :
    ∀ items : List ListItem, idsOfItems items ⊆ ids → visitItems scope items b = .ok (u, b') →
      Steps ids b b'
  | [], _, h => by
    rw [visitItems, pure_eq_ok] at h
    exact h.2 ▸ .refl
  | .value e :: rest, sub, h | .splat e :: rest, sub, h => by
    simp only [idsOfItems, List.append_subset] at sub
    simp only [visitItems, bind_eq_ok] at h
    obtain ⟨_, b₁, h₁, h⟩ := h
    have s₁ := visitExpr_steps hosts e sub.1 h₁
    exact s₁.trans (visitItems_steps (s₁.hosts hosts) rest sub.2 h)

theorem visitEntries_steps {scope : ScopeId} {b b' : Building} {u : PUnit}
    (hosts : b.Hosts scope) :
    ∀ entries : List DictEntry, idsOfEntries entries ⊆ ids →
      visitEntries scope entries b = .ok (u, b') → Steps ids b b'
  | [], _, h => by
    rw [visitEntries, pure_eq_ok] at h
    exact h.2 ▸ .refl
  | .pair k v :: rest, sub, h => by
    simp only [idsOfEntries, List.append_subset] at sub
    simp only [visitEntries, bind_eq_ok] at h
    obtain ⟨_, b₁, h₁, _, b₂, h₂, h⟩ := h
    have s₁ := visitExpr_steps hosts k sub.1 h₁
    have s₂ := s₁.trans (visitExpr_steps (s₁.hosts hosts) v sub.2.1 h₂)
    exact s₂.trans (visitEntries_steps (s₂.hosts hosts) rest sub.2.2 h)
  | .splat e :: rest, sub, h => by
    simp only [idsOfEntries, List.append_subset] at sub
    simp only [visitEntries, bind_eq_ok] at h
    obtain ⟨_, b₁, h₁, h⟩ := h
    have s₁ := visitExpr_steps hosts e sub.1 h₁
    exact s₁.trans (visitEntries_steps (s₁.hosts hosts) rest sub.2 h)

theorem visitDefaults_steps {scope : ScopeId} {b b' : Building} {u : PUnit}
    (hosts : b.Hosts scope) :
    ∀ params : List Param, idsOfDefaults params ⊆ ids →
      visitDefaults scope params b = .ok (u, b') → Steps ids b b'
  | [], _, h => by
    rw [visitDefaults, pure_eq_ok] at h
    exact h.2 ▸ .refl
  | ⟨_, _, _, default⟩ :: rest, sub, h => by
    rw [idsOfDefaults, List.flatMap_cons, List.append_subset] at sub
    simp only [visitDefaults, bind_eq_ok] at h
    obtain ⟨_, b₁, h₁, h⟩ := h
    have s₁ := visitOption_steps hosts default sub.1 h₁
    exact s₁.trans (visitDefaults_steps (s₁.hosts hosts) rest sub.2 h)

theorem visitArguments_steps {scope : ScopeId} {b b' : Building} {u : PUnit}
    (hosts : b.Hosts scope) :
    ∀ args : List Argument, idsOfArguments args ⊆ ids → visitArguments scope args b = .ok (u, b') →
      Steps ids b b'
  | [], _, h => by
    rw [visitArguments, pure_eq_ok] at h
    exact h.2 ▸ .refl
  | .positional e :: rest, sub, h | .named _ e :: rest, sub, h | .splat e :: rest, sub, h => by
    simp only [idsOfArguments, List.append_subset] at sub
    simp only [visitArguments, bind_eq_ok] at h
    obtain ⟨_, b₁, h₁, h⟩ := h
    have s₁ := visitExpr_steps hosts e sub.1 h₁
    exact s₁.trans (visitArguments_steps (s₁.hosts hosts) rest sub.2 h)

theorem visitNamed_steps {scope : ScopeId} {b b' : Building} {u : PUnit}
    (hosts : b.Hosts scope) :
    ∀ args : List NamedExpr, idsOfNamed args ⊆ ids → visitNamed scope args b = .ok (u, b') →
      Steps ids b b'
  | [], _, h => by
    rw [visitNamed, pure_eq_ok] at h
    exact h.2 ▸ .refl
  | ⟨_, e⟩ :: rest, sub, h => by
    simp only [idsOfNamed, List.append_subset] at sub
    simp only [visitNamed, bind_eq_ok] at h
    obtain ⟨_, b₁, h₁, h⟩ := h
    have s₁ := visitExpr_steps hosts e sub.1 h₁
    exact s₁.trans (visitNamed_steps (s₁.hosts hosts) rest sub.2 h)

theorem visitBindings_steps {scope : ScopeId} {b b' : Building} {u : PUnit}
    (opens : b.Opens ids scope) :
    ∀ vars : List VarDef, idsOfVars vars ⊆ ids → visitBindings scope vars b = .ok (u, b') →
      Steps ids b b'
  | [], _, h => by
    rw [visitBindings, pure_eq_ok] at h
    exact h.2 ▸ .refl
  | ⟨node, name, ty, e⟩ :: rest, sub, h => by
    simp only [idsOfVars, List.cons_subset, List.append_subset] at sub
    simp only [visitBindings, bind_eq_ok] at h
    obtain ⟨_, b₁, h₁, _, b₂, h₂, h⟩ := h
    have s₁ := declareVar_steps sub.1 opens h₁
    have s₂ := s₁.trans (visitExpr_steps (s₁.opens opens).hosts e sub.2.1 h₂)
    exact s₂.trans (visitBindings_steps (s₂.opens opens) rest sub.2.2 h)

theorem visitLines_steps {scope : ScopeId} {b b' : Building} {u : PUnit}
    (hosts : b.Hosts scope) :
    ∀ lines : List MatchLine, idsOfLines lines ⊆ ids → visitLines scope lines b = .ok (u, b') →
      Steps ids b b'
  | [], _, h => by
    rw [visitLines, pure_eq_ok] at h
    exact h.2 ▸ .refl
  | ⟨node, pattern, guard, result⟩ :: rest, sub, h => by
    simp only [idsOfLines, List.cons_subset, List.append_subset] at sub
    simp only [visitLines, blockScope, bind_eq_ok] at h
    obtain ⟨inner, b₁, h₁, _, b₂, h₂, _, b₃, h₃, _, b₄, h₄, _, b₅, h₅, _, b₆, h₆, _, b₇, h₇, h⟩ := h
    obtain ⟨s₁, opens⟩ : Steps ids b b₁ ∧ b₁.Opens ids inner :=
      createScope_steps sub.1 (.inr rfl) hosts h₁
    have s₂ := s₁.trans (recordPosition_steps h₂)
    have head : pattern.node.id ∈ ids := sub.2.1 (by cases pattern; exact List.mem_cons_self ..)
    have s₃ := s₂.trans (enter_steps head h₃)
    have parts := List.Subset.trans pattern.parts_subset sub.2.1
    rw [List.append_subset] at parts
    have s₄ := s₃.trans (visitPattern_steps (s₃.hosts hosts) pattern parts.2 h₄)
    -- The scope of the line is older than the nodes of its pattern.
    have inner₄ : b₄.Opens ids inner := by
      have s : Steps ids b₁ b₃ := (recordPosition_steps h₂).trans (enter_steps head h₃)
      exact (visitPattern_steps (s₃.hosts hosts) pattern parts.2 h₄).opens (s.opens opens)
    have s₅ := declareCaptures_steps pattern.captures parts.1 inner₄ h₅
    have s₆ := s₅.trans (visitOption_steps (s₅.hosts inner₄.hosts) guard sub.2.2.1 h₆)
    have s₇ := s₆.trans (visitExpr_steps (s₆.hosts inner₄.hosts) result sub.2.2.2.1 h₇)
    exact (s₄.trans s₇).trans
      (visitLines_steps ((s₄.trans s₇).hosts hosts) rest sub.2.2.2.2 h)

theorem visitHeads_steps {scope : ScopeId} {b b' : Building} {u : PUnit}
    (opens : b.Opens ids scope) :
    ∀ heads : List ForHead, idsOfHeads heads ⊆ ids → visitHeads scope heads b = .ok (u, b') →
      Steps ids b b'
  | [], _, h => by
    rw [visitHeads, pure_eq_ok] at h
    exact h.2 ▸ .refl
  | .generator node name ty source :: rest, sub, h => by
    simp only [idsOfHeads, List.cons_subset, List.append_subset] at sub
    simp only [visitHeads, bind_eq_ok] at h
    obtain ⟨_, b₁, h₁, _, b₂, h₂, h⟩ := h
    have s₁ := visitExpr_steps opens.hosts source sub.2.1 h₁
    have s₂ := s₁.trans (declareVar_steps sub.1 (s₁.opens opens) h₂)
    exact s₂.trans (visitHeads_steps (s₂.opens opens) rest sub.2.2 h)
  | .definition node name ty e :: rest, sub, h => by
    simp only [idsOfHeads, List.cons_subset, List.append_subset] at sub
    simp only [visitHeads, bind_eq_ok] at h
    obtain ⟨_, b₁, h₁, _, b₂, h₂, h⟩ := h
    have s₁ := declareVar_steps sub.1 opens h₁
    have s₂ := s₁.trans (visitExpr_steps (s₁.hosts opens.hosts) e sub.2.1 h₂)
    exact s₂.trans (visitHeads_steps (s₂.opens opens) rest sub.2.2 h)
  | .condition e :: rest, sub, h => by
    simp only [idsOfHeads, List.append_subset] at sub
    simp only [visitHeads, bind_eq_ok] at h
    obtain ⟨_, b₁, h₁, h⟩ := h
    have s₁ := visitExpr_steps opens.hosts e sub.1 h₁
    exact s₁.trans (visitHeads_steps (s₁.opens opens) rest sub.2 h)

theorem visitPattern_steps {scope : ScopeId} {b b' : Building} {u : PUnit}
    (hosts : b.Hosts scope) :
    ∀ p : Pattern, idsOfExprs p.expressions ⊆ ids → visitPattern scope p b = .ok (u, b') →
      Steps ids b b'
  | ⟨_, shape, _⟩, sub, h => visitShape_steps hosts shape sub h

theorem visitShape_steps {scope : ScopeId} {b b' : Building} {u : PUnit}
    (hosts : b.Hosts scope) :
    ∀ s : PatternShape, idsOfExprs s.expressions ⊆ ids → visitShape scope s b = .ok (u, b') →
      Steps ids b b'
  | .expr e, sub, h => visitExpr_steps hosts e (fun _ hid => sub (List.mem_append_left _ hid)) h
  | .wildcard, _, h | .default, _, h | .ofType _, _, h => by
    rw [visitShape, pure_eq_ok] at h
    exact h.2 ▸ .refl
  | .list items, sub, h => visitPatterns_steps hosts items sub h
  | .headTail head _, sub, h => visitPatterns_steps hosts head sub h
  | .initLast _ last, sub, h => visitPatterns_steps hosts last sub h
  | .middle head _ last, sub, h => by
    rw [PatternShape.expressions, idsOfExprs_append, List.append_subset] at sub
    simp only [visitShape, bind_eq_ok] at h
    obtain ⟨_, b₁, h₁, h⟩ := h
    have s₁ := visitPatterns_steps hosts head sub.1 h₁
    exact s₁.trans (visitPatterns_steps (s₁.hosts hosts) last sub.2 h)
  | .dict entries, sub, h => visitKeyPatterns_steps hosts entries sub h
  | .openDict entries _, sub, h => visitKeyPatterns_steps hosts entries sub h

theorem visitPatterns_steps {scope : ScopeId} {b b' : Building} {u : PUnit}
    (hosts : b.Hosts scope) :
    ∀ ps : List Pattern, idsOfExprs (expressionsOfPatterns ps) ⊆ ids →
      visitPatterns scope ps b = .ok (u, b') → Steps ids b b'
  | [], _, h => by
    rw [visitPatterns, pure_eq_ok] at h
    exact h.2 ▸ .refl
  | p :: rest, sub, h => by
    rw [expressionsOfPatterns, idsOfExprs_append, List.append_subset] at sub
    simp only [visitPatterns, bind_eq_ok] at h
    obtain ⟨_, b₁, h₁, h⟩ := h
    have s₁ := visitPattern_steps hosts p sub.1 h₁
    exact s₁.trans (visitPatterns_steps (s₁.hosts hosts) rest sub.2 h)

theorem visitKeyPatterns_steps {scope : ScopeId} {b b' : Building} {u : PUnit}
    (hosts : b.Hosts scope) :
    ∀ ps : List KeyPattern, idsOfExprs (expressionsOfEntries ps) ⊆ ids →
      visitKeyPatterns scope ps b = .ok (u, b') → Steps ids b b'
  | [], _, h => by
    rw [visitKeyPatterns, pure_eq_ok] at h
    exact h.2 ▸ .refl
  | ⟨_, p⟩ :: rest, sub, h => by
    rw [expressionsOfEntries, idsOfExprs_append, List.append_subset] at sub
    simp only [visitKeyPatterns, bind_eq_ok] at h
    obtain ⟨_, b₁, h₁, h⟩ := h
    have s₁ := visitPattern_steps hosts p sub.1 h₁
    exact s₁.trans (visitKeyPatterns_steps (s₁.hosts hosts) rest sub.2 h)

end

end Build

end CellScript
