import CellScript.Proofs.Scope.Entries

/-!
# What analysis knows about visited expressions

When the first pass is over, its tables describe every expression that it has visited, provided that
no two nodes are the same.

* `visitExpr_sound` — by recursion over the expression
-/

namespace CellScript

namespace Build

variable {ids few more : List NodeId} {b b' c c' bf : Building} {a : Analysis}
  {R : ScopeId → NodeId → Prop}

mutual

/-- **The first pass leaves tables behind that describe the expressions it has visited.** -/
theorem visitExpr_sound {σ : ScopeId} {b b' bf : Building} {u : PUnit} (fin : Finished bf a R)
    (hosts : b.Hosts σ) : ∀ e : Expr, Window e.nodeIds b b' bf →
      visitExpr σ e b = .ok (u, b') → e.Sound a R σ
  | .constant _ _, _, _ => trivial
  | .reference node r, w, h => by
    simp only [visitExpr, bind_eq_ok] at h
    obtain ⟨_, b₁, h₁, h⟩ := h
    exact await_alone fin w (pending_enter h₁).1 h
  | .list node items, w, h => by
    simp only [visitExpr, bind_eq_ok] at h
    obtain ⟨_, b₁, h₁, h⟩ := h
    have s₁ : Steps [node.id] b b₁ := enter_steps (List.mem_cons_self ..) h₁
    exact visitItems_sound fin (s₁.hosts hosts) items (w.tail s₁) h
  | .dict node entries, w, h => by
    simp only [visitExpr, bind_eq_ok] at h
    obtain ⟨_, b₁, h₁, h⟩ := h
    have s₁ : Steps [node.id] b b₁ := enter_steps (List.mem_cons_self ..) h₁
    exact visitEntries_sound fin (s₁.hosts hosts) entries (w.tail s₁) h
  | .function node params _ body, w, h => by
    simp only [visitExpr, bind_eq_ok] at h
    obtain ⟨_, b₁, h₁, _, b₂, h₂, inner, b₃, h₃, _, b₄, h₄, h⟩ := h
    have s₁ : Steps [node.id] b b₁ := enter_steps (List.mem_cons_self ..) h₁
    have s₂ := visitDefaults_steps (s₁.hosts hosts) params (List.Subset.refl _) h₂
    have hosts₂ := s₂.hosts (s₁.hosts hosts)
    have s₃ : Steps [node.id] b₂ b₃ :=
      (createScope_steps (List.mem_cons_self ..) (.inl rfl) hosts₂ h₃).1
    have created := created_createScope h₃
    have opens : b₃.Opens (node.id :: params.map (·.node.id)) inner :=
      opens_of_dynamic (List.mem_cons_self ..) (.inl created.kind)
    have s₄ := declareParams_steps params (List.subset_cons_self ..) opens h₄
    have s₃₄ : Steps (node.id :: params.map (·.node.id)) b₂ b₄ :=
      (s₃.mono (by simp)).trans s₄
    have s₅ := visitExpr_steps (s₄.hosts opens.hosts) body (List.Subset.refl _) h
    have wide := w.narrow (function_count node.id params body.nodeIds)
    -- The node itself is entered before the defaults, but not under any of theirs.
    have apart : (idsOfDefaults params).Disjoint [node.id] := by
      have := (List.nodup_append'.mp wide.nodup).2.2
      rw [List.disjoint_append_right, List.disjoint_cons_right] at this
      rw [List.disjoint_singleton]
      exact this.1.1
    have bodyWindow : Window body.nodeIds b₄ b' bf := by
      have w' : Window (idsOfDefaults params ++ (node.id :: params.map (·.node.id)) ++
          body.nodeIds) b b' bf := by
        rw [List.append_assoc]
        exact wide
      exact w'.right ((s₁.mono (by simp)).trans (s₂.append s₃₄))
    refine ⟨visitDefaults_sound fin (s₁.hosts hosts) params
      ((wide.left (s₃₄.append s₅)).skip s₁ apart) h₂, inner, ?_,
      visitExpr_sound fin (s₄.hosts opens.hosts) body bodyWindow h⟩
    have strict : b₃.recovery = false := by
      rw [s₃.recovery, s₂.recovery, s₁.recovery]
      exact w.strict
    have standing : b₃.analysis.nodeScopes.get? node.id = some σ := by
      obtain ⟨rfl, rfl⟩ := createScope_eq_ok.mp h₃
      show b₂.analysis.nodeScopes.get? node.id = some σ
      rw [(s₂.sameEntries (List.disjoint_singleton.mp apart)).nodeScope]
      exact (pending_enter h₁).2
    have only : Window [node.id] b b₄ bf := by
      refine (w.narrow fun id => ?_).stop s₅ ?_
      · simp only [Expr.nodeIds, List.count_cons, List.count_nil]
        omega
      · rw [List.singleton_disjoint]
        exact fun hmem => (List.nodup_cons.mp w.nodup).1 (List.mem_append_right _ hmem)
    exact functionOf_declareParams fin only strict created (slots_createScope h₃) standing h₄
  | .call node callee args, w, h => by
    simp only [visitExpr, bind_eq_ok] at h
    obtain ⟨_, b₁, h₁, _, b₂, h₂, h⟩ := h
    have s₁ : Steps [node.id] b b₁ := enter_steps (List.mem_cons_self ..) h₁
    have hosts₁ := s₁.hosts hosts
    have s₂ := visitExpr_steps hosts₁ callee (List.Subset.refl _) h₂
    have s₃ := visitArguments_steps (s₂.hosts hosts₁) args (List.Subset.refl _) h
    exact ⟨visitExpr_sound fin hosts₁ callee ((w.tail s₁).left s₃) h₂,
      visitArguments_sound fin (s₂.hosts hosts₁) args ((w.tail s₁).right s₂) h⟩
  | .curry node callee args, w, h => by
    simp only [visitExpr, bind_eq_ok] at h
    obtain ⟨_, b₁, h₁, _, b₂, h₂, h⟩ := h
    have s₁ : Steps [node.id] b b₁ := enter_steps (List.mem_cons_self ..) h₁
    have hosts₁ := s₁.hosts hosts
    have s₂ := visitExpr_steps hosts₁ callee (List.Subset.refl _) h₂
    have s₃ := visitNamed_steps (s₂.hosts hosts₁) args (List.Subset.refl _) h
    exact ⟨visitExpr_sound fin hosts₁ callee ((w.tail s₁).left s₃) h₂,
      visitNamed_sound fin (s₂.hosts hosts₁) args ((w.tail s₁).right s₂) h⟩
  | .letIn node bindings body, w, h => by
    simp only [visitExpr, blockScope, bind_eq_ok] at h
    obtain ⟨_, b₁, h₁, inner, b₂, h₂, _, b₃, h₃, h⟩ := h
    have s₁ : Steps [node.id] b b₁ := enter_steps (List.mem_cons_self ..) h₁
    have s₂ : Steps [node.id] b₁ b₂ :=
      (createScope_steps (List.mem_cons_self ..) (.inr rfl) (s₁.hosts hosts) h₂).1
    have created := created_createScope h₂
    have s₃ : Steps (node.id :: idsOfVars bindings) b₂ b₃ := visitBindings_steps
      (opens_of_dynamic (List.mem_cons_self ..) (.inr created.kind)) bindings
      (List.subset_cons_self ..) h₃
    have hosts₃ := hosts_of_block (s₃.kind created.kind (fun h => by cases h))
    have s₄ := visitExpr_steps hosts₃ body (List.Subset.refl _) h
    have outside := (List.nodup_cons.mp w.nodup).1
    rw [List.mem_append, not_or] at outside
    obtain ⟨vars, filled⟩ := visitBindings_sound fin created.kind bindings
      ((w.tail (s₁.trans s₂)).left s₄) outside.1 h₃
    have bodyWindow : Window body.nodeIds b₃ b' bf := Window.right
      (l := node.id :: idsOfVars bindings) w (((s₁.trans s₂).mono (by simp)).trans s₃)
    obtain ⟨block, fills⟩ := filled.block created (slots_createScope h₂) s₃ w.own s₄ outside.2 fin
    exact ⟨inner, block, fills, vars, visitExpr_sound fin hosts₃ body bodyWindow h⟩
  | .ifElse node c t e, w, h => by
    simp only [visitExpr, bind_eq_ok] at h
    obtain ⟨_, b₁, h₁, _, b₂, h₂, _, b₃, h₃, h⟩ := h
    have s₁ : Steps [node.id] b b₁ := enter_steps (List.mem_cons_self ..) h₁
    have hosts₁ := s₁.hosts hosts
    have s₂ := visitExpr_steps hosts₁ c (List.Subset.refl _) h₂
    have hosts₂ := s₂.hosts hosts₁
    have s₃ := visitExpr_steps hosts₂ t (List.Subset.refl _) h₃
    have hosts₃ := s₃.hosts hosts₂
    have s₄ := visitExpr_steps hosts₃ e (List.Subset.refl _) h
    have rest := (w.tail s₁).right s₂
    exact ⟨visitExpr_sound fin hosts₁ c ((w.tail s₁).left (s₃.append s₄)) h₂,
      visitExpr_sound fin hosts₂ t (rest.left s₄) h₃,
      visitExpr_sound fin hosts₃ e (rest.right s₃) h⟩
  | .matchOn node subject lines, w, h => by
    simp only [visitExpr, bind_eq_ok] at h
    obtain ⟨_, b₁, h₁, _, b₂, h₂, h⟩ := h
    have s₁ : Steps [node.id] b b₁ := enter_steps (List.mem_cons_self ..) h₁
    have hosts₁ := s₁.hosts hosts
    have s₂ := visitExpr_steps hosts₁ subject (List.Subset.refl _) h₂
    have s₃ := visitLines_steps (s₂.hosts hosts₁) lines (List.Subset.refl _) h
    exact ⟨visitExpr_sound fin hosts₁ subject ((w.tail s₁).left s₃) h₂,
      visitLines_sound fin (s₂.hosts hosts₁) lines ((w.tail s₁).right s₂) h⟩
  | .forEach node heads body, w, h => by
    simp only [visitExpr, blockScope, bind_eq_ok] at h
    obtain ⟨_, b₁, h₁, inner, b₂, h₂, _, b₃, h₃, h⟩ := h
    have s₁ : Steps [node.id] b b₁ := enter_steps (List.mem_cons_self ..) h₁
    have s₂ : Steps [node.id] b₁ b₂ :=
      (createScope_steps (List.mem_cons_self ..) (.inr rfl) (s₁.hosts hosts) h₂).1
    have created := created_createScope h₂
    have s₃ : Steps (node.id :: idsOfHeads heads) b₂ b₃ := visitHeads_steps
      (opens_of_dynamic (List.mem_cons_self ..) (.inr created.kind)) heads
      (List.subset_cons_self ..) h₃
    have hosts₃ := hosts_of_block (s₃.kind created.kind (fun h => by cases h))
    have s₄ := visitExpr_steps hosts₃ body (List.Subset.refl _) h
    have outside := (List.nodup_cons.mp w.nodup).1
    rw [List.mem_append, not_or] at outside
    obtain ⟨sound, filled⟩ := visitHeads_sound fin created.kind heads
      ((w.tail (s₁.trans s₂)).left s₄) outside.1 h₃
    have bodyWindow : Window body.nodeIds b₃ b' bf := Window.right
      (l := node.id :: idsOfHeads heads) w (((s₁.trans s₂).mono (by simp)).trans s₃)
    obtain ⟨block, fills⟩ := filled.block created (slots_createScope h₂) s₃ w.own s₄ outside.2 fin
    exact ⟨inner, block, fills, sound, visitExpr_sound fin hosts₃ body bodyWindow h⟩
  | .binary node _ l r, w, h => by
    simp only [visitExpr, bind_eq_ok] at h
    obtain ⟨_, b₁, h₁, _, b₂, h₂, h⟩ := h
    have s₁ : Steps [node.id] b b₁ := enter_steps (List.mem_cons_self ..) h₁
    have hosts₁ := s₁.hosts hosts
    have s₂ := visitExpr_steps hosts₁ l (List.Subset.refl _) h₂
    have s₃ := visitExpr_steps (s₂.hosts hosts₁) r (List.Subset.refl _) h
    exact ⟨visitExpr_sound fin hosts₁ l ((w.tail s₁).left s₃) h₂,
      visitExpr_sound fin (s₂.hosts hosts₁) r ((w.tail s₁).right s₂) h⟩
  | .unary node _ e, w, h | .cast node e _, w, h | .isOf node e _, w, h | .throw node e, w, h => by
    simp only [visitExpr, bind_eq_ok] at h
    obtain ⟨_, b₁, h₁, h⟩ := h
    have s₁ : Steps [node.id] b b₁ := enter_steps (List.mem_cons_self ..) h₁
    exact visitExpr_sound fin (s₁.hosts hosts) e (w.tail s₁) h
  | .access node c keys, w, h => by
    simp only [visitExpr, bind_eq_ok] at h
    obtain ⟨_, b₁, h₁, _, b₂, h₂, h⟩ := h
    have s₁ : Steps [node.id] b b₁ := enter_steps (List.mem_cons_self ..) h₁
    have hosts₁ := s₁.hosts hosts
    have s₂ := visitExpr_steps hosts₁ c (List.Subset.refl _) h₂
    have s₃ := visitExprs_steps (s₂.hosts hosts₁) keys (List.Subset.refl _) h
    exact ⟨visitExpr_sound fin hosts₁ c ((w.tail s₁).left s₃) h₂,
      visitExprs_sound fin (s₂.hosts hosts₁) keys ((w.tail s₁).right s₂) h⟩
  | .tryCatch node body clause error trace handler, w, h => by
    simp only [visitExpr, blockScope, bind_eq_ok] at h
    obtain ⟨_, b₁, h₁, _, b₂, h₂, inner, b₃, h₃, _, b₄, h₄, _, b₅, h₅, h⟩ := h
    have s₁ : Steps [node.id] b b₁ := enter_steps (List.mem_cons_self ..) h₁
    have hosts₁ := s₁.hosts hosts
    have s₂ := visitExpr_steps hosts₁ body (List.Subset.refl _) h₂
    have s₃ : Steps [clause.id] b₂ b₃ :=
      (createScope_steps (List.mem_cons_self ..) (.inr rfl) (s₂.hosts hosts₁) h₃).1
    have created := created_createScope h₃
    have s₄ : Steps [clause.id] b₃ b₄ := recordPosition_steps h₄
    have kind₄ := s₄.kind created.kind (fun h => by cases h)
    have s₅ : Steps (clause.id :: (error.toList ++ trace.toList).map (·.node.id)) b₄ b₅ :=
      declareCaptures_steps _ (List.subset_cons_self ..)
        (opens_of_dynamic (List.mem_cons_self ..) (.inr kind₄)) h₅
    have hosts₅ := hosts_of_block (s₅.kind kind₄ (fun h => by cases h))
    have s₆ := visitExpr_steps hosts₅ handler (List.Subset.refl _) h
    have s₃₅ : Steps (clause.id :: (error.toList ++ trace.toList).map (·.node.id)) b₂ b₅ :=
      ((s₃.trans s₄).mono (by simp)).trans s₅
    have wide :
        Window (body.nodeIds ++ ((clause.id :: (error.toList ++ trace.toList).map (·.node.id)) ++
        handler.nodeIds)) b₁ b' bf := by
      have := w.tail s₁
      rw [List.map_append]
      exact this
    have rest := wide.right s₂
    have outside := (List.nodup_cons.mp rest.nodup).1
    rw [List.append_eq, List.mem_append, not_or] at outside
    obtain ⟨binds, filled⟩ := declareCaptures_binds fin _ ((rest.tail (s₃.trans s₄)).left s₆) kind₄
      outside.1 h₅
    have created₄ := created.stays rfl s₄ (SameEntries.of_tables (tables_recordPosition h₄))
    have empty₄ : (b₄.arena.scope inner).slots = [] := by
      rw [(tables_recordPosition h₄).2.2.2]
      exact slots_createScope h₃
    obtain ⟨block, fills⟩ := filled.block created₄ empty₄ s₅ rest.own s₆ outside.2 fin
    exact ⟨visitExpr_sound fin hosts₁ body (wide.left (s₃₅.append s₆)) h₂, inner, block, fills,
      binds, visitExpr_sound fin hosts₅ handler (rest.right s₃₅) h⟩

theorem visitExprs_sound {σ : ScopeId} {b b' bf : Building} {u : PUnit} (fin : Finished bf a R)
    (hosts : b.Hosts σ) : ∀ es : List Expr, Window (idsOfExprs es) b b' bf →
      visitExprs σ es b = .ok (u, b') → soundExprs a R σ es
  | [], _, _ => trivial
  | e :: rest, w, h => by
    simp only [visitExprs, bind_eq_ok] at h
    obtain ⟨_, b₁, h₁, h⟩ := h
    have s₁ := visitExpr_steps hosts e (List.Subset.refl _) h₁
    have s₂ := visitExprs_steps (s₁.hosts hosts) rest (List.Subset.refl _) h
    exact ⟨visitExpr_sound fin hosts e (w.left s₂) h₁,
      visitExprs_sound fin (s₁.hosts hosts) rest (w.right s₁) h⟩

theorem visitOption_sound {σ : ScopeId} {b b' bf : Building} {u : PUnit} (fin : Finished bf a R)
    (hosts : b.Hosts σ) : ∀ e : Option Expr, Window (idsOfOption e) b b' bf →
      visitOption σ e b = .ok (u, b') → soundOption a R σ e
  | none, _, _ => trivial
  | some e, w, h => visitExpr_sound fin hosts e w h

theorem visitItems_sound {σ : ScopeId} {b b' bf : Building} {u : PUnit} (fin : Finished bf a R)
    (hosts : b.Hosts σ) : ∀ items : List ListItem, Window (idsOfItems items) b b' bf →
      visitItems σ items b = .ok (u, b') → soundItems a R σ items
  | [], _, _ => trivial
  | .value e :: rest, w, h | .splat e :: rest, w, h => by
    simp only [visitItems, bind_eq_ok] at h
    obtain ⟨_, b₁, h₁, h⟩ := h
    have s₁ := visitExpr_steps hosts e (List.Subset.refl _) h₁
    have s₂ := visitItems_steps (s₁.hosts hosts) rest (List.Subset.refl _) h
    exact ⟨visitExpr_sound fin hosts e (w.left s₂) h₁,
      visitItems_sound fin (s₁.hosts hosts) rest (w.right s₁) h⟩

theorem visitEntries_sound {σ : ScopeId} {b b' bf : Building} {u : PUnit} (fin : Finished bf a R)
    (hosts : b.Hosts σ) : ∀ entries : List DictEntry, Window (idsOfEntries entries) b b' bf →
      visitEntries σ entries b = .ok (u, b') → soundEntries a R σ entries
  | [], _, _ => trivial
  | .pair k v :: rest, w, h => by
    simp only [visitEntries, bind_eq_ok] at h
    obtain ⟨_, b₁, h₁, _, b₂, h₂, h⟩ := h
    have s₁ := visitExpr_steps hosts k (List.Subset.refl _) h₁
    have hosts₁ := s₁.hosts hosts
    have s₂ := visitExpr_steps hosts₁ v (List.Subset.refl _) h₂
    have s₃ := visitEntries_steps (s₂.hosts hosts₁) rest (List.Subset.refl _) h
    exact ⟨visitExpr_sound fin hosts k (w.left (s₂.append s₃)) h₁,
      visitExpr_sound fin hosts₁ v ((w.right s₁).left s₃) h₂,
      visitEntries_sound fin (s₂.hosts hosts₁) rest ((w.right s₁).right s₂) h⟩
  | .splat e :: rest, w, h => by
    simp only [visitEntries, bind_eq_ok] at h
    obtain ⟨_, b₁, h₁, h⟩ := h
    have s₁ := visitExpr_steps hosts e (List.Subset.refl _) h₁
    have s₂ := visitEntries_steps (s₁.hosts hosts) rest (List.Subset.refl _) h
    exact ⟨visitExpr_sound fin hosts e (w.left s₂) h₁,
      visitEntries_sound fin (s₁.hosts hosts) rest (w.right s₁) h⟩

theorem visitDefaults_sound {σ : ScopeId} {b b' bf : Building} {u : PUnit} (fin : Finished bf a R)
    (hosts : b.Hosts σ) : ∀ params : List Param, Window (idsOfDefaults params) b b' bf →
      visitDefaults σ params b = .ok (u, b') → soundDefaults a R σ params
  | [], _, _ => trivial
  | ⟨_, _, _, default⟩ :: rest, w, h => by
    simp only [visitDefaults, bind_eq_ok] at h
    obtain ⟨_, b₁, h₁, h⟩ := h
    rw [idsOfDefaults, List.flatMap_cons] at w
    have s₁ := visitOption_steps hosts default (List.Subset.refl _) h₁
    have s₂ := visitDefaults_steps (s₁.hosts hosts) rest (List.Subset.refl _) h
    exact ⟨visitOption_sound fin hosts default (w.left s₂) h₁,
      visitDefaults_sound fin (s₁.hosts hosts) rest (w.right s₁) h⟩

theorem visitArguments_sound {σ : ScopeId} {b b' bf : Building} {u : PUnit} (fin : Finished bf a R)
    (hosts : b.Hosts σ) : ∀ args : List Argument, Window (idsOfArguments args) b b' bf →
      visitArguments σ args b = .ok (u, b') → soundArguments a R σ args
  | [], _, _ => trivial
  | .positional e :: rest, w, h | .named _ e :: rest, w, h | .splat e :: rest, w, h => by
    simp only [visitArguments, bind_eq_ok] at h
    obtain ⟨_, b₁, h₁, h⟩ := h
    have s₁ := visitExpr_steps hosts e (List.Subset.refl _) h₁
    have s₂ := visitArguments_steps (s₁.hosts hosts) rest (List.Subset.refl _) h
    exact ⟨visitExpr_sound fin hosts e (w.left s₂) h₁,
      visitArguments_sound fin (s₁.hosts hosts) rest (w.right s₁) h⟩

theorem visitNamed_sound {σ : ScopeId} {b b' bf : Building} {u : PUnit} (fin : Finished bf a R)
    (hosts : b.Hosts σ) : ∀ args : List NamedExpr, Window (idsOfNamed args) b b' bf →
      visitNamed σ args b = .ok (u, b') → soundNamed a R σ args
  | [], _, _ => trivial
  | ⟨_, e⟩ :: rest, w, h => by
    simp only [visitNamed, bind_eq_ok] at h
    obtain ⟨_, b₁, h₁, h⟩ := h
    have s₁ := visitExpr_steps hosts e (List.Subset.refl _) h₁
    have s₂ := visitNamed_steps (s₁.hosts hosts) rest (List.Subset.refl _) h
    exact ⟨visitExpr_sound fin hosts e (w.left s₂) h₁,
      visitNamed_sound fin (s₁.hosts hosts) rest (w.right s₁) h⟩

theorem visitBindings_sound {σ : ScopeId} {n : NodeId} {b b' bf : Building} {u : PUnit}
    (fin : Finished bf a R) (block : (b.arena.scope σ).kind = .block n) :
    ∀ vars : List VarDef, Window (idsOfVars vars) b b' bf → n ∉ idsOfVars vars →
      visitBindings σ vars b = .ok (u, b') →
        soundVars a R σ vars ∧ Filled a n σ (vars.map (·.node.id)) b b'
  | [], _, _, h => by
    rw [visitBindings, pure_eq_ok] at h
    obtain ⟨-, rfl⟩ := h
    exact ⟨trivial, .refl⟩
  | ⟨node, name, ty, e⟩ :: rest, w, outside, h => by
    rw [idsOfVars, List.mem_cons, List.mem_append, not_or, not_or] at outside
    simp only [visitBindings, bind_eq_ok] at h
    obtain ⟨_, b₁, h₁, _, b₂, h₂, h⟩ := h
    have s₁ : Steps [n, node.id] b b₁ :=
      declareVar_steps (by simp) (opens_of_dynamic (by simp) (.inr block)) h₁
    have block₁ := s₁.kind block (fun h => by cases h)
    have hosts₁ := hosts_of_block block₁
    have s₂ := visitExpr_steps hosts₁ e (List.Subset.refl _) h₂
    have block₂ := s₂.kind block₁ (fun h => by cases h)
    have s₃ : Steps (n :: idsOfVars rest) b₂ b' := visitBindings_steps
      (opens_of_dynamic (List.mem_cons_self ..) (.inr block₂)) rest (List.subset_cons_self ..) h
    have w₁ : Window (e.nodeIds ++ idsOfVars rest) b₁ b' bf :=
      Window.after (l := [node.id]) w [n] (by simpa using outside.2) s₁
    have wn : Window [node.id] b b₁ bf := Window.before (l := [node.id]) w [n]
      (by simpa using outside.1)
      ((s₂.append s₃).mono (by simp))
    obtain ⟨others, filled⟩ := visitBindings_sound fin block₂ rest (w₁.right s₂) outside.2.2 h
    have first : Filled a n σ [node.id] b b₁ :=
      .declare fin wn (List.mem_singleton.mpr rfl) outside.1 w.strict (hosts_of_block block).1 h₁
    exact ⟨⟨visitExpr_sound fin hosts₁ e (w₁.before [n] (by simpa using outside.2.1) s₃) h₂,
      others⟩, first.append ((Filled.of_steps block₁ s₂ outside.2.1).append filled)⟩

theorem visitLines_sound {σ : ScopeId} {b b' bf : Building} {u : PUnit} (fin : Finished bf a R)
    (hosts : b.Hosts σ) : ∀ lines : List MatchLine, Window (idsOfLines lines) b b' bf →
      visitLines σ lines b = .ok (u, b') → soundLines a R σ lines
  | [], _, _ => trivial
  | ⟨node, pattern, guard, result⟩ :: rest, w, h => by
    simp only [visitLines, blockScope, bind_eq_ok] at h
    obtain ⟨inner, b₁, h₁, _, b₂, h₂, _, b₃, h₃, _, b₄, h₄, _, b₅, h₅, _, b₆, h₆, _, b₇, h₇, h⟩ := h
    have s₁ : Steps [node.id] b b₁ :=
      (createScope_steps (List.mem_cons_self ..) (.inr rfl) hosts h₁).1
    have created := created_createScope h₁
    have s₂ : Steps [pattern.node.id] b₁ b₂ := recordPosition_steps h₂
    have s₃ := s₂.trans (enter_steps (List.mem_cons_self ..) h₃)
    have hosts₃ := s₃.hosts (s₁.hosts hosts)
    have s₄ := visitPattern_steps hosts₃ pattern (List.Subset.refl _) h₄
    have kind₄ := s₄.kind (s₃.kind created.kind (fun h => by cases h)) (fun h => by cases h)
    have s₅ : Steps (node.id :: pattern.captures.map (·.node.id)) b₄ b₅ := declareCaptures_steps _
      (List.subset_cons_self ..) (opens_of_dynamic (List.mem_cons_self ..) (.inr kind₄)) h₅
    have hosts₅ := hosts_of_block (s₅.kind kind₄ (fun h => by cases h))
    have s₆ := visitOption_steps hosts₅ guard (List.Subset.refl _) h₆
    have hosts₆ := s₆.hosts hosts₅
    have s₇ := visitExpr_steps hosts₆ result (List.Subset.refl _) h₇
    have hosts₇ := s₇.hosts (s₆.hosts (s₅.hosts (s₄.hosts hosts₃)))
    have s₈ := visitLines_steps hosts₇ rest (List.Subset.refl _) h
    -- The expressions of the pattern come before what it captures.
    have sorted : Window (node.id :: (pattern.node.id :: (idsOfExprs pattern.expressions ++
        (pattern.captures.map (·.node.id) ++ (idsOfOption guard ++
          (result.nodeIds ++ idsOfLines rest)))))) b b' bf := by
      refine w.narrow fun id => ?_
      have := pattern.count_le id
      simp only [idsOfLines, List.count_cons, List.count_append] at this ⊢
      omega
    have outside := (List.nodup_cons.mp sorted.nodup).1
    simp only [List.mem_cons, List.mem_append, not_or] at outside
    have later := s₆.append (s₇.append s₈)
    have w₃ := (sorted.tail s₁).tail s₃
    have w₄ := w₃.right s₄
    have w₅ : Window (idsOfOption guard ++ (result.nodeIds ++ idsOfLines rest)) b₅ b' bf :=
      w₄.after [node.id] (by simpa using outside.2.2.2) s₅
    have w₆ := w₅.right s₆
    obtain ⟨binds, filled⟩ := declareCaptures_binds fin _ (w₄.left later) kind₄ outside.2.2.1 h₅
    have before : Filled a node.id inner [] b₁ b₄ :=
      (Filled.of_steps created.kind s₃ (by simpa using outside.1)).append
        (Filled.of_steps (s₃.kind created.kind (fun h => by cases h)) s₄ outside.2.1)
    have absent : node.id ∉ idsOfOption guard ++ (result.nodeIds ++ idsOfLines rest) := by
      simpa using outside.2.2.2
    have s₁₅ : Steps (pattern.node.id :: (idsOfExprs pattern.expressions ++
        (node.id :: pattern.captures.map (·.node.id)))) b₁ b₅ := s₃.append (s₄.append s₅)
    obtain ⟨block, fills⟩ := (before.append filled).block created (slots_createScope h₁) s₁₅
      sorted.own later absent fin
    exact ⟨visitPattern_sound fin hosts₃ pattern
        (w₃.before [node.id] (by simpa using outside.2.1)
          ((s₅.append later).mono (by simp))) h₄,
      ⟨inner, block, fills, binds,
        visitOption_sound fin hosts₅ guard (w₅.left (s₇.append s₈)) h₆,
        visitExpr_sound fin hosts₆ result (w₆.left s₈) h₇⟩,
      visitLines_sound fin hosts₇ rest (w₆.right s₇) h⟩

theorem visitHeads_sound {σ : ScopeId} {n : NodeId} {b b' bf : Building} {u : PUnit}
    (fin : Finished bf a R) (block : (b.arena.scope σ).kind = .block n) :
    ∀ heads : List ForHead, Window (idsOfHeads heads) b b' bf → n ∉ idsOfHeads heads →
      visitHeads σ heads b = .ok (u, b') →
        soundHeads a R σ heads ∧ Filled a n σ (headNodes heads) b b'
  | [], _, _, h => by
    rw [visitHeads, pure_eq_ok] at h
    obtain ⟨-, rfl⟩ := h
    exact ⟨trivial, .refl⟩
  | .generator node name ty source :: rest, w, outside, h => by
    rw [idsOfHeads, List.mem_cons, List.mem_append, not_or, not_or] at outside
    simp only [visitHeads, bind_eq_ok] at h
    obtain ⟨_, b₁, h₁, _, b₂, h₂, h⟩ := h
    have hosts := hosts_of_block block
    have s₁ := visitExpr_steps hosts source (List.Subset.refl _) h₁
    have block₁ := s₁.kind block (fun h => by cases h)
    have s₂ : Steps [n, node.id] b₁ b₂ :=
      declareVar_steps (by simp) (opens_of_dynamic (by simp) (.inr block₁)) h₂
    have block₂ := s₂.kind block₁ (fun h => by cases h)
    have s₃ : Steps (n :: idsOfHeads rest) b₂ b' := visitHeads_steps
      (opens_of_dynamic (List.mem_cons_self ..) (.inr block₂)) rest (List.subset_cons_self ..) h
    have sorted : Window (source.nodeIds ++ (node.id :: idsOfHeads rest)) b b' bf := by
      refine w.narrow fun id => ?_
      simp only [idsOfHeads, List.count_cons, List.count_append]
      omega
    have w₁ := sorted.right s₁
    have wn : Window [node.id] b₁ b₂ bf := Window.before (l := [node.id]) w₁ [n]
      (by simpa using outside.1) s₃
    obtain ⟨others, filled⟩ :=
      visitHeads_sound fin block₂ rest (Window.after (l := [node.id]) w₁ [n]
        (by simpa using outside.2.2) s₂) outside.2.2 h
    have first : Filled a n σ [node.id] b₁ b₂ :=
      .declare fin wn (List.mem_singleton.mpr rfl) outside.1 w₁.strict (hosts_of_block block₁).1 h₂
    exact ⟨⟨visitExpr_sound fin hosts source (sorted.before [n]
        (by simpa using outside.2.1) ((s₂.append s₃).mono (by simp))) h₁,
      (declared_declare w₁.strict h₂).declares wn (List.mem_singleton.mpr rfl) fin, others⟩,
      (Filled.of_steps block s₁ outside.2.1).append (first.append filled)⟩
  | .definition node name ty e :: rest, w, outside, h => by
    rw [idsOfHeads, List.mem_cons, List.mem_append, not_or, not_or] at outside
    simp only [visitHeads, bind_eq_ok] at h
    obtain ⟨_, b₁, h₁, _, b₂, h₂, h⟩ := h
    have s₁ : Steps [n, node.id] b b₁ :=
      declareVar_steps (by simp) (opens_of_dynamic (by simp) (.inr block)) h₁
    have block₁ := s₁.kind block (fun h => by cases h)
    have hosts₁ := hosts_of_block block₁
    have s₂ := visitExpr_steps hosts₁ e (List.Subset.refl _) h₂
    have block₂ := s₂.kind block₁ (fun h => by cases h)
    have s₃ : Steps (n :: idsOfHeads rest) b₂ b' := visitHeads_steps
      (opens_of_dynamic (List.mem_cons_self ..) (.inr block₂)) rest (List.subset_cons_self ..) h
    have w₁ : Window (e.nodeIds ++ idsOfHeads rest) b₁ b' bf :=
      Window.after (l := [node.id]) w [n] (by simpa using outside.2) s₁
    have wn : Window [node.id] b b₁ bf := Window.before (l := [node.id]) w [n]
      (by simpa using outside.1) ((s₂.append s₃).mono (by simp))
    obtain ⟨others, filled⟩ := visitHeads_sound fin block₂ rest (w₁.right s₂) outside.2.2 h
    have first : Filled a n σ [node.id] b b₁ :=
      .declare fin wn (List.mem_singleton.mpr rfl) outside.1 w.strict (hosts_of_block block).1 h₁
    exact ⟨⟨(declared_declare w.strict h₁).declares wn (List.mem_singleton.mpr rfl) fin,
      visitExpr_sound fin hosts₁ e (w₁.before [n] (by simpa using outside.2.1) s₃) h₂,
      others⟩, first.append ((Filled.of_steps block₁ s₂ outside.2.1).append filled)⟩
  | .condition e :: rest, w, outside, h => by
    rw [idsOfHeads, List.mem_append, not_or] at outside
    simp only [visitHeads, bind_eq_ok] at h
    obtain ⟨_, b₁, h₁, h⟩ := h
    have hosts := hosts_of_block block
    have s₁ := visitExpr_steps hosts e (List.Subset.refl _) h₁
    have block₁ := s₁.kind block (fun h => by cases h)
    have s₂ : Steps (n :: idsOfHeads rest) b₁ b' := visitHeads_steps
      (opens_of_dynamic (List.mem_cons_self ..) (.inr block₁)) rest (List.subset_cons_self ..) h
    obtain ⟨others, filled⟩ := visitHeads_sound fin block₁ rest (w.right s₁) outside.2 h
    exact ⟨⟨visitExpr_sound fin hosts e (w.before [n] (by simpa using outside.1) s₂) h₁,
      others⟩, (Filled.of_steps block s₁ outside.1).append filled⟩

theorem visitPattern_sound {σ : ScopeId} {b b' bf : Building} {u : PUnit} (fin : Finished bf a R)
    (hosts : b.Hosts σ) : ∀ p : Pattern, Window (idsOfExprs p.expressions) b b' bf →
      visitPattern σ p b = .ok (u, b') → p.Sound a R σ
  | ⟨_, shape, _⟩, w, h => visitShape_sound fin hosts shape w h

theorem visitShape_sound {σ : ScopeId} {b b' bf : Building} {u : PUnit} (fin : Finished bf a R)
    (hosts : b.Hosts σ) : ∀ s : PatternShape, Window (idsOfExprs s.expressions) b b' bf →
      visitShape σ s b = .ok (u, b') → s.Sound a R σ
  | .expr e, w, h => by
    rw [PatternShape.expressions, idsOfExprs, idsOfExprs, List.append_nil] at w
    exact visitExpr_sound fin hosts e w h
  | .wildcard, _, _ => trivial
  | .default, _, _ => trivial
  | .ofType _, _, _ => trivial
  | .list items, w, h => visitPatterns_sound fin hosts items w h
  | .headTail head _, w, h => visitPatterns_sound fin hosts head w h
  | .initLast _ last, w, h => visitPatterns_sound fin hosts last w h
  | .middle head _ last, w, h => by
    rw [PatternShape.expressions, idsOfExprs_append] at w
    simp only [visitShape, bind_eq_ok] at h
    obtain ⟨_, b₁, h₁, h⟩ := h
    have s₁ := visitPatterns_steps hosts head (List.Subset.refl _) h₁
    have s₂ := visitPatterns_steps (s₁.hosts hosts) last (List.Subset.refl _) h
    exact ⟨visitPatterns_sound fin hosts head (w.left s₂) h₁,
      visitPatterns_sound fin (s₁.hosts hosts) last (w.right s₁) h⟩
  | .dict entries, w, h => visitKeyPatterns_sound fin hosts entries w h
  | .openDict entries _, w, h => visitKeyPatterns_sound fin hosts entries w h

theorem visitPatterns_sound {σ : ScopeId} {b b' bf : Building} {u : PUnit} (fin : Finished bf a R)
    (hosts : b.Hosts σ) :
    ∀ ps : List Pattern, Window (idsOfExprs (expressionsOfPatterns ps)) b b' bf →
      visitPatterns σ ps b = .ok (u, b') → soundPatterns a R σ ps
  | [], _, _ => trivial
  | p :: rest, w, h => by
    rw [expressionsOfPatterns, idsOfExprs_append] at w
    simp only [visitPatterns, bind_eq_ok] at h
    obtain ⟨_, b₁, h₁, h⟩ := h
    have s₁ := visitPattern_steps hosts p (List.Subset.refl _) h₁
    have s₂ := visitPatterns_steps (s₁.hosts hosts) rest (List.Subset.refl _) h
    exact ⟨visitPattern_sound fin hosts p (w.left s₂) h₁,
      visitPatterns_sound fin (s₁.hosts hosts) rest (w.right s₁) h⟩

theorem visitKeyPatterns_sound {σ : ScopeId} {b b' bf : Building} {u : PUnit}
    (fin : Finished bf a R) (hosts : b.Hosts σ) :
    ∀ ps : List KeyPattern, Window (idsOfExprs (expressionsOfEntries ps)) b b' bf →
      visitKeyPatterns σ ps b = .ok (u, b') → soundKeyPatterns a R σ ps
  | [], _, _ => trivial
  | ⟨_, p⟩ :: rest, w, h => by
    rw [expressionsOfEntries, idsOfExprs_append] at w
    simp only [visitKeyPatterns, bind_eq_ok] at h
    obtain ⟨_, b₁, h₁, h⟩ := h
    have s₁ := visitPattern_steps hosts p (List.Subset.refl _) h₁
    have s₂ := visitKeyPatterns_steps (s₁.hosts hosts) rest (List.Subset.refl _) h
    exact ⟨visitPattern_sound fin hosts p (w.left s₂) h₁,
      visitKeyPatterns_sound fin (s₁.hosts hosts) rest (w.right s₁) h⟩

end

end Build

end CellScript
