import CellScript.Proofs.Scope.Owners
import CellScript.Proofs.Syntax.Occurs

/-!
# When an expression is visited

The first pass visits the expressions of a program one after the other, and those of which an
expression is made one after the other while it visits that expression. If the nodes of a program
are told apart, then every expression in it has a time of its own: before and after, nothing is
noted under its nodes. In recovery mode a unit, library or section whose name is taken is passed
over, and nothing is ever noted under the nodes in it.

* `Build.Trail` — a run that visits expressions in order
* `Build.visitExpr_trail` — visiting an expression visits those of which it is made
* `Build.Visits` — the time at which an expression is visited
* `buildScopes_visits` — the first pass visits an expression once, or not at all
-/

namespace CellScript

/-! ## Lists of expressions -/

theorem idsOfOption_eq (e : Option Expr) : idsOfOption e = idsOfExprs e.toList := by
  cases e with
  | none => rfl
  | some e => exact (List.append_nil _).symm

theorem idsOfItems_eq (items : List ListItem) :
    idsOfItems items = idsOfExprs (items.map (·.expr)) := by
  induction items with
  | nil => rfl
  | cons item rest ih => cases item <;> rw [idsOfItems, ih] <;> rfl

theorem idsOfEntries_eq (entries : List DictEntry) :
    idsOfEntries entries = idsOfExprs (entries.flatMap (·.exprs)) := by
  induction entries with
  | nil => rfl
  | cons entry rest ih => cases entry <;> rw [idsOfEntries, ih] <;> rfl

theorem idsOfDefaults_eq (params : List Param) :
    idsOfDefaults params = idsOfExprs (params.filterMap (·.default)) := by
  induction params with
  | nil => rfl
  | cons p rest ih =>
    obtain ⟨node, name, ty, default⟩ := p
    rw [idsOfDefaults, List.flatMap_cons, ← idsOfDefaults, ih, idsOfOption_eq]
    cases default with
    | none => rfl
    | some e => exact (idsOfExprs_append [e] _).symm

theorem idsOfArguments_eq (args : List Argument) :
    idsOfArguments args = idsOfExprs (args.map (·.expr)) := by
  induction args with
  | nil => rfl
  | cons arg rest ih => cases arg <;> rw [idsOfArguments, ih] <;> rfl

theorem idsOfNamed_eq (args : List NamedExpr) :
    idsOfNamed args = idsOfExprs (args.map (·.value)) := by
  induction args with
  | nil => rfl
  | cons arg rest ih =>
    obtain ⟨name, e⟩ := arg
    rw [idsOfNamed, ih]
    rfl

/-- All that the expression is made of stands where the expression stands. -/
def Expr.isFlat : Expr → Bool
  | .reference _ _ | .function _ _ _ _ | .letIn _ _ _ | .matchOn _ _ _ | .forEach _ _ _
  | .tryCatch _ _ _ _ _ _ => false
  | _ => true

namespace Build

theorem visitExprs_append (σ : ScopeId) (es rest : List Expr) :
    visitExprs σ (es ++ rest) = visitExprs σ es >>= fun _ => visitExprs σ rest := by
  induction es with
  | nil => rfl
  | cons e es ih => rw [List.cons_append, visitExprs, visitExprs, ih, bind_assoc]

theorem visitExprs_singleton (σ : ScopeId) (e : Expr) : visitExprs σ [e] = visitExpr σ e :=
  bind_pure_unit

theorem visitOption_eq (σ : ScopeId) (e : Option Expr) :
    visitOption σ e = visitExprs σ e.toList := by
  cases e with
  | none => rfl
  | some e => exact (visitExprs_singleton σ e).symm

theorem visitItems_eq (σ : ScopeId) (items : List ListItem) :
    visitItems σ items = visitExprs σ (items.map (·.expr)) := by
  induction items with
  | nil => rfl
  | cons item rest ih => cases item <;> rw [visitItems, ih] <;> rfl

theorem visitEntries_eq (σ : ScopeId) (entries : List DictEntry) :
    visitEntries σ entries = visitExprs σ (entries.flatMap (·.exprs)) := by
  induction entries with
  | nil => rfl
  | cons entry rest ih => cases entry <;> rw [visitEntries, ih] <;> rfl

theorem visitDefaults_eq (σ : ScopeId) (params : List Param) :
    visitDefaults σ params = visitExprs σ (params.filterMap (·.default)) := by
  induction params with
  | nil => rfl
  | cons p rest ih =>
    obtain ⟨node, name, ty, default⟩ := p
    rw [visitDefaults, ih]
    cases default <;> rfl

theorem visitArguments_eq (σ : ScopeId) (args : List Argument) :
    visitArguments σ args = visitExprs σ (args.map (·.expr)) := by
  induction args with
  | nil => rfl
  | cons arg rest ih => cases arg <;> rw [visitArguments, ih] <;> rfl

theorem visitNamed_eq (σ : ScopeId) (args : List NamedExpr) :
    visitNamed σ args = visitExprs σ (args.map (·.value)) := by
  induction args with
  | nil => rfl
  | cons arg rest ih =>
    obtain ⟨name, e⟩ := arg
    rw [visitNamed, ih]
    rfl

mutual

theorem visitPattern_eq (σ : ScopeId) : ∀ p : Pattern, visitPattern σ p = visitExprs σ p.expressions
  | ⟨_, shape, _⟩ => visitShape_eq σ shape

theorem visitShape_eq (σ : ScopeId) : ∀ shape : PatternShape,
    visitShape σ shape = visitExprs σ shape.expressions
  | .expr e => (visitExprs_singleton σ e).symm
  | .wildcard | .default | .ofType _ => rfl
  | .list items => visitPatterns_eq σ items
  | .headTail head _ => visitPatterns_eq σ head
  | .initLast _ last => visitPatterns_eq σ last
  | .middle head _ last => by
    rw [visitShape, PatternShape.expressions, visitExprs_append, visitPatterns_eq σ head,
      visitPatterns_eq σ last]
  | .dict entries => visitKeyPatterns_eq σ entries
  | .openDict entries _ => visitKeyPatterns_eq σ entries

theorem visitPatterns_eq (σ : ScopeId) : ∀ ps : List Pattern,
    visitPatterns σ ps = visitExprs σ (expressionsOfPatterns ps)
  | [] => rfl
  | p :: rest => by
    rw [visitPatterns, expressionsOfPatterns, visitExprs_append, visitPattern_eq σ p,
      visitPatterns_eq σ rest]

theorem visitKeyPatterns_eq (σ : ScopeId) : ∀ ps : List KeyPattern,
    visitKeyPatterns σ ps = visitExprs σ (expressionsOfEntries ps)
  | [] => rfl
  | ⟨_, p⟩ :: rest => by
    rw [visitKeyPatterns, expressionsOfEntries, visitExprs_append, visitPattern_eq σ p,
      visitKeyPatterns_eq σ rest]

end

/-! ## Runs that visit expressions -/

variable {homes ids few more : List NodeId} {es others : List Expr} {b c b' bf : Building}

/-- A run that visits the expressions in their order and takes other steps in between. It enters
each of `ids` once; the nodes `homes`, to which scopes belong, play a part at any time. -/
inductive Trail (homes : List NodeId) : List NodeId → List Expr → Building → Building → Prop where
  | stop (b : Building) : Trail homes [] [] b b
  | step {few ids : List NodeId} {es : List Expr} {b c b' : Building}
    (first : Steps (homes ++ few) b c) (rest : Trail homes ids es c b') :
      Trail homes (few ++ ids) es b b'
  | visit {ids : List NodeId} {es : List Expr} {σ : ScopeId} {e : Expr} {b c b' : Building}
    (hosts : b.Hosts σ) (run : visitExpr σ e b = .ok (⟨⟩, c)) (rest : Trail homes ids es c b') :
    Trail homes (e.nodeIds ++ ids) (e :: es) b b'

namespace Trail

theorem append (h : Trail homes few es b c) (h' : Trail homes more others c b') :
    Trail homes (few ++ more) (es ++ others) b b' := by
  induction h with
  | stop b => exact h'
  | step first rest ih =>
    rw [List.append_assoc]
    exact .step first (ih h')
  | visit hosts run rest ih =>
    rw [List.append_assoc]
    exact .visit hosts run (ih h')

theorem steps (h : Trail homes ids es b b') : Steps (homes ++ ids) b b' := by
  induction h with
  | stop b => exact .refl
  | @step few ids _ _ _ _ first _ ih =>
    refine (first.mono ?_).trans (ih.mono ?_) <;> intro id <;> simp <;> tauto
  | @visit ids _ σ e _ _ _ hosts run _ ih =>
    refine (visitExpr_steps hosts e (List.Subset.refl _) run |>.mono ?_).trans (ih.mono ?_) <;>
      intro id <;> simp <;> tauto

/-- Only steps. -/
theorem single (h : Steps (homes ++ ids) b b') : Trail homes ids [] b b' := by
  have := Trail.step h (.stop b')
  rwa [List.append_nil] at this

theorem exprs {σ : ScopeId} (hosts : b.Hosts σ) (h : visitExprs σ es b = .ok (⟨⟩, b')) :
    Trail homes (idsOfExprs es) es b b' := by
  induction es generalizing b with
  | nil =>
    rw [visitExprs, pure_eq_ok] at h
    exact h.2 ▸ .stop b
  | cons e rest ih =>
    simp only [visitExprs, bind_eq_ok] at h
    obtain ⟨_, c, h₁, h⟩ := h
    have s₁ := visitExpr_steps hosts e (List.Subset.refl _) h₁
    exact .visit hosts h₁ (ih (s₁.hosts hosts) h)

theorem expr {σ : ScopeId} {e : Expr} (hosts : b.Hosts σ) (h : visitExpr σ e b = .ok (⟨⟩, b')) :
    Trail homes e.nodeIds [e] b b' := by
  have : Trail homes (e.nodeIds ++ []) [e] b b' := .visit hosts h (.stop b')
  rwa [List.append_nil] at this

end Trail

/-! ## The parts of an expression -/

theorem visitBindings_trail {n : NodeId} {σ : ScopeId} (home : n ∈ homes) (vars : List VarDef)
    (block : (b.arena.scope σ).kind = .block n) (h : visitBindings σ vars b = .ok (⟨⟩, b')) :
    Trail homes (idsOfVars vars) (vars.map (·.value)) b b' := by
  induction vars generalizing b with
  | nil =>
    rw [visitBindings, pure_eq_ok] at h
    exact h.2 ▸ .stop b
  | cons v rest ih =>
    obtain ⟨node, name, ty, e⟩ := v
    simp only [visitBindings, bind_eq_ok] at h
    obtain ⟨_, b₁, h₁, _, b₂, h₂, h⟩ := h
    have s₁ : Steps (homes ++ [node.id]) b b₁ := declareVar_steps (by simp)
      (opens_of_dynamic (List.mem_append_left _ home) (.inr block)) h₁
    have hosts₁ := hosts_of_block (s₁.kind block fun h => by cases h)
    have s₂ := visitExpr_steps hosts₁ e (List.Subset.refl _) h₂
    have block₂ := s₂.kind (s₁.kind block fun h => by cases h) fun h => by cases h
    exact (Trail.step s₁ (.visit hosts₁ h₂ (ih block₂ h)) :)

theorem visitHeads_trail {n : NodeId} {σ : ScopeId} (home : n ∈ homes) (heads : List ForHead)
    (block : (b.arena.scope σ).kind = .block n) (h : visitHeads σ heads b = .ok (⟨⟩, b')) :
    ∃ ids, Trail homes ids (heads.map (·.expr)) b b' ∧
      ∀ id, ids.count id ≤ (idsOfHeads heads).count id := by
  induction heads generalizing b with
  | nil =>
    rw [visitHeads, pure_eq_ok] at h
    exact ⟨[], h.2 ▸ .stop b, fun _ => Nat.le_refl _⟩
  | cons head rest ih =>
    have declares : ∀ {few : List NodeId} {node : Node} {name : String} {ty : Ty} {c c' : Building}
        {id? : Option SymbolId}, Steps few b c → declare σ (.var name ty node) c = .ok (id?, c') →
        Steps (homes ++ [node.id]) c c' := fun s hd => declareVar_steps (by simp)
      (opens_of_dynamic (List.mem_append_left _ home) (.inr (s.kind block fun h => by cases h))) hd
    cases head with
    | generator node name ty source =>
      simp only [visitHeads, bind_eq_ok] at h
      obtain ⟨_, b₁, h₁, _, b₂, h₂, h⟩ := h
      have s₁ := visitExpr_steps (hosts_of_block block) source (List.Subset.refl _) h₁
      have s₂ := declares s₁ h₂
      obtain ⟨ids, trail, few⟩ :=
        ih (s₂.kind (s₁.kind block fun h => by cases h) fun h => by cases h) h
      refine ⟨_, .visit (hosts_of_block block) h₁ (Trail.step s₂ trail), fun id => ?_⟩
      have := few id
      simp only [idsOfHeads, ForHead.expr, List.count_append, List.count_cons, List.count_nil]
      omega
    | definition node name ty e =>
      simp only [visitHeads, bind_eq_ok] at h
      obtain ⟨_, b₁, h₁, _, b₂, h₂, h⟩ := h
      have s₁ : Steps (homes ++ [node.id]) b b₁ := declares (.refl : Steps [] b b) h₁
      have block₁ := s₁.kind block fun h => by cases h
      have s₂ := visitExpr_steps (hosts_of_block block₁) e (List.Subset.refl _) h₂
      obtain ⟨ids, trail, few⟩ := ih (s₂.kind block₁ fun h => by cases h) h
      refine ⟨_, Trail.step s₁ (.visit (hosts_of_block block₁) h₂ trail), fun id => ?_⟩
      have := few id
      simp only [idsOfHeads, ForHead.expr, List.count_append, List.count_cons, List.count_nil]
      omega
    | condition e =>
      simp only [visitHeads, bind_eq_ok] at h
      obtain ⟨_, b₁, h₁, h⟩ := h
      have s₁ := visitExpr_steps (hosts_of_block block) e (List.Subset.refl _) h₁
      obtain ⟨ids, trail, few⟩ := ih (s₁.kind block fun h => by cases h) h
      refine ⟨_, .visit (hosts_of_block block) h₁ trail, fun id => ?_⟩
      have := few id
      simp only [idsOfHeads, ForHead.expr, List.count_append]
      omega

theorem visitLines_trail {σ : ScopeId} (lines : List MatchLine)
    (sub : lines.map (·.node.id) ⊆ homes) (hosts : b.Hosts σ)
    (h : visitLines σ lines b = .ok (⟨⟩, b')) :
    ∃ ids, Trail homes ids (lines.flatMap (·.exprs)) b b' ∧
      ∀ id, (lines.map (·.node.id)).count id + ids.count id ≤ (idsOfLines lines).count id := by
  induction lines generalizing b with
  | nil =>
    rw [visitLines, pure_eq_ok] at h
    exact ⟨[], h.2 ▸ .stop b, fun _ => Nat.le_refl _⟩
  | cons line rest ih =>
    obtain ⟨node, pattern, guard, result⟩ := line
    rw [List.map_cons, List.cons_subset] at sub
    simp only [visitLines, blockScope, visitPattern_eq, visitOption_eq, bind_eq_ok] at h
    obtain ⟨inner, b₁, h₁, _, b₂, h₂, _, b₃, h₃, _, b₄, h₄, _, b₅, h₅, _, b₆, h₆, _, b₇, h₇, h⟩ := h
    have mem : node.id ∈ homes ++ [pattern.node.id] := List.mem_append_left _ sub.1
    obtain ⟨s₁, opens₁⟩ : Steps (homes ++ [pattern.node.id]) b b₁ ∧ b₁.Opens [node.id] inner :=
      ⟨(createScope_steps mem (.inr rfl) hosts h₁).1,
        (createScope_steps (List.mem_singleton.mpr rfl) (.inr rfl) hosts h₁).2⟩
    have t₃ : Steps (homes ++ [pattern.node.id]) b₁ b₃ :=
      (recordPosition_steps h₂).trans (enter_steps (by simp) h₃)
    have s₃ := s₁.trans t₃
    have t₄ := visitExprs_steps (s₃.hosts hosts) _ (List.Subset.refl _) h₄
    have inner₄ := t₄.opens (t₃.opens opens₁)
    have t₅ : Steps (homes ++ pattern.captures.map (·.node.id)) b₄ b₅ :=
      declareCaptures_steps pattern.captures (List.subset_append_right ..)
        ⟨inner₄.hosts, inner₄.owned, fun n => (inner₄.opened n).mono (by simpa using .inl sub.1)⟩ h₅
    have hosts₅ := t₅.hosts inner₄.hosts
    have t₆ := visitExprs_steps hosts₅ _ (List.Subset.refl _) h₆
    have t₇ := visitExpr_steps (t₆.hosts hosts₅) result (List.Subset.refl _) h₇
    have hosts₇ := t₇.hosts (t₆.hosts (t₅.hosts (t₄.hosts (s₃.hosts hosts))))
    obtain ⟨ids, trail, few⟩ := ih sub.2 hosts₇ h
    have all := ((Trail.single s₃).append (.exprs (s₃.hosts hosts) h₄)).append
      ((Trail.single t₅).append (.append (.exprs hosts₅ h₆)
        (.append (.expr (t₆.hosts hosts₅) h₇) trail)))
    refine ⟨_, by simpa [MatchLine.exprs] using all, fun id => ?_⟩
    have := few id
    have := pattern.count_le id
    simp only [idsOfLines, idsOfOption_eq, List.map_cons, List.count_append,
      List.count_cons] at this ⊢
    omega

theorem visitExpr_flat (σ : ScopeId) {e : Expr} (flat : e.isFlat = true) :
    visitExpr σ e = (enter e.node σ >>= fun _ => visitExprs σ e.children) ∧
      e.nodeIds = e.node.id :: idsOfExprs e.children := by
  cases e with
  | constant node _ => exact ⟨bind_pure_unit.symm, rfl⟩
  | list node items =>
    exact ⟨by rw [visitExpr, visitItems_eq]; rfl, by rw [Expr.nodeIds, idsOfItems_eq]; rfl⟩
  | dict node entries =>
    exact ⟨by rw [visitExpr, visitEntries_eq]; rfl, by rw [Expr.nodeIds, idsOfEntries_eq]; rfl⟩
  | call node callee args =>
    exact ⟨by rw [visitExpr, visitArguments_eq]; rfl, by rw [Expr.nodeIds, idsOfArguments_eq]; rfl⟩
  | curry node callee args =>
    exact ⟨by rw [visitExpr, visitNamed_eq]; rfl, by rw [Expr.nodeIds, idsOfNamed_eq]; rfl⟩
  | ifElse | binary | unary | cast | isOf | throw =>
    exact ⟨by simp only [visitExpr, Expr.node, Expr.children, visitExprs, bind_pure_unit],
      by simp [Expr.nodeIds, Expr.node, Expr.children, idsOfExprs]⟩
  | access node c keys => exact ⟨rfl, rfl⟩
  | reference | function | letIn | matchOn | forEach | tryCatch => cases flat

/-- **Visiting an expression visits those of which it is made**, one after the other. -/
theorem visitExpr_trail {σ : ScopeId} {e : Expr} (hosts : b.Hosts σ)
    (h : visitExpr σ e b = .ok (⟨⟩, b')) : ∃ homes ids, Trail homes ids e.children b b' ∧
      ∀ id, homes.count id + ids.count id ≤ e.nodeIds.count id := by
  have entered : ∀ {node : Node} {c : Building} {homes : List NodeId}, node.id ∈ homes →
      enter node σ b = .ok (⟨⟩, c) → Trail homes [] [] b c ∧ c.Hosts σ := by
    intro node c homes mem h
    have s : Steps (homes ++ []) b c := enter_steps (by simpa using mem) h
    exact ⟨.single s, s.hosts hosts⟩
  cases hf : e.isFlat with
  | true =>
    obtain ⟨visit, ids⟩ := visitExpr_flat σ hf
    rw [visit, bind_eq_ok] at h
    obtain ⟨_, b₁, h₁, h⟩ := h
    obtain ⟨first, hosts₁⟩ := entered (List.mem_singleton_self e.node.id) h₁
    refine ⟨[e.node.id], idsOfExprs e.children, first.append (.exprs hosts₁ h), fun id => ?_⟩
    rw [ids]
    simp only [List.count_cons, List.count_nil]
    omega
  | false =>
    cases e with
    | reference node r =>
      simp only [visitExpr, bind_eq_ok] at h
      obtain ⟨_, b₁, h₁, h⟩ := h
      obtain ⟨first, hosts₁⟩ := entered (List.mem_singleton_self node.id) h₁
      have s : Steps ([node.id] ++ []) b₁ b' := await_steps (by simp) hosts₁ h
      exact ⟨[node.id], [], first.append (.single s), fun id => by simp [Expr.nodeIds]⟩
    | function node params _ body =>
      simp only [visitExpr, visitDefaults_eq, bind_eq_ok] at h
      obtain ⟨_, b₁, h₁, _, b₂, h₂, inner, b₃, h₃, _, b₄, h₄, h⟩ := h
      obtain ⟨first, hosts₁⟩ := entered (List.mem_singleton_self node.id) h₁
      have s₂ := visitExprs_steps hosts₁ _ (List.Subset.refl _) h₂
      have mem : node.id ∈ [node.id] ++ params.map (·.node.id) := by simp
      obtain ⟨t₃, opens₃⟩ := createScope_steps mem (.inl rfl) (s₂.hosts hosts₁) h₃
      have t₄ := declareParams_steps params (List.subset_append_right ..) opens₃ h₄
      refine ⟨_, _, (first.append (.exprs hosts₁ h₂)).append
        ((Trail.single (t₃.trans t₄)).append (.expr (t₄.hosts opens₃.hosts) h)), fun id => ?_⟩
      have := (List.perm_iff_count.mp (idsOfParams_perm params)) id
      simp only [Expr.nodeIds, idsOfDefaults_eq, List.count_append, List.count_cons,
        List.count_nil] at this ⊢
      omega
    | letIn node bindings body =>
      simp only [visitExpr, blockScope, bind_eq_ok] at h
      obtain ⟨_, b₁, h₁, inner, b₂, h₂, _, b₃, h₃, h⟩ := h
      obtain ⟨first, hosts₁⟩ := entered (List.mem_singleton_self node.id) h₁
      have t₂ : Steps ([node.id] ++ []) b₁ b₂ :=
        (createScope_steps (by simp) (.inr rfl) hosts₁ h₂).1
      have t₃ :=
        visitBindings_trail (List.mem_singleton_self node.id) bindings (kind_createScope h₂) h₃
      have hosts₃ := hosts_of_block (t₃.steps.kind (kind_createScope h₂) fun h => by cases h)
      refine ⟨_, _, (first.append (.single t₂)).append (t₃.append (.expr hosts₃ h)), fun id => ?_⟩
      simp only [Expr.nodeIds, List.count_append, List.count_cons, List.count_nil]
      omega
    | matchOn node subject lines =>
      simp only [visitExpr, bind_eq_ok] at h
      obtain ⟨_, b₁, h₁, _, b₂, h₂, h⟩ := h
      have mem : node.id ∈ node.id :: lines.map (·.node.id) := List.mem_cons_self ..
      obtain ⟨first, hosts₁⟩ := entered mem h₁
      have t₂ := visitExpr_steps hosts₁ subject (List.Subset.refl _) h₂
      have sub : lines.map (·.node.id) ⊆ node.id :: lines.map (·.node.id) :=
        List.subset_cons_self ..
      obtain ⟨ids, trail, few⟩ := visitLines_trail lines sub (t₂.hosts hosts₁) h
      refine ⟨_, _, first.append ((Trail.expr hosts₁ h₂).append trail), fun id => ?_⟩
      have := few id
      simp only [Expr.nodeIds, List.count_append, List.count_cons, List.count_nil]
      omega
    | forEach node heads body =>
      simp only [visitExpr, blockScope, bind_eq_ok] at h
      obtain ⟨_, b₁, h₁, inner, b₂, h₂, _, b₃, h₃, h⟩ := h
      obtain ⟨first, hosts₁⟩ := entered (List.mem_singleton_self node.id) h₁
      have t₂ : Steps ([node.id] ++ []) b₁ b₂ :=
        (createScope_steps (by simp) (.inr rfl) hosts₁ h₂).1
      obtain ⟨ids, trail, few⟩ :=
        visitHeads_trail (List.mem_singleton_self node.id) heads (kind_createScope h₂) h₃
      have hosts₃ := hosts_of_block (trail.steps.kind (kind_createScope h₂) fun h => by cases h)
      refine ⟨_, _, (first.append (.single t₂)).append (trail.append (.expr hosts₃ h)),
        fun id => ?_⟩
      have := few id
      simp only [Expr.nodeIds, List.count_append, List.count_cons, List.count_nil]
      omega
    | tryCatch node body clause error trace handler =>
      simp only [visitExpr, blockScope, bind_eq_ok] at h
      obtain ⟨_, b₁, h₁, _, b₂, h₂, inner, b₃, h₃, _, b₄, h₄, _, b₅, h₅, h⟩ := h
      have mem : node.id ∈ [node.id, clause.id] := by simp
      obtain ⟨first, hosts₁⟩ := entered mem h₁
      have s₂ := visitExpr_steps hosts₁ body (List.Subset.refl _) h₂
      let names := (error.toList ++ trace.toList).map (·.node.id)
      have home : clause.id ∈ [node.id, clause.id] ++ names := by simp
      obtain ⟨t₃, opens₃⟩ := createScope_steps home (.inr rfl) (s₂.hosts hosts₁) h₃
      have t₄ : Steps ([node.id, clause.id] ++ names) b₃ b₄ := recordPosition_steps h₄
      have opens₄ := t₄.opens opens₃
      have t₅ := declareCaptures_steps _ (List.subset_append_right ..) opens₄ h₅
      refine ⟨_, _, (first.append (.expr hosts₁ h₂)).append
        ((Trail.single ((t₃.trans t₄).trans t₅)).append (.expr (t₅.hosts opens₄.hosts) h)),
          fun id => ?_⟩
      simp only [Expr.nodeIds, captureIds, names, List.map_append, List.count_append,
        List.count_cons, List.count_nil]
      omega
    | constant | list | dict | call | curry | ifElse | binary | unary | cast | isOf | access
    | throw =>
      cases hf

/-! ## The time of a visit -/

/-- On the way from one state to the other the expression is visited, and its nodes play no part
before or after. -/
inductive Visits (e : Expr) (b b' : Building) : Prop where
  | intro {σ : ScopeId} {c c' : Building} {before after : List NodeId} (first : Steps before b c)
    (hosts : c.Hosts σ) (run : visitExpr σ e c = .ok (⟨⟩, c')) (last : Steps after c' b')
    (early : e.nodeIds.Disjoint before) (late : e.nodeIds.Disjoint after)

namespace Visits

variable {e part : Expr}

theorem of_run {σ : ScopeId} (hosts : b.Hosts σ) (run : visitExpr σ e b = .ok (⟨⟩, b')) :
    Visits e b b' :=
  ⟨(.refl : Steps [] b b), hosts, run, (.refl : Steps [] b' b'), List.disjoint_nil_right _,
    List.disjoint_nil_right _⟩

theorem after (h : Visits e c b') (first : Steps ids b c) (apart : e.nodeIds.Disjoint ids) :
    Visits e b b' := by
  obtain ⟨first', hosts, run, last, early, late⟩ := h
  exact ⟨first.append first', hosts, run, last, List.disjoint_append_right.mpr ⟨apart, early⟩, late⟩

theorem before (h : Visits e b c) (last : Steps ids c b') (apart : e.nodeIds.Disjoint ids) :
    Visits e b b' := by
  obtain ⟨first, hosts, run, last', early, late⟩ := h
  exact ⟨first, hosts, run, last'.append last, early, List.disjoint_append_right.mpr ⟨late, apart⟩⟩

end Visits

theorem Trail.nodeIds_subset {e : Expr} (h : Trail homes ids es b b') (mem : e ∈ es) :
    e.nodeIds ⊆ ids := by
  induction h with
  | stop b => cases mem
  | step _ _ ih => exact fun id hid => List.mem_append_right _ (ih mem hid)
  | visit hosts run rest ih =>
    rcases List.mem_cons.mp mem with rfl | mem
    · exact List.subset_append_left ..
    · exact fun id hid => List.mem_append_right _ (ih mem hid)

/-- Each expression on a trail has a time of its own. -/
theorem Trail.visits {e : Expr} (h : Trail homes ids es b b') (nodup : (homes ++ ids).Nodup)
    (mem : e ∈ es) : Visits e b b' := by
  induction h with
  | stop b => cases mem
  | @step few ids _ _ _ _ first rest ih =>
    have sub := rest.nodeIds_subset mem
    simp only [List.nodup_append', List.disjoint_append_right] at nodup
    obtain ⟨homes_nodup, ⟨-, ids_nodup, apart⟩, -, apart'⟩ := nodup
    refine (ih (List.nodup_append'.mpr ⟨homes_nodup, ids_nodup, apart'⟩) mem).after first
      (List.disjoint_append_right.mpr ⟨fun id hid mem => apart' mem (sub hid),
        fun id hid mem => apart mem (sub hid)⟩)
  | @visit ids _ σ e' _ _ _ hosts run rest ih =>
    simp only [List.nodup_append', List.disjoint_append_right] at nodup
    obtain ⟨homes_nodup, ⟨-, ids_nodup, apart⟩, apart'', apart'⟩ := nodup
    rcases List.mem_cons.mp mem with rfl | mem
    · exact ⟨(.refl : Steps [] _ _), hosts, run, rest.steps, List.disjoint_nil_right _,
        List.disjoint_append_right.mpr ⟨fun id hid mem => apart'' mem hid, apart⟩⟩
    · have sub := rest.nodeIds_subset mem
      exact (ih (List.nodup_append'.mpr ⟨homes_nodup, ids_nodup, apart'⟩) mem).after
        (visitExpr_steps hosts e' (List.Subset.refl _) run) fun id hid mem => apart mem (sub hid)

end Build

/-! ## What occurs in an expression -/

theorem count_idsOfHeads (heads : List ForHead) (id : NodeId) :
    (headNodes heads).count id + (idsOfExprs (heads.map (·.expr))).count id =
      (idsOfHeads heads).count id := by
  induction heads with
  | nil => rfl
  | cons head rest ih =>
    rw [headNodes] at ih ⊢
    rw [List.map_cons, idsOfExprs, List.filterMap_cons]
    generalize idsOfExprs (rest.map (·.expr)) = ids at ih ⊢
    cases head <;>
      simp only [idsOfHeads, ForHead.expr, List.count_append, List.count_cons] <;>
      omega

theorem count_idsOfLines (lines : List MatchLine) (id : NodeId) :
    (idsOfExprs (lines.flatMap (·.exprs))).count id ≤ (idsOfLines lines).count id := by
  induction lines with
  | nil => exact Nat.le_refl _
  | cons line rest ih =>
    obtain ⟨node, pattern, guard, result⟩ := line
    have := pattern.count_le id
    rw [List.flatMap_cons, idsOfExprs_append]
    generalize idsOfExprs (rest.flatMap (·.exprs)) = ids at ih ⊢
    simp only [MatchLine.exprs, idsOfExprs_append, idsOfExprs, idsOfLines, idsOfOption_eq,
      List.count_append, List.count_cons, List.count_nil] at this ⊢
    omega

namespace Expr

/-- The node of an expression and the nodes of its parts are nodes of the expression. -/
theorem parts_subperm (e : Expr) : (e.node.id :: idsOfExprs e.children).Subperm e.nodeIds := by
  rw [List.subperm_ext_iff]
  intro id _
  cases hf : e.isFlat with
  | true => exact Nat.le_of_eq (by rw [(Build.visitExpr_flat 0 hf).2])
  | false =>
    cases e with
    | reference => exact Nat.le_refl _
    | function _ params _ _ =>
      have := (List.perm_iff_count.mp (idsOfParams_perm params)) id
      simp only [node, children, nodeIds, idsOfExprs_append, idsOfExprs, ← idsOfDefaults_eq,
        List.count_append, List.count_cons, List.count_nil] at this ⊢
      omega
    | letIn _ bindings _ =>
      have := (List.perm_iff_count.mp (idsOfVars_perm bindings)) id
      simp only [node, children, nodeIds, idsOfExprs_append, idsOfExprs, List.count_append,
        List.count_cons, List.count_nil] at this ⊢
      omega
    | matchOn _ _ lines =>
      have := count_idsOfLines lines id
      simp only [node, children, nodeIds, idsOfExprs, List.count_append, List.count_cons]
      omega
    | forEach _ heads _ =>
      have := count_idsOfHeads heads id
      simp only [node, children, nodeIds, idsOfExprs_append, idsOfExprs, List.count_append,
        List.count_cons, List.count_nil]
      omega
    | tryCatch =>
      simp only [node, children, nodeIds, idsOfExprs, List.count_append, List.count_cons,
        List.count_nil]
      omega
    | constant | list | dict | call | curry | ifElse | binary | unary | cast | isOf | access
    | throw =>
      cases hf

theorem sublist_of_mem {e : Expr} {es : List Expr} (mem : e ∈ es) :
    e.nodeIds.Sublist (idsOfExprs es) := by
  obtain ⟨first, rest, rfl⟩ := List.append_of_mem mem
  rw [idsOfExprs_append, idsOfExprs]
  exact (List.sublist_append_left ..).trans (List.sublist_append_right ..)

/-- The nodes of what occurs in an expression are nodes of the expression, each at most as often. -/
theorem Occurs.subperm {whole e : Expr} (h : whole.Occurs e) : e.nodeIds.Subperm whole.nodeIds := by
  induction h with
  | whole => exact .refl _
  | child mem _ ih =>
    exact (((sublist_of_mem mem).trans (List.sublist_cons_self ..)).subperm.trans
      (parts_subperm _)).trans ih

end Expr

theorem nodup_of_subperm {few ids : List NodeId} (h : few.Subperm ids) (nodup : ids.Nodup) :
    few.Nodup := by
  obtain ⟨l, perm, within⟩ := h
  exact perm.nodup_iff.mp (within.nodup nodup)

theorem VarDef.value_subperm {vars : List VarDef} {v : VarDef} (mem : v ∈ vars) :
    v.value.nodeIds.Subperm (idsOfVars vars) :=
  ((Expr.sublist_of_mem (List.mem_map_of_mem mem)).trans
    (List.sublist_append_right ..)).subperm.trans
    (idsOfVars_perm vars).symm.subperm

theorem SourceUnit.Contains.subperm {unit : SourceUnit} {e : Expr} (h : unit.Contains e) :
    e.nodeIds.Subperm unit.kind.nodeIds := by
  obtain ⟨g, hg, v, mem, occurs⟩ := h
  have group : (idsOfGroup g).Sublist (unit.groups.flatMap idsOfGroup) := by
    obtain ⟨first, rest, eq⟩ := List.append_of_mem hg
    rw [eq, List.flatMap_append, List.flatMap_cons]
    exact (List.sublist_append_left ..).trans (List.sublist_append_right ..)
  exact (occurs.subperm.trans (VarDef.value_subperm mem)).trans
    ((List.sublist_cons_self ..).trans (group.trans unit.groups_sublist)).subperm

namespace Build

variable {homes ids few more : List NodeId} {es others : List Expr} {b c b' : Building}

/-- **What occurs in an expression is visited when the expression is.** -/
theorem Visits.occurs {whole e : Expr} (h : Visits whole b b') (nodup : whole.nodeIds.Nodup)
    (occurs : whole.Occurs e) : Visits e b b' := by
  induction occurs with
  | whole => exact h
  | @child e part mem outer ih =>
    obtain ⟨first, hosts, run, last, early, late⟩ := ih
    obtain ⟨homes, ids, trail, few⟩ := visitExpr_trail hosts run
    have once : (homes ++ ids).Nodup := List.nodup_iff_count.mpr fun id => by
      rw [List.count_append]
      exact Nat.le_trans (few id)
        (List.nodup_iff_count.mp (nodup_of_subperm outer.subperm nodup) id)
    have sub : part.nodeIds ⊆ e.nodeIds := (Expr.Occurs.child mem .whole).subperm.subset
    exact ((trail.visits once mem).after first fun id hid mem => early (sub hid) mem).before last
      fun id hid mem => late (sub hid) mem

/-! ## Visiting units -/

/-- The expression is visited between two states, or passed over: then its nodes play no part. -/
def Meets (e : Expr) (b b' : Building) : Prop :=
  Visits e b b' ∨ ∃ ids, Steps ids b b' ∧ e.nodeIds.Disjoint ids

namespace Meets

variable {e : Expr}

theorem after (h : Meets e c b') (first : Steps ids b c) (apart : e.nodeIds.Disjoint ids) :
    Meets e b b' := by
  rcases h with h | ⟨more, steps, apart'⟩
  · exact .inl (h.after first apart)
  · exact .inr ⟨_, first.append steps, List.disjoint_append_right.mpr ⟨apart, apart'⟩⟩

theorem before (h : Meets e b c) (last : Steps ids c b') (apart : e.nodeIds.Disjoint ids) :
    Meets e b b' := by
  rcases h with h | ⟨more, steps, apart'⟩
  · exact .inl (h.before last apart)
  · exact .inr ⟨_, steps.append last, List.disjoint_append_right.mpr ⟨apart', apart⟩⟩

theorem occurs {whole e : Expr} (h : Meets whole b b') (nodup : whole.nodeIds.Nodup)
    (occurs : whole.Occurs e) : Meets e b b' :=
  h.imp (fun h => h.occurs nodup occurs) fun ⟨ids, steps, apart⟩ =>
    ⟨ids, steps, fun _ hid => apart (occurs.subperm.subset hid)⟩

end Meets

/-- The values of definitions are visited after all of them have been declared. -/
theorem visitVars_visits {n : NodeId} {σ : ScopeId} {s : SymbolId} {vars : List VarDef}
    (member : b.MembersOf n σ s) (nodup : (n :: idsOfVars vars).Nodup)
    (h : visitVars σ vars b = .ok (⟨⟩, b')) {v : VarDef} (mem : v ∈ vars) :
    Visits v.value b b' := by
  simp only [visitVars, visitValues_eq, bind_eq_ok] at h
  obtain ⟨_, b₁, h₁, h⟩ := h
  have opens : b.Opens ([n] ++ vars.map (·.node.id)) σ := opens_of_members (by simp) member
  have s₁ := declareVars_steps vars (List.subset_append_right ..) opens h₁
  have trail := (Trail.single s₁).append (.exprs (s₁.hosts opens.hosts) h)
  refine trail.visits ?_ (List.mem_map_of_mem mem)
  rwa [List.singleton_append, ((idsOfVars_perm vars).symm.cons n).nodup_iff]

/-- What occurs in a group is visited with the group, or the group is passed over. -/
theorem Groups.meets {n : NodeId} {groups : List (Node × List VarDef)} (h : Groups n groups b b')
    (nodup : (n :: groups.flatMap idsOfGroup).Nodup) {g : Node × List VarDef} (hg : g ∈ groups)
    {v : VarDef} (mem : v ∈ g.2) : Meets v.value b b' := by
  have after : ∀ {rest : List (Node × List VarDef)} {c c' : Building}, Groups n rest c c' →
      Steps (n :: rest.flatMap idsOfGroup) c c' := fun others =>
    others.steps (List.mem_cons_self ..) fun g hg id hid =>
      List.mem_cons_of_mem _ (List.mem_flatMap.mpr ⟨g, hg, hid⟩)
  induction h with
  | nil b => cases hg
  | @skip node vars rest b c b' first others ih =>
    rw [List.flatMap_cons, List.nodup_cons, List.mem_append, not_or, List.nodup_append'] at nodup
    obtain ⟨⟨outside, outside'⟩, nodup, nodup', apart⟩ := nodup
    rcases List.mem_cons.mp hg with rfl | hg
    · have sub : v.value.nodeIds ⊆ idsOfGroup (node, vars) :=
        fun id hid => List.mem_cons_of_mem _ ((VarDef.value_subperm mem).subset hid)
      refine .inr ⟨_, first.append (after others), fun id hid later => ?_⟩
      simp only [List.cons_append, List.nil_append, List.mem_cons] at later
      rcases later with rfl | rfl | rfl | later
      · exact outside (sub hid)
      · exact (List.nodup_cons.mp nodup).1 ((VarDef.value_subperm mem).subset hid)
      · exact outside (sub hid)
      · exact apart (sub hid) later
    · have sub : v.value.nodeIds ⊆ rest.flatMap idsOfGroup := fun id hid =>
        List.mem_flatMap.mpr ⟨g, hg, List.mem_cons_of_mem _ ((VarDef.value_subperm mem).subset hid)⟩
      refine (ih (List.nodup_cons.mpr ⟨outside', nodup'⟩) hg).after first fun id hid earlier => ?_
      simp only [List.mem_cons, List.not_mem_nil, or_false] at earlier
      rcases earlier with rfl | rfl
      · exact outside' (sub hid)
      · exact apart (List.mem_cons_self ..) (sub hid)
  | @visit node vars rest b c c' b' scope symbol first member run others ih =>
    rw [List.flatMap_cons, List.nodup_cons, List.mem_append, not_or, List.nodup_append'] at nodup
    obtain ⟨⟨outside, outside'⟩, nodup, nodup', apart⟩ := nodup
    have visit : Steps (idsOfGroup (node, vars)) c c' := visitVars_steps (List.subset_cons_self ..)
      (opens_of_members (List.mem_cons_self ..) member) run
    rcases List.mem_cons.mp hg with rfl | hg
    · have sub := (VarDef.value_subperm mem).subset
      refine .inl (((visitVars_visits member nodup run mem).after first fun id hid earlier =>
        ?_).before
        (after others) fun id hid later => ?_)
      · simp only [List.mem_cons, List.not_mem_nil, or_false] at earlier
        rcases earlier with rfl | rfl
        · exact outside (List.mem_cons_of_mem _ (sub hid))
        · exact (List.nodup_cons.mp nodup).1 (sub hid)
      · rcases List.mem_cons.mp later with rfl | later
        · exact outside (List.mem_cons_of_mem _ (sub hid))
        · exact apart (List.mem_cons_of_mem _ (sub hid)) later
    · have sub : v.value.nodeIds ⊆ rest.flatMap idsOfGroup := fun id hid =>
        List.mem_flatMap.mpr ⟨g, hg, List.mem_cons_of_mem _ ((VarDef.value_subperm mem).subset hid)⟩
      refine ((ih (List.nodup_cons.mpr ⟨outside', nodup'⟩) hg).after visit
        fun id hid earlier => apart earlier (sub hid)).after first fun id hid earlier => ?_
      simp only [List.mem_cons, List.not_mem_nil, or_false] at earlier
      rcases earlier with rfl | rfl
      · exact outside' (sub hid)
      · exact apart (List.mem_cons_self ..) (sub hid)

/-- A unit declares its groups between its imports and its exports. -/
theorem visitUnit_groups {unit : SourceUnit} {symbol : SymbolId} (formed : Formed b)
    (housed : Housed b unit symbol) (h : (match unit.kind with
      | .module m => visitModule m symbol
      | .interactive sections => visitInteractive sections symbol) b = .ok (⟨⟩, b')) :
    ∃ before after c c', Steps (unit.node.id :: before) b c ∧ Groups unit.node.id unit.groups c c' ∧
      Steps (unit.node.id :: after) c' b' ∧
      unit.kind.nodeIds = before ++ unit.groups.flatMap idsOfGroup ++ after := by
  obtain ⟨scope, hm⟩ := Option.isSome_iff_exists.mp housed.members
  have member := formed.membersOf hm
  rw [housed.node] at member
  have target := housed.target
  cases hk : unit.kind with
  | module m =>
    rw [hk] at target
    obtain ⟨exports, he⟩ := Option.isSome_iff_exists.mp (housed.exports m hk)
    have exported := formed.arena.exports symbol exports he
    simp only [hk, visitModule, bind_eq_ok, get_eq_ok] at h
    obtain ⟨_, _, ⟨rfl, rfl⟩, h⟩ := h
    simp only [hm, he, bind_eq_ok] at h
    obtain ⟨_, b₁, h₁, _, b₂, h₂, _, b₃, h₃, h⟩ := h
    have own : ∀ {ids : List NodeId}, unit.node.id ∈ unit.node.id :: ids := List.mem_cons_self ..
    have s₁ : Steps (unit.node.id :: m.imports.flatMap Import.nodeIds) b b₁ :=
      declareImports_steps m.imports (List.subset_cons_self ..) own member target h₁
    have s₂ : Steps (unit.node.id :: m.aliases.map (·.node.id)) b₁ b₂ :=
      declareAliases_steps m.aliases (List.subset_cons_self ..) own (s₁.membersOf member)
        ((s₁.target member.known).trans target) h₂
    have s₁₂ : Steps (unit.node.id :: (m.imports.flatMap Import.nodeIds ++
        m.aliases.map (·.node.id))) b b₂ := (s₁.mono (by simp)).trans (s₂.mono (by simp))
    have member₂ := s₁₂.membersOf member
    have exported₂ := s₁₂.kind exported fun h => by cases h
    have groups := visitLibraries_groups m.libraries member₂ exported₂ h₃
    have s₃ : Steps (unit.node.id :: m.libraries.flatMap Library.nodeIds) b₂ b₃ :=
      visitLibraries_steps m.libraries (List.subset_cons_self ..) own member₂ exported₂ h₃
    have s₄ : Steps (unit.node.id :: m.exports.map (·.node.id)) b₃ b' :=
      declareExports_steps m.exports (List.subset_cons_self ..) (s₃.membersOf member₂)
        ((s₃.target member₂.known).trans ((s₁₂.target member.known).trans target))
        (s₃.kind exported₂ fun h => by cases h) h
    refine ⟨_, _, b₂, b₃, s₁₂, by rwa [SourceUnit.groups, hk], s₄, ?_⟩
    rw [SourceUnit.groups, hk, UnitKind.nodeIds, Module.nodeIds]
    simp only [List.flatMap_map]
    rfl
  | interactive sections =>
    simp only [hk, visitInteractive, bind_eq_ok, get_eq_ok] at h
    obtain ⟨_, _, ⟨rfl, rfl⟩, h⟩ := h
    simp only [hm] at h
    rw [hk] at target
    refine ⟨[], [], _, _, .refl, ?_, .refl, ?_⟩
    · rw [SourceUnit.groups, hk]
      exact visitSections_groups sections member target (.inl ((formed.arena.units _).mpr rfl)) h
    · rw [SourceUnit.groups, hk, UnitKind.nodeIds, List.append_nil, List.nil_append]
      simp only [List.flatMap_map]
      rfl

/-- What occurs in a unit is visited with the unit, or its group is passed over. -/
theorem visitUnit_meets {unit : SourceUnit} {symbol : SymbolId} {e : Expr} (formed : Formed b)
    (housed : Housed b unit symbol) (nodup : unit.nodeIds.Nodup) (contains : unit.Contains e)
    (h : (match unit.kind with
      | .module m => visitModule m symbol
      | .interactive sections => visitInteractive sections symbol) b = .ok (⟨⟩, b')) :
    Meets e b b' := by
  obtain ⟨g, hg, v, mem, occurs⟩ := contains
  have value : unit.Contains v.value := ⟨g, hg, v, mem, .whole⟩
  have once := nodup_of_subperm value.subperm (List.nodup_cons.mp nodup).2
  obtain ⟨before, after, c, c', first, groups, last, nodes⟩ := visitUnit_groups formed housed h
  rw [SourceUnit.nodeIds, nodes, List.nodup_cons, List.nodup_append', List.nodup_append',
    List.disjoint_append_left] at nodup
  simp only [List.mem_append, not_or] at nodup
  obtain ⟨⟨⟨-, outside⟩, -⟩, ⟨-, nodup, early⟩, -, -, late⟩ := nodup
  have sub : v.value.nodeIds ⊆ unit.groups.flatMap idsOfGroup := fun id hid =>
    List.mem_flatMap.mpr ⟨g, hg, List.mem_cons_of_mem _ ((VarDef.value_subperm mem).subset hid)⟩
  have apart : ∀ {others : List NodeId}, (unit.groups.flatMap idsOfGroup).Disjoint others →
      v.value.nodeIds.Disjoint (unit.node.id :: others) := fun h =>
    List.disjoint_cons_right.mpr ⟨fun hid => outside (sub hid), fun _ hid => h (sub hid)⟩
  have meets := ((groups.meets (List.nodup_cons.mpr ⟨outside, nodup⟩) hg mem).after first
    (apart (List.disjoint_comm.mp early))).before last (apart late)
  exact meets.occurs once occurs

theorem visitUnits_meets {e : Expr} {unit : SourceUnit} (pairs : List (SourceUnit × SymbolId))
    (formed : Formed b) (housed : ∀ pair ∈ pairs, Housed b pair.1 pair.2)
    (nodup : (pairs.flatMap fun pair => pair.1.nodeIds).Nodup) (contains : unit.Contains e)
    (mem : unit ∈ pairs.map (·.1)) (h : visitUnits pairs b = .ok (⟨⟩, b')) : Meets e b b' := by
  induction pairs generalizing b with
  | nil => cases mem
  | cons pair rest ih =>
    obtain ⟨first, symbol⟩ := pair
    obtain ⟨b₁, h₁, h⟩ := visitUnits_cons h
    have here := visitUnit_steps formed (housed _ (List.mem_cons_self ..)) h₁
    have formed₁ := here.formed formed
    have housed₁ : ∀ pair ∈ rest, Housed b₁ pair.1 pair.2 :=
      fun pair hp => (housed pair (List.mem_cons_of_mem _ hp)).stays here
    have there : Steps (rest.flatMap fun pair => pair.1.nodeIds) b₁ b' := visitUnits_steps rest
      (fun pair hp id hid => List.mem_flatMap.mpr ⟨pair, hp, hid⟩) formed₁ housed₁ h
    rw [List.flatMap_cons, List.nodup_append'] at nodup
    obtain ⟨nodupUnit, nodupRest, apart⟩ := nodup
    rcases List.mem_cons.mp mem with rfl | mem
    · exact (visitUnit_meets formed (housed _ (List.mem_cons_self ..)) nodupUnit contains h₁).before
        there fun id hid later => apart (List.mem_cons_of_mem _ (contains.subperm.subset hid)) later
    · obtain ⟨pair, hp, rfl⟩ := List.mem_map.mp mem
      exact (ih formed₁ housed₁ nodupRest mem h).after here fun id hid earlier =>
        apart earlier (List.mem_flatMap.mpr ⟨pair, hp,
          List.mem_cons_of_mem _ (contains.subperm.subset hid)⟩)

end Build

/-- **The first pass visits every expression of the program once, or passes it over** since the name
of its unit, library or section is taken. Its nodes play no part at any other time. -/
theorem buildScopes_meets {recovery : Bool} {units : UnitSet} {a : Analysis}
    {pending : List PendingReference} (numbered : units.Numbered)
    (h : buildScopes recovery units = .ok (a, pending)) :
    ∃ b, a = { b.analysis with positions := b.analysis.positions.reverse } ∧
      pending = b.pending.reverse ∧ ∀ e, units.Contains e → Build.Meets e (.start recovery) b := by
  obtain ⟨pairs, b₁, b, u, h₁, h₂, rfl, rfl⟩ := Build.pass_eq_ok h
  have formed := Building.formed_start recovery
  have knownGlobal : (Building.start recovery).HasScope Analysis.globalScope := by
    show 0 < 2
    decide
  obtain ⟨s₁, hpairs⟩ := Build.declareUnits_steps units (List.Subset.refl _) formed knownGlobal rfl
    (Building.onlyUnits_start _) h₁
  have formed₁ := s₁.formed formed
  have housed : ∀ pair ∈ pairs, Build.Housed b₁ pair.1 pair.2 := fun pair hp => (hpairs pair hp).2
  obtain ⟨few, -⟩ := Build.declareUnits_owners units h₁
  obtain ⟨nodup, -⟩ := declareUnits_waiting numbered s₁ few
  refine ⟨b, rfl, rfl, fun e ⟨unit, hu, contains⟩ => ?_⟩
  have early : e.nodeIds.Disjoint (Build.unitKeys units) := fun id hid key =>
    numbered.apart hu key (contains.subperm.subset hid)
  by_cases mem : unit ∈ pairs.map (·.1)
  · exact (Build.visitUnits_meets pairs formed₁ housed nodup contains mem h₂).after s₁ early
  · -- The unit was not declared: no other unit shares a node with it.
    have s₂ : Build.Steps (pairs.flatMap fun pair => pair.1.nodeIds) b₁ b :=
      Build.visitUnits_steps pairs
      (fun pair hp id hid => List.mem_flatMap.mpr ⟨pair, hp, hid⟩) formed₁ housed h₂
    refine .inr ⟨_, s₁.append s₂, List.disjoint_append_right.mpr ⟨early, fun id hid later => ?_⟩⟩
    obtain ⟨pair, hp, later⟩ := List.mem_flatMap.mp later
    have other : pair.1 ≠ unit := fun same => mem (List.mem_map.mpr ⟨pair, hp, same⟩)
    exact numbered.disjoint (hpairs pair hp).1 hu other later
      (List.mem_cons_of_mem _ (contains.subperm.subset hid))

end CellScript
