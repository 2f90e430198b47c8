import CellScript.Proofs.Linking.Program
import CellScript.Proofs.Scope.Exact
import CellScript.Proofs.Scope.Visits

/-!
# References before definitions

The names of a block are introduced one after the other. A reference that finds one of them is
rejected exactly if the name is introduced after the reference, in the order of the program text.
The first pass notes with each reference how many symbols there were; the scopes inside a block
declare symbols too, but never among those of the block, so the number tells the earlier names of
the block from the later ones.

* `ForHead.Follows` — the name of a head is introduced after the expression of another one
* `Build.visitHeads_window` — the names of a block before and after one of its expressions
* `analyze_order` — which references are rejected, in a whole program
-/

namespace CellScript

/-! ## Blocks -/

/-- The head of a comprehension that introduces a name as a binding does. -/
def VarDef.head (v : VarDef) : ForHead := .definition v.node v.name v.ty v.value

/-- The node, the heads and the body of a block that introduces its names in order. A binding
introduces its name as a definition in a comprehension does. -/
def Expr.block? : Expr → Option (Node × List ForHead × Expr)
  | .letIn node bindings body => some (node, bindings.map VarDef.head, body)
  | .forEach node heads body => some (node, heads, body)
  | _ => none

namespace ForHead

/-- What a head declares before its own expression. -/
def before? : ForHead → Option Declaration
  | .definition node name ty _ => some (.var name ty node)
  | .generator _ _ _ _ | .condition _ => none

/-- What a head declares after its own expression. -/
def after? : ForHead → Option Declaration
  | .generator node name ty _ => some (.var name ty node)
  | .definition _ _ _ _ | .condition _ => none

/-- What a head declares. -/
def declaration? (head : ForHead) : Option Declaration := head.before?.or head.after?

def isGenerator : ForHead → Bool
  | .generator _ _ _ _ => true
  | .definition _ _ _ _ | .condition _ => false

variable {head : ForHead} {d : Declaration}

theorem var_of_before (head : ForHead) (h : head.before? = some d) :
    ∃ name ty node, d = .var name ty node := by
  cases head <;> cases h
  exact ⟨_, _, _, rfl⟩

theorem var_of_after (head : ForHead) (h : head.after? = some d) :
    ∃ name ty node, d = .var name ty node := by
  cases head <;> cases h
  exact ⟨_, _, _, rfl⟩

theorem declaration_of_before (head : ForHead) (h : head.before? = some d) :
    head.declaration? = some d := by
  rw [declaration?, h]
  rfl

theorem declaration_of_after (head : ForHead) (h : head.after? = some d) :
    head.declaration? = some d := by
  cases head <;> cases h
  rfl

theorem direct_of_declaration (head : ForHead) (h : head.declaration? = some d) :
    d.binding = .direct ∧ d.target = .var := by
  cases head <;> cases h <;> exact ⟨rfl, rfl⟩

/-- The head at index `j` introduces its name after the expression of the head at index `i`. The
source of a generator comes before its name. -/
def Follows (head : ForHead) (j i : Nat) : Prop := i < j ∨ i = j ∧ head.isGenerator = true

end ForHead

/-- An expression stands in a block, in the head with an index or else in the body. -/
inductive Within (heads : List ForHead) (body e : Expr) : Option Nat → Prop where
  | head {i : Nat} {head : ForHead} (here : heads[i]? = some head) (occurs : head.expr.Occurs e) :
    Within heads body e (some i)
  | body (occurs : body.Occurs e) : Within heads body e none

theorem idsOfHeads_bindings (bindings : List VarDef) :
    idsOfHeads (bindings.map VarDef.head) = idsOfVars bindings := by
  induction bindings with
  | nil => rfl
  | cons v rest ih =>
    obtain ⟨node, name, ty, e⟩ := v
    rw [List.map_cons, VarDef.head, idsOfHeads, ih]
    rfl

theorem Expr.nodeIds_block (e : Expr) {node : Node} {heads : List ForHead} {body : Expr}
    (block : e.block? = some (node, heads, body)) :
    e.nodeIds = node.id :: (idsOfHeads heads ++ body.nodeIds) := by
  cases e <;> cases block
  · rw [Expr.nodeIds, idsOfHeads_bindings]
  · rw [Expr.nodeIds]

theorem ForHead.expr_subperm {heads : List ForHead} {head : ForHead} (mem : head ∈ heads) :
    head.expr.nodeIds.Subperm (idsOfHeads heads) :=
  (Expr.sublist_of_mem (List.mem_map_of_mem mem)).subperm.trans
    (List.subperm_ext_iff.mpr fun id _ =>
      Nat.le_trans (Nat.le_add_left ..) (Nat.le_of_eq (count_idsOfHeads heads id)))

namespace Build

variable {ids : List NodeId} {b c b' : Building} {n : NodeId} {σ : ScopeId}

/-- Declares a name, if there is one. -/
def introduce (scope : ScopeId) : Option Declaration → Build PUnit
  | none => pure ⟨⟩
  | some d => do
    let _ ← declare scope d
    pure ⟨⟩

theorem visitHeads_cons (σ : ScopeId) (head : ForHead) (rest : List ForHead) :
    visitHeads σ (head :: rest) = (do
      introduce σ head.before?
      visitExpr σ head.expr
      introduce σ head.after?
      visitHeads σ rest) := by
  cases head <;>
    simp only [visitHeads, ForHead.before?, ForHead.after?, ForHead.expr, introduce,
      pure_bind, bind_assoc]

theorem visitHeads_append (σ : ScopeId) (heads rest : List ForHead) :
    visitHeads σ (heads ++ rest) = visitHeads σ heads >>= fun _ => visitHeads σ rest := by
  induction heads with
  | nil => rfl
  | cons head heads ih => simp only [List.cons_append, visitHeads_cons, ih, bind_assoc]

/-- Bindings are visited as definitions are. -/
theorem visitBindings_eq (σ : ScopeId) (vars : List VarDef) :
    visitBindings σ vars = visitHeads σ (vars.map VarDef.head) := by
  induction vars with
  | nil => rfl
  | cons v rest ih =>
    obtain ⟨node, name, ty, e⟩ := v
    rw [visitBindings, ih]
    rfl

theorem Steps.size_symbols_le (s : Steps ids b b') : b.arena.symbols.size ≤ b'.arena.symbols.size :=
  Nat.le_of_not_lt fun h => Nat.lt_irrefl _ (s.sameSymbol h).1

/-! ## Names introduced between two states -/

/-- Steps between two states under which the scope of a node has got only names of declarations with
a property, for symbols declared in between. -/
structure Introduces (n : NodeId) (σ : ScopeId) (P : Declaration → Prop)
    (b b' : Building) : Prop where
  steps : ∃ ids, Steps ids b b'
  names : ∀ name s, (b'.arena.scope σ).get? name = some s →
    (b.arena.scope σ).get? name = some s ∨ b.arena.symbols.size ≤ s ∧ s < b'.arena.symbols.size ∧
      (b'.arena.symbol s).name = name ∧ P (b'.arena.symbol s).toDeclaration
  created : b'.analysis.createdScopes.get? n = b.analysis.createdScopes.get? n

namespace Introduces

variable {P Q : Declaration → Prop}

theorem of_steps (block : (b.arena.scope σ).kind = .block n) (s : Steps ids b b')
    (absent : n ∉ ids) :
    Introduces n σ P b b' := by
  refine ⟨⟨ids, s⟩, fun name t found => .inl ?_, (s.sameEntries absent).created⟩
  rwa [s.dynamicScope (.inr block) absent] at found

theorem mono (h : Introduces n σ P b b') (weaker : ∀ d, P d → Q d) : Introduces n σ Q b b' :=
  ⟨h.steps, fun name s found => (h.names name s found).imp_right fun ⟨new, known, called, p⟩ =>
    ⟨new, known, called, weaker _ p⟩, h.created⟩

theorem trans (h : Introduces n σ P b c) (h' : Introduces n σ P c b') : Introduces n σ P b b' := by
  obtain ⟨ids, first⟩ := h.steps
  obtain ⟨more, last⟩ := h'.steps
  refine ⟨⟨_, first.append last⟩, fun name s found => ?_, h'.created.trans h.created⟩
  rcases h'.names name s found with old | ⟨new, known, called, p⟩
  · refine (h.names name s old).imp_right fun ⟨new, known, called, p⟩ => ?_
    obtain ⟨known', same⟩ := last.sameSymbol known
    rw [same.declaration]
    exact ⟨new, known', called, p⟩
  · exact .inr ⟨Nat.le_trans first.size_symbols_le new, known, called, p⟩

theorem kind (h : Introduces n σ P b b') (block : (b.arena.scope σ).kind = .block n) :
    (b'.arena.scope σ).kind = .block n := by
  obtain ⟨ids, s⟩ := h.steps
  exact s.kind block fun h => by cases h

theorem declare {name : String} {ty : Ty} {node : Node} {id? : Option SymbolId}
    (block : (b.arena.scope σ).kind = .block n)
    (h : Build.declare σ (.var name ty node) b = .ok (id?, b')) :
    Introduces n σ (· = .var name ty node) b b' := by
  have known := (hosts_of_block block).1
  have steps : Steps [n, node.id] b b' :=
    declareVar_steps (by simp) (opens_of_dynamic (by simp) (.inr block)) h
  simp only [Build.declare, bind_eq_ok, get_eq_ok] at h
  obtain ⟨_, _, ⟨rfl, rfl⟩, h⟩ := h
  cases hd : b.analysis.arena.declare σ (.var name ty node) with
  | ok p =>
    obtain ⟨id, arena⟩ := p
    simp only [hd, bind_eq_ok, modifyAnalysis_eq_ok, pure_eq_ok] at h
    rw [Arena.declare_eq_ok_iff] at hd
    obtain ⟨-, rfl, rfl⟩ := hd
    obtain ⟨_, b₁, rfl, _, b₂, position, rfl, rfl⟩ := h
    obtain ⟨-, created, -, arena⟩ := tables_recordPosition position
    refine ⟨⟨_, steps⟩, fun other s found => ?_, by rw [created]; rfl⟩
    change b₂.arena = b.arena.withDeclared σ (.var name ty node) at arena
    rw [arena, Arena.get?_withDeclared known] at found
    split at found
    · next same =>
      cases found
      rw [arena, Arena.size_symbols_withDeclared, Arena.symbol_withDeclared, if_pos rfl]
      exact .inr ⟨Nat.le_refl _, Nat.lt_succ_self _, same, rfl⟩
    · exact .inl found
  | error fault =>
    simp only [hd, bind_eq_ok, pure_eq_ok] at h
    obtain ⟨_, _, reported, -, rfl⟩ := h
    obtain ⟨-, reports⟩ : _ ∧ Steps [] b _ := report_steps reported
    exact .of_steps block reports List.not_mem_nil

end Introduces

theorem introduce_introduces {d? : Option Declaration}
    (var : ∀ d, d? = some d → ∃ name ty node, d = .var name ty node)
    (block : (b.arena.scope σ).kind = .block n) (h : introduce σ d? b = .ok (⟨⟩, b')) :
    Introduces n σ (fun d => d? = some d) b b' := by
  cases d? with
  | none =>
    rw [introduce, pure_eq_ok] at h
    obtain ⟨-, rfl⟩ := h
    exact .of_steps block (.refl : Steps [] _ _) List.not_mem_nil
  | some d =>
    obtain ⟨name, ty, node, rfl⟩ := var d rfl
    simp only [introduce, bind_eq_ok, pure_eq_ok] at h
    obtain ⟨_, _, declared, -, rfl⟩ := h
    exact (Introduces.declare block declared).mono fun d same => by rw [same]

/-- The heads, at any index, declare names with a property. -/
def DeclaredBy (heads : List ForHead) (P : Nat → ForHead → Prop) (d : Declaration) : Prop :=
  ∃ j head, heads[j]? = some head ∧ head.declaration? = some d ∧ P j head

theorem visitHeads_introduces {heads : List ForHead}
    (outside : ∀ head ∈ heads, n ∉ head.expr.nodeIds) (block : (b.arena.scope σ).kind = .block n)
    (h : visitHeads σ heads b = .ok (⟨⟩, b')) :
    Introduces n σ (DeclaredBy heads fun j _ => j < heads.length) b b' := by
  induction heads generalizing b with
  | nil =>
    rw [visitHeads, pure_eq_ok] at h
    exact h.2 ▸ .of_steps block (.refl : Steps [] _ _) List.not_mem_nil
  | cons head rest ih =>
    rw [List.forall_mem_cons] at outside
    simp only [visitHeads_cons, bind_eq_ok] at h
    obtain ⟨_, b₁, h₁, _, b₂, h₂, _, b₃, h₃, h⟩ := h
    have first := introduce_introduces (fun d => head.var_of_before) block h₁
    have block₁ := first.kind block
    have value := visitExpr_steps (hosts_of_block block₁) head.expr (List.Subset.refl _) h₂
    have block₂ := value.kind block₁ fun h => by cases h
    have last := introduce_introduces (fun d => head.var_of_after) block₂ h₃
    have others := ih outside.2 (last.kind block₂) h
    refine (first.mono fun d hd => ⟨0, head, rfl, head.declaration_of_before hd,
      Nat.succ_pos _⟩).trans
      (.trans (.of_steps block₁ value outside.1)
        (.trans (last.mono fun d hd => ⟨0, head, rfl, head.declaration_of_after hd, Nat.succ_pos _⟩)
          (others.mono ?_)))
    rintro d ⟨j, other, here, declares, lt⟩
    exact ⟨j + 1, other, here, declares, Nat.succ_lt_succ lt⟩

/-- **Around the expression of a head, the names that follow are introduced after it, the others
before.** -/
theorem visitHeads_window {first rest : List ForHead} {head : ForHead}
    (outside : ∀ other ∈ first ++ head :: rest, n ∉ other.expr.nodeIds)
    (block : (b.arena.scope σ).kind = .block n)
    (h : visitHeads σ (first ++ head :: rest) b = .ok (⟨⟩, b')) : ∃ c c',
      Introduces n σ (DeclaredBy (first ++ head :: rest) fun j other =>
        ¬other.Follows j first.length) b c ∧
      (c.arena.scope σ).kind = .block n ∧ visitExpr σ head.expr c = .ok (⟨⟩, c') ∧
      Introduces n σ (DeclaredBy (first ++ head :: rest) fun j other =>
        other.Follows j first.length)
        c' b' := by
  simp only [List.mem_append, List.mem_cons, or_imp, forall_and, forall_eq] at outside
  obtain ⟨outside₁, outside₂, outside₃⟩ := outside
  simp only [visitHeads_append, visitHeads_cons, bind_eq_ok] at h
  obtain ⟨_, b₁, h₁, _, c, hc, _, c', hc', _, b₂, h₂, h⟩ := h
  have early := visitHeads_introduces outside₁ block h₁
  have block₁ := early.kind block
  have own := introduce_introduces (fun d => head.var_of_before) block₁ hc
  have blockC := own.kind block₁
  have blockC' :=
    (visitExpr_steps (hosts_of_block blockC) head.expr (List.Subset.refl _) hc').kind blockC
    fun h => by cases h
  have own' := introduce_introduces (fun d => head.var_of_after) blockC' h₂
  have late := visitHeads_introduces outside₃ (own'.kind blockC') h
  have here : (first ++ head :: rest)[first.length]? = some head := by simp
  refine ⟨c, c', .trans (early.mono ?_) (own.mono fun d hd => ?_), blockC, hc',
    .trans (own'.mono fun d hd => ?_) (late.mono ?_)⟩
  · rintro d ⟨j, other, there, declares, lt⟩
    refine ⟨j, other, by rwa [List.getElem?_append_left lt], declares, fun follows => ?_⟩
    rcases follows with later | ⟨same, -⟩ <;> omega
  · refine ⟨_, head, here, head.declaration_of_before hd, fun follows => ?_⟩
    rcases follows with later | ⟨-, generator⟩
    · exact Nat.lt_irrefl _ later
    · cases head <;> cases hd
      cases generator
  · refine ⟨_, head, here, head.declaration_of_after hd, .inr ⟨rfl, ?_⟩⟩
    cases head <;> cases hd
    rfl
  · rintro d ⟨j, other, there, declares, -⟩
    refine ⟨first.length + (j + 1), other, ?_, declares, .inl (by omega)⟩
    rw [List.getElem?_append_right (Nat.le_add_right _ _), Nat.add_sub_cancel_left]
    exact there

/-! ## References that wait -/

/-- A reference that is visited waits, and no other one waits for its node. -/
theorem Visits.awaits {node : Node} {r : Reference} (h : Visits (.reference node r) b b') :
    ∃ p ∈ b'.pending, p.node = node ∧ p.reference = r ∧
      b.arena.symbols.size ≤ p.visible ∧ p.visible ≤ b'.arena.symbols.size ∧
      b'.analysis.nodeScopes.get? node.id = some p.scope ∧
      ∀ q ∈ b'.pending, q.node.id = node.id → q = p ∨ q ∈ b.pending := by
  obtain ⟨first, hosts, run, last, early, late⟩ := h
  simp only [Expr.nodeIds, List.disjoint_cons_left] at early late
  simp only [visitExpr, bind_eq_ok] at run
  obtain ⟨_, c, entered, run⟩ := run
  obtain ⟨pending, standing⟩ := pending_enter entered
  have step : Steps [node.id] _ c := enter_steps (List.mem_singleton.mpr rfl) entered
  have visible := (first.append step).size_symbols_le
  cases run
  refine ⟨_, last.pending.1 (List.mem_cons_self ..), rfl, rfl, visible, last.size_symbols_le, ?_,
    fun q hq same => ?_⟩
  · rw [(last.sameEntries late.1).nodeScope]
    exact standing
  · rcases last.pending.2 hq with hq | hq
    · rcases List.mem_cons.mp hq with rfl | hq
      · exact .inl rfl
      · rw [pending] at hq
        exact .inr ((first.pending.2 hq).resolve_right (same ▸ early.1))
    · exact absurd hq (same ▸ late.1)

/-! ## References in a block -/

theorem visitExpr_block {e : Expr} {node : Node} {heads : List ForHead} {body : Expr}
    (block : e.block? = some (node, heads, body)) (σ : ScopeId) : visitExpr σ e = (do
      enter node σ
      let inner ← createScope node.id (.block node.id) σ true
      visitHeads inner heads
      visitExpr inner body) := by
  cases e <;> cases block
  · simp only [visitExpr, blockScope, visitBindings_eq]
  · simp only [visitExpr, blockScope]

/-- What the first pass has found out about a reference in a block: the names of the block that come
after the reference are those of the heads that follow the place where it stands. -/
structure Orders (heads : List ForHead) (place : Option Nat) (n : NodeId) (inner : ScopeId)
    (p : PendingReference) (b : Building) : Prop where
  created : b.analysis.createdScopes.get? n = some inner
  kind : (b.arena.scope inner).kind = .block n
  ordered : (b.arena.scope inner).ordered = true
  waits : p ∈ b.pending
  names : ∀ name s, (b.arena.scope inner).get? name = some s → s < b.arena.symbols.size ∧
    (b.arena.symbol s).name = name ∧
    DeclaredBy heads (fun j head => p.visible ≤ s ↔ ∃ i ∈ place, head.Follows j i)
      (b.arena.symbol s).toDeclaration

theorem Orders.stays {heads : List ForHead} {place : Option Nat} {inner : ScopeId}
    {p : PendingReference} (h : Orders heads place n inner p b) (s : Steps ids b b')
    (absent : n ∉ ids) :
    Orders heads place n inner p b' := by
  have same := s.dynamicScope (.inr h.kind) absent
  refine ⟨(s.sameEntries absent).created.trans h.created, same ▸ h.kind, same ▸ h.ordered,
    s.pending.1 h.waits, fun name t found => ?_⟩
  rw [same] at found
  obtain ⟨known, called, declared⟩ := h.names name t found
  obtain ⟨known', sameSymbol⟩ := s.sameSymbol known
  rw [sameSymbol.declaration]
  exact ⟨known', called, declared⟩

/-- **Visiting a block tells the names before a reference in it from those after it.** -/
theorem visitExpr_orders {e : Expr} {node : Node} {heads : List ForHead} {body : Expr}
    (block : e.block? = some (node, heads, body)) (nodup : e.nodeIds.Nodup)
    (h : visitExpr σ e b = .ok (⟨⟩, b')) {rnode : Node} {r : Reference} {place : Option Nat}
    (within : Within heads body (.reference rnode r) place) :
    ∃ inner p, Orders heads place node.id inner p b' ∧ p.node = rnode := by
  rw [e.nodeIds_block block, List.nodup_cons, List.mem_append, not_or, List.nodup_append'] at nodup
  obtain ⟨⟨outside, outsideBody⟩, nodupHeads, nodupBody, -⟩ := nodup
  have outside : ∀ head ∈ heads, node.id ∉ head.expr.nodeIds := fun head mem inside =>
    outside ((ForHead.expr_subperm mem).subset inside)
  simp only [visitExpr_block block, bind_eq_ok] at h
  obtain ⟨_, b₁, -, inner, b₂, createdScope, _, b₃, ran, h⟩ := h
  have kind₂ := kind_createScope createdScope
  obtain ⟨rfl, rfl⟩ := createScope_eq_ok.mp createdScope
  -- The scope is ordered and holds no names at first.
  have fresh : ∀ {a : Arena} {kind : ScopeKind} {outer : Option ScopeId},
      (a.newScope kind outer true).2.scope a.scopes.size = ⟨kind, outer, true, [], []⟩ := by
    intro a kind outer
    rw [Arena.scope_newScope, if_pos rfl]
  have all := visitHeads_introduces outside kind₂ ran
  obtain ⟨more, s₃⟩ := all.steps
  have kind₃ := all.kind kind₂
  have hosts₂ := hosts_of_block kind₂
  have hosts₃ := hosts_of_block kind₃
  have bodySteps := visitExpr_steps hosts₃ body (List.Subset.refl _) h
  have created₃ : b₃.analysis.createdScopes.get? node.id = some b₁.arena.scopes.size := by
    rw [all.created]
    show (Table.insert _ _ _).get? node.id = _
    rw [Table.get?_insert, if_pos rfl]
  have ordered₃ : (b₃.arena.scope b₁.arena.scopes.size).ordered = true := by
    rw [(s₃.sameScope hosts₂.1).ordered]
    exact congrArg Scope.ordered fresh
  have empty : ∀ {name : String} {s : SymbolId},
      (Scope.get? (Arena.scope (b₁.arena.newScope (.block node.id) (some σ) true).2
        b₁.arena.scopes.size)
        name) ≠ some s := by
    intro name s found
    rw [fresh] at found
    cases found
  cases within with
  | @head i head here occurs =>
    obtain ⟨first, rest, rfl, rfl⟩ : ∃ first rest, heads = first ++ head :: rest ∧
        first.length = i := by
      obtain ⟨lt, rfl⟩ := List.getElem?_eq_some_iff.mp here
      exact ⟨heads.take i, heads.drop (i + 1), by simp, List.length_take_of_le (Nat.le_of_lt lt)⟩
    obtain ⟨c, c', early, blockC, value, late⟩ := visitHeads_window outside kind₂ ran
    have visits : Visits head.expr c c' := .of_run (hosts_of_block blockC) value
    have once : head.expr.nodeIds.Nodup :=
      nodup_of_subperm (ForHead.expr_subperm (List.mem_append_right _ (List.mem_cons_self ..)))
        nodupHeads
    obtain ⟨p, waits, rfl, -, after, before, -⟩ := (visits.occurs once occurs).awaits
    obtain ⟨ids, lateSteps⟩ := late.steps
    refine ⟨_, p, Orders.stays ⟨created₃, kind₃, ordered₃, lateSteps.pending.1 waits,
      fun name s found => ?_⟩ bodySteps outsideBody, rfl⟩
    have valueSteps := visitExpr_steps (hosts_of_block blockC) head.expr (List.Subset.refl _) value
    rcases late.names name s found with old | ⟨new, known, called, j, other, there,
      declares, follows⟩
    · rw [valueSteps.dynamicScope (.inr blockC)
        (outside head (List.mem_append_right _ (List.mem_cons_self ..)))] at old
      rcases early.names name s old with older | ⟨-, known, called, j, other, there, declares, not⟩
      · exact absurd older empty
      · obtain ⟨known', sameSymbol⟩ := (valueSteps.append lateSteps).sameSymbol known
        rw [sameSymbol.declaration]
        refine ⟨known', called, j, other, there, declares, iff_of_false ?_ ?_⟩
        · exact Nat.not_le_of_lt (Nat.lt_of_lt_of_le known after)
        · rintro ⟨_, mem, follows⟩
          exact not (Option.mem_some_iff.mp mem ▸ follows)
    · exact ⟨known, called, j, other, there, declares,
        iff_of_true (Nat.le_trans before new) ⟨_, rfl, follows⟩⟩
  | body occurs =>
    have visits : Visits body b₃ b' := .of_run hosts₃ h
    obtain ⟨p, waits, rfl, -, after, before, -⟩ := (visits.occurs nodupBody occurs).awaits
    have same := bodySteps.dynamicScope (.inr kind₃) outsideBody
    refine ⟨_, p, ⟨(bodySteps.sameEntries outsideBody).created.trans created₃, same ▸ kind₃,
      same ▸ ordered₃, waits, fun name s found => ?_⟩, rfl⟩
    rw [same] at found
    rcases all.names name s found with old | ⟨-, known, called, j, head, there, declares, -⟩
    · exact absurd old empty
    · obtain ⟨known', sameSymbol⟩ := bodySteps.sameSymbol known
      rw [sameSymbol.declaration]
      refine ⟨known', called, j, head, there, declares, ?_⟩
      simp only [Option.not_mem_none, false_and, exists_false, iff_false, Nat.not_le]
      exact Nat.lt_of_lt_of_le known after

end Build

/-! ## Resolving -/

/-- A name that is found in an ordered scope is bound, or it comes too late. -/
theorem Arena.resolve_ordered {a : Arena} {p : PendingReference} {name : String} {s : SymbolId}
    (simple : p.reference = ⟨.here, [name]⟩) (first : a.firstSymbol? p.scope .here name = some s)
    (direct : (a.symbol s).binding = .direct) (var : (a.symbol s).target = .var)
    (ordered : (a.scope (a.symbol s).scope).ordered = true) :
    a.resolve p = if p.visible ≤ s then .error (.beforeDefinition p.reference p.node.span)
      else .ok ⟨p.scope, s, s, a.classify p.scope p.reference s s⟩ := by
  have found : a.first p.scope p.reference p.node.span = .ok s := by
    rw [Arena.first, simple]
    simp only [List.head?_cons, Option.bind_some, first]
  have linked : a.linked s p.node.span = .ok s := by
    rw [Arena.linked, Arena.targetOf?, direct]
    rfl
  have path : p.reference.path.drop 1 = [] := by rw [simple]; rfl
  simp only [Arena.resolve, found, path, Arena.follow, linked, ordered, var, bind, Except.bind]
  by_cases early : p.visible ≤ s
  · simp [early, throw, throwThe, MonadExceptOf.throw]
  · simp [early, pure, Except.pure]

/-- Analysis has rejected the reference because it stands before the definition of its name. -/
def Analysis.TooEarly (a : Analysis) (node : Node) (r : Reference) : Prop :=
  a.references.get? node.id = some (.error (.beforeDefinition r node.span)) ∧
    Fault.beforeDefinition r node.span ∈ a.faults

/-- The reference under a node is bound to a symbol. -/
def Analysis.BoundTo (a : Analysis) (node : NodeId) (s : SymbolId) : Prop :=
  ∃ r, a.references.get? node = some (.ok r) ∧ r.target = s

theorem Within.occurs {e part : Expr} {node : Node} {heads : List ForHead} {body : Expr}
    {place : Option Nat} (block : e.block? = some (node, heads, body))
    (h : Within heads body part place) :
    e.Occurs part := by
  have children : e.children = heads.map (·.expr) ++ [body] := by
    cases e <;> cases block
    · rw [Expr.children, List.map_map]
      rfl
    · rfl
  cases h with
  | head here occurs =>
    refine occurs.trans (.child ?_ .whole)
    rw [children]
    exact List.mem_append_left _ (List.mem_map_of_mem (List.mem_of_getElem? here))
  | body occurs =>
    refine occurs.trans (.child ?_ .whole)
    rw [children]
    exact List.mem_append_right _ (List.mem_singleton.mpr rfl)

/-- What analysis knows of a reference in a block: it was entered as it is resolved, and the names
of the block that come after it are those of the heads that follow the place where it stands. -/
structure Analysis.Orders (a : Analysis) (heads : List ForHead) (place : Option Nat)
    (inner : ScopeId) (p : PendingReference) : Prop where
  standing : a.nodeScopes.get? p.node.id = some p.scope
  dynamic : (a.arena.scope inner).kind.isDynamic = true
  ordered : (a.arena.scope inner).ordered = true
  names : ∀ name s, (a.arena.scope inner).get? name = some s → (a.arena.symbol s).name = name ∧
    Build.DeclaredBy heads (fun j head => p.visible ≤ s ↔ ∃ i ∈ place, head.Follows j i)
      (a.arena.symbol s).toDeclaration
  bound : ∀ r, a.arena.resolve p = .ok r → a.BoundTo p.node.id r.target
  rejected : ∀ fault, a.arena.resolve p = .error fault →
    a.references.get? p.node.id = some (.error fault) ∧ fault ∈ a.faults

/-- **Analysis puts every reference in a block in order.** -/
theorem analyze_orders {recovery : Bool} {units : UnitSet} {a : Analysis}
    (numbered : units.Numbered) (h : analyze recovery units = .ok a) {e : Expr} {node : Node}
    {heads : List ForHead} {body : Expr} (contains : units.Contains e)
    (block : e.block? = some (node, heads, body)) {inner : ScopeId}
    (created : a.createdScopes.get? node.id = some inner) {rnode : Node} {r : Reference}
    {place : Option Nat} (within : Within heads body (.reference rnode r) place) :
    a.arena.Ready ∧ ∃ p : PendingReference, p.node = rnode ∧ p.reference = r ∧
      a.Orders heads place inner p := by
  obtain ⟨built, pending, linked, resolved, hb, hl, hr, rfl⟩ := analyze_eq_ok h
  obtain ⟨formed, bound, binds, moved, ⟨-, createdSame⟩, ready, -⟩ := linkUnits_built hb hl
  have linkKept := Analysis.linkUnits_kept hl
  have kept := Analysis.resolveAll_kept pending hr
  have annotated := resolved.captureAll_annotated units
  obtain ⟨b, rfl, rfl, meets⟩ := buildScopes_meets numbered hb
  have arena : (resolved.captureAll units).arena = linked.arena := by rw [annotated.arena, kept]
  have standing : (resolved.captureAll units).nodeScopes = b.analysis.nodeScopes := by
    rw [annotated.same, kept, linkKept]
  rw [annotated.createdScopes, kept, createdSame] at created
  have nodup : e.nodeIds.Nodup := by
    obtain ⟨u, hu, inside⟩ := contains
    exact nodup_of_subperm inside.subperm
      (List.nodup_cons.mp ((List.nodup_flatMap.mp numbered.nodup).1 u hu)).2
  have own : node.id ∈ e.nodeIds := by rw [e.nodeIds_block block]; exact List.mem_cons_self ..
  -- The block was visited, since it has a scope.
  have visits := (meets e contains).resolve_right fun ⟨ids, steps, apart⟩ => by
    change b.analysis.createdScopes.get? node.id = _ at created
    rw [(steps.sameEntries (apart own)).created] at created
    cases created
  obtain ⟨first, hosts, run, last, early, late⟩ := visits
  obtain ⟨inner', p, orders, rfl⟩ := Build.visitExpr_orders block nodup run within
  have orders := orders.stays last (late own)
  obtain rfl : inner' = inner := Option.some.inj (orders.created.symm.trans created)
  -- So was the reference, which is the only one of its node.
  have visits : Build.Visits (.reference p.node r) (.start recovery) b := by
    obtain ⟨u, hu, g, hg, v, hv, occurs⟩ := contains
    refine (meets _ ⟨u, hu, g, hg, v, hv, (within.occurs block).trans occurs⟩).resolve_right
      fun ⟨ids, steps, apart⟩ => ?_
    rcases steps.pending.2 orders.waits with none | inside
    · cases none
    · exact apart (List.mem_singleton.mpr rfl) inside
  obtain ⟨p', -, -, target, -, -, stands, alone⟩ := visits.awaits
  have alone : ∀ q ∈ b.pending, q.node.id = p.node.id → q = p' := fun q hq same =>
    (alone q hq same).resolve_right fun none => by cases none
  obtain rfl := alone p orders.waits rfl
  obtain ⟨entry, faults⟩ := Analysis.resolveAll_outcome b.pending.reverse (p := p)
    (List.mem_reverse.mpr orders.waits) (fun q hq => alone q (List.mem_reverse.mp hq)) hr
  have scope : (linked.arena.scope inner').get? = (b.arena.scope inner').get? := by
    funext name
    rw [moved.scope, binds.scope]
    rfl
  refine ⟨arena ▸ ready, p, rfl, target, standing ▸ stands, ?_, ?_, fun name s found => ?_,
    fun r resolves => ?_, fun fault resolves => ?_⟩
  · rw [arena, moved.kind, binds.scope]
    exact congrArg ScopeKind.isDynamic orders.kind
  · rw [arena, moved.scope, binds.scope]
    exact orders.ordered
  · rw [arena] at found ⊢
    rw [scope] at found
    obtain ⟨-, called, declared⟩ := orders.names name s found
    obtain ⟨j, head, -, declares, -⟩ := id declared
    -- What a block declares is not linked.
    have symbol : linked.arena.symbol s = b.arena.symbol s := by
      rw [moved.symbol]
      refine (binds.symbol s).resolve_right fun ⟨indirect, _⟩ => ?_
      change (b.arena.symbol s).toDeclaration.binding.isIndirect = true at indirect
      rw [(head.direct_of_declaration declares).1] at indirect
      cases indirect
    rw [symbol]
    exact ⟨called, declared⟩
  · rw [arena] at resolves
    rw [resolves] at entry
    obtain ⟨kind, entry⟩ := annotated.target entry
    exact ⟨_, entry, rfl⟩
  · rw [arena] at resolves
    refine ⟨?_, annotated.faults ▸ (faults _ resolves).2⟩
    rcases annotated.reference p.node.id with same | ⟨r, before, -⟩
    · rw [same, entry, resolves]
    · rw [entry, resolves] at before
      cases before

/-- **A reference to a name of a block is rejected exactly if it stands before the name is
introduced.** It may stand at any depth in a head or in the body of a binding or comprehension. A
name that the block introduces later is out of reach, and so is the name of a generator for its own
source; a definition reaches itself, and the body reaches all names. Whatever is not rejected is
bound to the name. -/
theorem analyze_order {recovery : Bool} {units : UnitSet} {a : Analysis} (numbered : units.Numbered)
    (h : analyze recovery units = .ok a) {e : Expr} {node : Node} {heads : List ForHead}
    {body : Expr} (contains : units.Contains e) (block : e.block? = some (node, heads, body))
    {inner : ScopeId} (created : a.createdScopes.get? node.id = some inner) {rnode : Node}
    {name : String} {place : Option Nat}
    (within : Within heads body (.reference rnode ⟨.here, [name]⟩) place) :
    ∃ σ, a.nodeScopes.get? rnode.id = some σ ∧
      ∀ s, a.arena.firstSymbol? σ .here name = some s → (a.arena.symbol s).scope = inner →
        (a.arena.symbol s).name = name ∧ ∃ (j : Nat) (head : ForHead), heads[j]? = some head ∧
          head.declaration? = some (a.arena.symbol s).toDeclaration ∧
          (a.TooEarly rnode ⟨.here, [name]⟩ ↔ ∃ i ∈ place, head.Follows j i) ∧
          (a.TooEarly rnode ⟨.here, [name]⟩ ∨ a.BoundTo rnode.id s) := by
  obtain ⟨ready, p, rfl, simple, orders⟩ := analyze_orders numbered h contains block created within
  refine ⟨p.scope, orders.standing, fun s found home => ?_⟩
  -- The name was found in the scope of the block.
  obtain ⟨id, -, named, -⟩ := Arena.mem_chain_of_firstSymbol? found
  have here : (a.arena.scope inner).get? name = some s := by
    rcases (ready.name id name s named).2 with same | ⟨owner, members⟩
    · rw [← home]
      exact same ▸ named
    · have dynamic := orders.dynamic
      rw [← home, members] at dynamic
      cases dynamic
  obtain ⟨called, j, head, there, declares, follows⟩ := orders.names name s here
  obtain ⟨direct, var⟩ := head.direct_of_declaration declares
  have resolves := Arena.resolve_ordered simple found direct var (home ▸ orders.ordered)
  refine ⟨called, j, head, there, declares, ?_⟩
  rw [← follows]
  rw [simple] at resolves
  by_cases early : p.visible ≤ s
  · rw [if_pos early] at resolves
    have tooEarly : a.TooEarly p.node ⟨.here, [name]⟩ := orders.rejected _ resolves
    exact ⟨iff_of_true tooEarly early, .inl tooEarly⟩
  · rw [if_neg early] at resolves
    obtain ⟨r, entry, target⟩ := orders.bound _ resolves
    refine ⟨iff_of_false (fun tooEarly => ?_) early, .inr ⟨r, entry, target⟩⟩
    have both := entry.symm.trans tooEarly.1
    cases both

/-- A comprehension whose generator and definition both name themselves. In the notation of the
language, with types left out:

    library l:
      v = for g <- g, d = d: g -/
def selfNaming : UnitSet :=
  let node (index : Nat) : Node := ⟨.tree index, default⟩
  let ref (index : Nat) (name : String) : Expr := .reference (node index) ⟨.here, [name]⟩
  [⟨node 0, "m", 0, .module
    { globalName := none, imports := [], aliases := [], exports := []
      libraries := [⟨node 1, "l", false, [⟨node 2, "v", .any, .forEach (node 10)
        [.generator (node 11) "g" .any (ref 12 "g"), .definition (node 13) "d" .any (ref 14 "d")]
        (ref 15 "g")⟩]⟩] }⟩]

/-- The theorem at all three references. The generator is out of reach for its own source, but not
for the body, and the definition reaches itself. -/
theorem analyze_order_selfNaming : selfNaming.Numbered ∧ ∃ a, analyze true selfNaming = .ok a ∧
    a.TooEarly ⟨.tree 12, default⟩ ⟨.here, ["g"]⟩ ∧ ¬a.TooEarly ⟨.tree 14, default⟩ ⟨.here, ["d"]⟩ ∧
    a.BoundTo (.tree 14) 4 ∧ ¬a.TooEarly ⟨.tree 15, default⟩ ⟨.here, ["g"]⟩ ∧
      a.BoundTo (.tree 15) 3 := by
  have numbered : selfNaming.Numbered := by decide +kernel
  have facts : ((analyze true selfNaming).toOption.map fun a =>
      [a.createdScopes.get? (.tree 10), a.nodeScopes.get? (.tree 12), a.nodeScopes.get? (.tree 14),
        a.nodeScopes.get? (.tree 15), a.arena.firstSymbol? 5 .here "g",
        a.arena.firstSymbol? 5 .here "d", some (a.arena.symbol 3).scope,
          some (a.arena.symbol 4).scope]) =
      some [some 5, some 5, some 5, some 5, some 3, some 4, some 5, some 5] := by decide +kernel
  obtain ⟨heads, body, located, hheads⟩ : ∃ heads body,
      selfNaming.Contains (.forEach ⟨.tree 10, default⟩ heads body) ∧ heads =
        [.generator ⟨.tree 11, default⟩ "g" .any (.reference ⟨.tree 12, default⟩ ⟨.here, ["g"]⟩),
          .definition ⟨.tree 13, default⟩ "d" .any (.reference ⟨.tree 14, default⟩
            ⟨.here, ["d"]⟩)] ∧
        body = .reference ⟨.tree 15, default⟩ ⟨.here, ["g"]⟩ :=
    ⟨_, _, ⟨_, .head _, _, .head _, _, .head _, .whole⟩, rfl, rfl⟩
  obtain ⟨rfl, rfl⟩ := hheads
  cases h : analyze true selfNaming with
  | error fault =>
    rw [h] at facts
    cases facts
  | ok a =>
    rw [h] at facts
    simp only [Except.toOption, Option.map_some, Option.some.injEq, List.cons.injEq] at facts
    obtain ⟨created, at12, at14, at15, g, d, homeG, homeD, -⟩ := facts
    obtain ⟨σ, standing, source⟩ :=
      analyze_order numbered h located rfl created (.head (i := 0) rfl .whole)
    obtain rfl : 5 = σ := Option.some.inj (at12.symm.trans standing)
    obtain ⟨calledG, j, head, there, declares, early, -⟩ := source 3 g homeG
    obtain ⟨σ, standing, own⟩ :=
      analyze_order numbered h located rfl created (.head (i := 1) rfl .whole)
    obtain rfl : 5 = σ := Option.some.inj (at14.symm.trans standing)
    obtain ⟨calledD, j', head', there', declares', early', bound'⟩ := own 4 d homeD
    obtain ⟨σ, standing, inBody⟩ := analyze_order numbered h located rfl created (.body .whole)
    obtain rfl : 5 = σ := Option.some.inj (at15.symm.trans standing)
    obtain ⟨-, _, _, -, -, never, bound''⟩ := inBody 3 g homeG
    have sourceEarly : ∃ i ∈ some 0, head.Follows j i := by
      cases j with
      | zero =>
        cases there
        exact ⟨0, rfl, .inr ⟨rfl, rfl⟩⟩
      | succ j =>
        cases j with
        | zero =>
          cases there
          have other := congrArg (Option.map Declaration.name) declares
          rw [Option.map_some, calledG] at other
          exact absurd (Option.some.inj other) (by decide)
        | succ j => cases there
    have ownReach : ¬∃ i ∈ some 1, head'.Follows j' i := by
      rintro ⟨i, hi, follows⟩
      obtain rfl := Option.mem_some_iff.mp hi
      rcases follows with later | ⟨rfl, generator⟩
      · -- No head comes after the definition.
        obtain ⟨inside, -⟩ := List.getElem?_eq_some_iff.mp there'
        exact Nat.not_le_of_lt inside later
      · cases there'
        cases generator
    have notEarly' : ¬a.TooEarly ⟨.tree 14, default⟩ ⟨.here, ["d"]⟩ :=
      fun h => ownReach (early'.mp h)
    have notEarly'' : ¬a.TooEarly ⟨.tree 15, default⟩ ⟨.here, ["g"]⟩ := fun h => by
      obtain ⟨i, none, -⟩ := never.mp h
      cases none
    exact ⟨numbered, a, rfl, early.mpr sourceEarly, notEarly', bound'.resolve_left notEarly',
      notEarly'', bound''.resolve_left notEarly''⟩

end CellScript
