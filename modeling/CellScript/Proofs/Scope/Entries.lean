import CellScript.Proofs.Scope.Sound

/-!
# What is noted about one node

Tables have entries for scopes that were created, symbols that were declared and references that
were put off. Each entry is made when its node is visited, and stays until the pass ends.

* `Build.Created`, `Build.Declared` — a scope or a symbol of a node, and that it is known at the end
* `Build.Filled` — what was declared in the scope of a node between two states
* `Build.await_alone` — a reference
* `Build.functionOf_declareParams` — a function with its parameters
-/

namespace CellScript

namespace Build

variable {ids few more : List NodeId} {b b' c c' bf : Building} {a : Analysis}
  {R : ScopeId → NodeId → Prop}

theorem tables_recordPosition {node : Node} {u : PUnit} (h : recordPosition node b = .ok (u, b')) :
    b'.analysis.definitions = b.analysis.definitions ∧
      b'.analysis.createdScopes = b.analysis.createdScopes ∧
      b'.analysis.nodeScopes = b.analysis.nodeScopes ∧ b'.arena = b.arena := by
  unfold recordPosition at h
  split at h
  · rw [modifyAnalysis_eq_ok] at h
    subst h
    exact ⟨rfl, rfl, rfl, rfl⟩
  · rw [pure_eq_ok] at h
    obtain ⟨-, rfl⟩ := h
    exact ⟨rfl, rfl, rfl, rfl⟩

theorem SameEntries.of_tables {node : NodeId}
    (h : b'.analysis.definitions = b.analysis.definitions ∧
      b'.analysis.createdScopes = b.analysis.createdScopes ∧
      b'.analysis.nodeScopes = b.analysis.nodeScopes ∧ b'.arena = b.arena) :
    SameEntries b b' node :=
  ⟨by rw [h.2.1], by rw [h.2.2.1], by rw [h.1]⟩

/-- A new scope is empty. -/
theorem slots_createScope {node : NodeId} {kind : ScopeKind} {σ inner : ScopeId} {ordered : Bool}
    (h : createScope node kind σ ordered b = .ok (inner, b')) :
    (b'.arena.scope inner).slots = [] := by
  obtain ⟨rfl, rfl⟩ := createScope_eq_ok.mp h
  show ((Arena.newScope _ _ _ _).2.scope _).slots = []
  rw [Arena.scope_newScope, if_pos rfl]

/-- The node has created a scope inside another one. -/
structure Created (b : Building) (node : NodeId) (kind : ScopeKind) (σ inner : ScopeId) : Prop where
  created : b.analysis.createdScopes.get? node = some inner
  kind : (b.arena.scope inner).kind = kind
  enclosing : (b.arena.scope inner).enclosing = some σ

theorem created_createScope {node : NodeId} {kind : ScopeKind} {σ inner : ScopeId} {ordered : Bool}
    (h : createScope node kind σ ordered b = .ok (inner, b')) : Created b' node kind σ inner := by
  have kind_eq := kind_createScope h
  obtain ⟨rfl, rfl⟩ := createScope_eq_ok.mp h
  refine ⟨?_, kind_eq, ?_⟩
  · show (Table.insert _ _ _).get? node = _
    rw [Table.get?_insert, if_pos rfl]
  · show ((b.arena.newScope kind (some σ) ordered).2.scope _).enclosing = _
    rw [Arena.scope_newScope, if_pos rfl]

theorem Created.stays {node : NodeId} {kind : ScopeKind} {σ inner : ScopeId}
    (h : Created b node kind σ inner) (dynamic : kind.isDynamic = true) (s : Steps ids b b')
    (entries : SameEntries b b' node) : Created b' node kind σ inner := by
  have known : b.HasScope inner := by
    refine Arena.lt_size_of_kind ?_
    rw [h.kind]
    rintro rfl
    cases dynamic
  have same := s.sameScope known
  exact ⟨entries.created.trans h.created, same.kind.trans h.kind, same.enclosing.trans h.enclosing⟩

/-- A block that was created is one of the finished analysis. -/
theorem Created.blockOf {node : NodeId} {σ inner : ScopeId}
    (h : Created b node (.block node) σ inner) (w : Window ids c b bf) (mem : node ∈ ids)
    (fin : Finished bf a R) : a.BlockOf node σ inner := by
  obtain ⟨more, rest, -⟩ := w.later
  have there := h.stays rfl rest (w.entries mem)
  have same := fin.dynamic inner (by rw [there.kind]; rfl)
  exact ⟨fin.created ▸ there.created, same ▸ there.kind, same ▸ there.enclosing⟩

/-- The node has declared a variable of a type in a scope. -/
def Declared (b : Building) (node : NodeId) (σ : ScopeId) (ty : Ty) : Prop :=
  ∃ t, b.analysis.definitions.get? node = some t ∧ t < b.arena.symbols.size ∧
    (b.arena.symbol t).scope = σ ∧ (b.arena.symbol t).ty = ty

theorem Declared.stays {node : NodeId} {σ : ScopeId} {ty : Ty} (h : Declared b node σ ty)
    (s : Steps ids b b') (entries : SameEntries b b' node) : Declared b' node σ ty := by
  obtain ⟨t, found, known, home, type⟩ := h
  obtain ⟨known', same⟩ := s.sameSymbol known
  exact ⟨t, entries.definition.trans found, known', same.scope.trans home,
    (congrArg Declaration.ty same.declaration).trans type⟩

theorem Declared.declares {node : NodeId} {σ : ScopeId} {ty : Ty} (h : Declared b node σ ty)
    (w : Window ids c b bf) (mem : node ∈ ids) (fin : Finished bf a R) : a.Declares node σ ty := by
  obtain ⟨more, rest, -⟩ := w.later
  obtain ⟨t, found, known, home, type⟩ := h.stays rest (w.entries mem)
  exact ⟨t, fin.definitions ▸ found, fin.size ▸ known, (fin.symbol t).1.trans home,
    (fin.symbol t).2.trans type⟩

/-- Without recovery, a declaration that was passed has declared its symbol. -/
theorem declare_strict {σ : ScopeId} {d : Declaration} {id? : Option SymbolId}
    (strict : b.recovery = false) (h : declare σ d b = .ok (id?, b')) :
    id? = some b.arena.symbols.size ∧
      b'.analysis.definitions = b.analysis.definitions.insert d.node.id b.arena.symbols.size ∧
      b'.analysis.createdScopes = b.analysis.createdScopes ∧
      b'.analysis.nodeScopes = b.analysis.nodeScopes ∧ b'.arena = b.arena.withDeclared σ d := by
  simp only [declare, bind_eq_ok, get_eq_ok] at h
  obtain ⟨_, _, ⟨rfl, rfl⟩, h⟩ := h
  cases hd : b.analysis.arena.declare σ d with
  | error fault =>
    simp only [hd, bind_eq_ok] at h
    obtain ⟨_, _, hr, -⟩ := h
    obtain ⟨recovery, -⟩ : _ ∧ Steps [] b _ := report_steps hr
    rw [strict] at recovery
    cases recovery
  | ok p =>
    obtain ⟨id, arena⟩ := p
    simp only [hd, bind_eq_ok, modifyAnalysis_eq_ok, pure_eq_ok] at h
    rw [Arena.declare_eq_ok_iff] at hd
    obtain ⟨free, rfl, rfl⟩ := hd
    obtain ⟨_, b₁, rfl, _, b₂, hpos, rfl, rfl⟩ := h
    exact ⟨rfl, tables_recordPosition hpos⟩

theorem declared_declare {σ : ScopeId} {name : String} {ty : Ty} {node : Node}
    {id? : Option SymbolId} (strict : b.recovery = false)
    (h : declare σ (.var name ty node) b = .ok (id?, b')) : Declared b' node.id σ ty := by
  obtain ⟨-, definitions, -, -, arena⟩ := declare_strict strict h
  have symbol : b'.arena.symbol b.arena.symbols.size =
      b.arena.declared σ (.var name ty node) := by
    rw [arena, Arena.symbol_withDeclared, if_pos rfl]
  refine ⟨b.arena.symbols.size, ?_, ?_, ?_, ?_⟩
  · rw [definitions, Table.get?_insert]
    exact if_pos rfl
  · rw [arena, Arena.size_symbols_withDeclared]
    exact Nat.lt_succ_self _
  · rw [symbol]
    rfl
  · rw [symbol]
    rfl

/-- What was declared in the scope of a node between two states, under other nodes and in their
order; nothing was entered under the node of the scope. -/
structure Filled (a : Analysis) (n : NodeId) (σ : ScopeId) (nodes : List NodeId)
    (b b' : Building) : Prop where
  slots : ∃ ts, (b'.arena.scope σ).slots = (b.arena.scope σ).slots ++ ts ∧
    List.Forall₂ (fun node t => a.definitions.get? node = some t) nodes ts
  entries : SameEntries b b' n

namespace Filled

variable {n : NodeId} {σ : ScopeId} {nodes others : List NodeId}

theorem refl : Filled a n σ [] b b := ⟨⟨[], (List.append_nil _).symm, .nil⟩, .refl _ _⟩

theorem append (h : Filled a n σ nodes b c) (h' : Filled a n σ others c b') :
    Filled a n σ (nodes ++ others) b b' := by
  obtain ⟨ts, slots, all⟩ := h.slots
  obtain ⟨ts', slots', all'⟩ := h'.slots
  exact ⟨⟨ts ++ ts', by rw [slots', slots, List.append_assoc], List.rel_append all all'⟩,
    h.entries.trans h'.entries⟩

/-- Nothing is declared in a scope while other nodes are visited. -/
theorem of_same (slots : (b'.arena.scope σ).slots = (b.arena.scope σ).slots) (s : Steps ids b b')
    (absent : n ∉ ids) : Filled a n σ [] b b' :=
  ⟨⟨[], by rw [slots, List.append_nil], .nil⟩, s.sameEntries absent⟩

theorem of_steps (block : (b.arena.scope σ).kind = .block n) (s : Steps ids b b')
    (absent : n ∉ ids) : Filled a n σ [] b b' :=
  .of_same (s.dynamicSlots (.inr block) absent) s absent

/-- A scope that was empty at first has been filled. -/
theorem fills (h : Filled a n σ nodes b bf) (empty : (b.arena.scope σ).slots = [])
    (fin : Finished bf a R) : a.Fills nodes σ := by
  obtain ⟨ts, slots, each⟩ := h.slots
  rw [Analysis.Fills, fin.slots, slots, empty]
  exact each

theorem declare {name : String} {ty : Ty} {node : Node} {id? : Option SymbolId}
    (fin : Finished bf a R) (w : Window ids c b' bf) (mem : node.id ∈ ids) (other : n ≠ node.id)
    (strict : b.recovery = false) (known : b.HasScope σ)
    (h : Build.declare σ (.var name ty node) b = .ok (id?, b')) : Filled a n σ [node.id] b b' := by
  obtain ⟨-, definitions, created, standing, arena⟩ := declare_strict strict h
  refine ⟨⟨[b.arena.symbols.size], ?_, .cons ?_ .nil⟩, by rw [created], by rw [standing], ?_⟩
  · rw [arena, Arena.scope_withDeclared known, if_pos rfl]
  · rw [fin.definitions, (w.entries mem).definition, definitions, Table.get?_insert]
    exact if_pos rfl
  · rw [definitions, Table.get?_insert]
    exact if_neg fun same => other same.symm

/-- The block of a node, empty at first, is one of the finished analysis when it has been filled. -/
theorem block (h : Filled a n σ nodes b b') {outer : ScopeId}
    (created : Created b n (.block n) outer σ) (empty : (b.arena.scope σ).slots = [])
    (s : Steps ids b b') (w : Window [n] c c' bf) (later : Steps more b' c') (absent : n ∉ more)
    (fin : Finished bf a R) : a.BlockOf n outer σ ∧ a.Fills nodes σ := by
  have there := created.stays rfl s h.entries
  have same := Filled.of_steps (a := a) there.kind later absent
  obtain ⟨rest, after, apart⟩ := w.later
  have last := Filled.of_steps (a := a) (later.kind there.kind fun h => by cases h) after
    (apart (List.mem_singleton.mpr rfl))
  have all := (h.append same).append last
  rw [List.append_nil, List.append_nil] at all
  exact ⟨(there.stays rfl later same.entries).blockOf w (List.mem_singleton.mpr rfl) fin,
    all.fills empty fin⟩

end Filled

/-- The names that a pattern or a catch clause captures. -/
theorem declareCaptures_binds {σ : ScopeId} {n : NodeId} {u : PUnit} (fin : Finished bf a R)
    (captures : List Capture) (w : Window (captures.map (·.node.id)) b b' bf)
    (block : (b.arena.scope σ).kind = .block n) (outside : n ∉ captures.map (·.node.id))
    (h : declareCaptures σ captures b = .ok (u, b')) :
    a.Binds σ captures ∧ Filled a n σ (captures.map (·.node.id)) b b' := by
  induction captures generalizing b with
  | nil =>
    rw [declareCaptures, pure_eq_ok] at h
    obtain ⟨-, rfl⟩ := h
    exact ⟨fun c hc => (by cases hc), .refl⟩
  | cons c rest ih =>
    rw [List.map_cons, List.mem_cons, not_or] at outside
    simp only [declareCaptures, bind_eq_ok] at h
    obtain ⟨_, b₁, h₁, h⟩ := h
    have s₁ : Steps [n, c.node.id] b b₁ :=
      declareVar_steps (by simp) (opens_of_dynamic (by simp) (.inr block)) h₁
    have block₁ := s₁.kind block (fun h => by cases h)
    have s₂ : Steps (n :: rest.map (·.node.id)) b₁ b' :=
      declareCaptures_steps rest (List.subset_cons_self ..)
        (opens_of_dynamic (List.mem_cons_self ..) (.inr block₁)) h
    have wc : Window [c.node.id] b b₁ bf := Window.before (l := [c.node.id]) w [n]
      (by simpa using outside.1) s₂
    have wr : Window (rest.map (·.node.id)) b₁ b' bf :=
      Window.after (l := [c.node.id]) w [n] (by simpa using outside.2) s₁
    obtain ⟨binds, filled⟩ := ih wr block₁ outside.2 h
    have first : Filled a n σ [c.node.id] b b₁ := .declare fin wc (List.mem_singleton.mpr rfl)
      outside.1 w.strict (hosts_of_block block).1 h₁
    refine ⟨fun c' hc' => ?_, first.append filled⟩
    rcases List.mem_cons.mp hc' with rfl | hc'
    · exact (declared_declare w.strict h₁).declares wc (List.mem_singleton.mpr rfl) fin
    · exact binds c' hc'

theorem pending_enter {node : Node} {σ : ScopeId} {u : PUnit} (h : enter node σ b = .ok (u, b')) :
    b'.pending = b.pending ∧ b'.analysis.nodeScopes.get? node.id = some σ := by
  simp only [enter, bind_eq_ok, modifyAnalysis_eq_ok] at h
  obtain ⟨_, b₁, rfl, h⟩ := h
  refine ⟨?_, ?_⟩
  · unfold recordPosition at h
    split at h
    · rw [modifyAnalysis_eq_ok] at h
      rw [h]
      rfl
    · rw [pure_eq_ok] at h
      rw [← h.2]
      rfl
  · rw [(tables_recordPosition h).2.2.1]
    show (Table.insert _ _ _).get? node.id = _
    rw [Table.get?_insert, if_pos rfl]

/-- A reference that was noted under a node of its own waits alone. -/
theorem await_alone {node : Node} {σ : ScopeId} {r : Reference} {u : PUnit} (fin : Finished bf a R)
    (w : Window [node.id] b b' bf) (pending : c.pending = b.pending)
    (h : await node σ r c = .ok (u, b')) : R σ node.id := by
  cases h
  obtain ⟨more, rest, apart⟩ := w.later
  refine fin.reference ⟨node, σ, r, c.arena.symbols.size⟩
    (rest.pending.1 (List.mem_cons_self ..)) fun q hq same => ?_
  rcases rest.pending.2 hq with hq | hq
  · rcases List.mem_cons.mp hq with rfl | hq
    · rfl
    · refine absurd (List.mem_singleton.mpr same) (w.fresh q ?_)
      rw [← pending]
      exact hq
  · exact absurd hq (apart (List.mem_singleton.mpr same))

/-- The parameters of a function fill its scope in their order. -/
theorem declareParams_types {inner : ScopeId} {u : PUnit} (params : List Param)
    (strict : b.recovery = false) (sub : params.map (·.node.id) ⊆ ids) (opens : b.Opens ids inner)
    (declared : ∀ t ∈ (b.arena.scope inner).slots, t < b.arena.symbols.size)
    (h : declareParams inner params b = .ok (u, b')) :
    b'.analysis.createdScopes = b.analysis.createdScopes ∧
      b'.analysis.nodeScopes = b.analysis.nodeScopes ∧
      (∀ t ∈ (b'.arena.scope inner).slots, t < b'.arena.symbols.size) ∧
      (b'.arena.scope inner).slots.map (fun t => (b'.arena.symbol t).ty) =
        (b.arena.scope inner).slots.map (fun t => (b.arena.symbol t).ty) ++ params.map (·.ty) := by
  induction params generalizing b with
  | nil =>
    rw [declareParams, pure_eq_ok] at h
    obtain ⟨-, rfl⟩ := h
    exact ⟨rfl, rfl, declared, (List.append_nil _).symm⟩
  | cons p rest ih =>
    simp only [declareParams, bind_eq_ok] at h
    obtain ⟨_, b₁, h₁, h⟩ := h
    obtain ⟨-, -, created, nodeScopes, arena⟩ := declare_strict strict h₁
    rw [List.map_cons, List.cons_subset] at sub
    have s₁ := declareVar_steps sub.1 opens h₁
    have size : b₁.arena.symbols.size = b.arena.symbols.size + 1 := by
      rw [arena, Arena.size_symbols_withDeclared]
    have slots : (b₁.arena.scope inner).slots =
        (b.arena.scope inner).slots ++ [b.arena.symbols.size] := by
      rw [arena, Arena.scope_withDeclared opens.hosts.1, if_pos rfl]
    have symbol : ∀ t, b₁.arena.symbol t = if t = b.arena.symbols.size then
        b.arena.declared inner (.var p.name p.ty p.node) else b.arena.symbol t := by
      intro t
      rw [arena, Arena.symbol_withDeclared]
    have declared₁ : ∀ t ∈ (b₁.arena.scope inner).slots, t < b₁.arena.symbols.size := by
      intro t ht
      rw [slots] at ht
      rw [size]
      rcases List.mem_append.mp ht with ht | ht
      · exact Nat.lt_succ_of_lt (declared t ht)
      · rw [List.mem_singleton.mp ht]
        exact Nat.lt_succ_self _
    obtain ⟨created', nodeScopes', declared', types⟩ :=
      ih (s₁.recovery.trans strict) sub.2 (s₁.opens opens) declared₁ h
    refine ⟨created'.trans created, nodeScopes'.trans nodeScopes, declared', ?_⟩
    rw [types, slots, List.map_append, List.map_cons, List.append_assoc]
    congr 1
    · refine List.map_congr_left fun t ht => ?_
      rw [symbol, if_neg (Nat.ne_of_lt (declared t ht))]
    · show [(b₁.arena.symbol b.arena.symbols.size).ty] ++ rest.map (·.ty) = _
      rw [symbol, if_pos rfl]
      rfl

/-- What is left to visit once the defaults of a function are. -/
theorem function_count (node : NodeId) (params : List Param) (body : List NodeId) (id : NodeId) :
    (idsOfDefaults params ++ ((node :: params.map (·.node.id)) ++ body)).count id ≤
      (node :: (idsOfParams params ++ body)).count id := by
  have := (List.perm_iff_count.mp (idsOfParams_perm params)) id
  simp only [List.count_append, List.count_cons] at this ⊢
  omega

/-- A function whose parameters are declared is one of the finished analysis. -/
theorem functionOf_declareParams {node : NodeId} {σ inner : ScopeId} {params : List Param}
    {u : PUnit} (fin : Finished bf a R) (w : Window [node] c b' bf) (strict : b.recovery = false)
    (created : Created b node (.function node) σ inner) (empty : (b.arena.scope inner).slots = [])
    (standing : b.analysis.nodeScopes.get? node = some σ)
    (h : declareParams inner params b = .ok (u, b')) :
    a.FunctionOf node σ inner (params.map (·.ty)) := by
  have opens : b.Opens (node :: params.map (·.node.id)) inner :=
    opens_of_dynamic (List.mem_cons_self ..) (.inl created.kind)
  have s := declareParams_steps params (List.subset_cons_self ..) opens h
  obtain ⟨tableC, tableN, declared, types⟩ := declareParams_types params strict
    (List.subset_cons_self ..) opens (by rw [empty]; exact fun t ht => by cases ht) h
  rw [empty, List.map_nil, List.nil_append] at types
  have same := s.sameScope opens.hosts.1
  have there : Created b' node (.function node) σ inner :=
    ⟨by rw [tableC]; exact created.created, same.kind.trans created.kind,
      same.enclosing.trans created.enclosing⟩
  obtain ⟨more, rest, apart⟩ := w.later
  have absent : node ∉ more := apart (List.mem_singleton.mpr rfl)
  have entries := rest.sameEntries absent
  have last := there.stays rfl rest entries
  have scope := fin.dynamic inner (by rw [last.kind]; rfl)
  refine ⟨by rw [fin.created]; exact last.created, ?_, by rw [scope]; exact last.kind,
    by rw [scope]; exact last.enclosing, ?_⟩
  · rw [fin.nodeScopes, entries.nodeScope, tableN]
    exact standing
  · rw [scope, rest.dynamicSlots (.inl there.kind) absent, ← types]
    refine List.map_congr_left fun t ht => ?_
    rw [(fin.symbol t).2]
    exact congrArg Declaration.ty (rest.sameSymbol (declared t ht)).2.declaration

end Build

end CellScript
