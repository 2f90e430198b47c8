import CellScript.Proofs.Scope.Step

/-!
# How the first pass grows an arena

The first pass over a program takes the steps of `Build.Step`. What it does at one place takes a few
of them, for the node it stands at.

* `Building.Opens` — a scope in which variables may be declared
* `Build.declare_steps`, `Build.createScope_steps` — declaring a symbol, opening a scope
* `Build.declareParams_steps`, `Build.declareCaptures_steps` — declaring several variables
-/

namespace CellScript

namespace Building

/-- The scope holds the members of a symbol that was declared under a node. -/
structure MembersOf (b : Building) (n : NodeId) (scope : ScopeId) (owner : SymbolId) : Prop where
  kind : (b.arena.scope scope).kind = .members owner
  known : owner < b.arena.symbols.size
  node : (b.arena.symbol owner).node.id = n

/-- Variables may be declared in the scope while nodes of `ids` are visited. -/
structure Opens (b : Building) (ids : List NodeId) (scope : ScopeId) : Prop where
  hosts : b.Hosts scope
  owned : Build.Owned b scope
  opened : ∀ node, b.Opened ids scope node

end Building

/-- What the symbol of a unit denotes. -/
def UnitKind.target : UnitKind → Target
  | .module _ => .module
  | .interactive _ => .interactive

namespace Build

variable {ids : List NodeId} {b b' : Building}

theorem Steps.opens {some : List NodeId} {scope : ScopeId} (s : Steps ids b b')
    (h : b.Opens some scope) : b'.Opens some scope := by
  refine ⟨s.hosts h.hosts, fun owner kind => ?_, fun node => ?_⟩
  · rw [(s.sameScope h.hosts.1).kind] at kind
    exact (s.sameSymbol (h.owned owner kind)).1
  · exact (s.opened_iff h.hosts.1 h.owned).mpr (h.opened node)

theorem Steps.membersOf {n : NodeId} {scope : ScopeId} {owner : SymbolId} (s : Steps ids b b')
    (h : b.MembersOf n scope owner) : b'.MembersOf n scope owner := by
  obtain ⟨known, same⟩ := s.sameSymbol h.known
  refine ⟨s.kind h.kind (fun h => by cases h), known, ?_⟩
  rw [show (b'.arena.symbol owner).node = _ from congrArg Declaration.node same.declaration]
  exact h.node

theorem hosts_of_block {scope : ScopeId} {n : NodeId} (h : (b.arena.scope scope).kind = .block n) :
    b.Hosts scope := by
  refine ⟨Arena.lt_size_of_kind ?_, ?_⟩
  · rw [h]
    exact fun h => by cases h
  · rw [h]
    rfl

theorem opens_of_dynamic {scope : ScopeId} {n : NodeId} (mem : n ∈ ids)
    (h : (b.arena.scope scope).kind = .function n ∨ (b.arena.scope scope).kind = .block n) :
    b.Opens ids scope := by
  have dynamic : (b.arena.scope scope).kind.isDynamic = true := by
    rcases h with h | h <;> rw [h] <;> rfl
  refine ⟨⟨Arena.lt_size_of_kind fun global => ?_, ScopeKind.hosts_of_isDynamic dynamic⟩,
    owned_of_isDynamic dynamic, fun node => ?_⟩
  · rw [global] at dynamic
    cases dynamic
  · unfold Building.Opened
    rcases h with h | h <;> rw [h] <;> exact mem

theorem opens_of_members {n : NodeId} {scope : ScopeId} {s : SymbolId} (mem : n ∈ ids)
    (h : b.MembersOf n scope s) : b.Opens ids scope := by
  refine ⟨⟨Arena.lt_size_of_kind ?_, ?_⟩, fun owner kind => ?_, fun node => ?_⟩
  · rw [h.kind]
    exact fun h => by cases h
  · rw [h.kind]
    rfl
  · rw [h.kind] at kind
    cases kind
    exact h.known
  · unfold Building.Opened
    rw [h.kind]
    show (b.arena.symbol s).node.id ∈ ids
    rw [h.node]
    exact mem

/-- Scopes that host expressions admit variables. -/
theorem admits_var {kind : ScopeKind} (h : kind.hosts = true) (name : String) (ty : Ty)
    (node : Node) : kind.admits (.var name ty node) := by
  cases kind with
  | members s => exact fun h => by cases h
  | function n => exact ⟨rfl, rfl⟩
  | block n => exact ⟨rfl, rfl⟩
  | _ => cases h

/-- While other nodes are visited, nothing is declared among the members of a node. -/
theorem Steps.membersScope {n : NodeId} {scope : ScopeId} {owner : SymbolId} (s : Steps ids b b')
    (h : b.MembersOf n scope owner) (absent : n ∉ ids) :
    b'.arena.scope scope = b.arena.scope scope := by
  have opens : b.Opens [n] scope := opens_of_members (List.mem_singleton.mpr rfl) h
  refine s.closed opens.hosts.1 opens.owned (fun owner kind => ?_) fun node _ opened => absent ?_
  · rw [h.kind] at kind
    cases kind
  · rw [Building.Opened, h.kind] at opened
    change (b.arena.symbol owner).node.id ∈ ids at opened
    rwa [h.node] at opened

/-! ## Opening the pass -/

variable {α β : Type}

/-- A sequence has ended well if both of its parts have. -/
theorem bind_eq_ok {x : Build α} {f : α → Build β} {r : β × Building} :
    (x >>= f) b = .ok r ↔ ∃ a b', x b = .ok (a, b') ∧ f a b' = .ok r := by
  show (StateT.bind x f) b = _ ↔ _
  simp only [StateT.bind]
  cases hx : x b with
  | error e =>
    constructor
    · intro h
      cases h
    · rintro ⟨a, b', h, -⟩
      cases h
  | ok p =>
    constructor
    · intro h
      exact ⟨p.1, p.2, rfl, h⟩
    · rintro ⟨a, b', h, hf⟩
      cases h
      exact hf

theorem pure_eq_ok {a a' : α} : (pure a : Build α) b = .ok (a', b') ↔ a = a' ∧ b = b' := by
  constructor
  · intro h
    cases h
    exact ⟨rfl, rfl⟩
  · rintro ⟨rfl, rfl⟩
    rfl

theorem get_eq_ok {s : Building} : (get : Build Building) b = .ok (s, b') ↔ b = s ∧ b = b' := by
  constructor
  · intro h
    cases h
    exact ⟨rfl, rfl⟩
  · rintro ⟨rfl, rfl⟩
    rfl

/-! ## The steps of the pass -/

theorem modifyAnalysis_eq_ok {f : Analysis → Analysis} {u : PUnit} :
    modifyAnalysis f b = .ok (u, b') ↔ b' = b.mapAnalysis f := by
  constructor
  · intro h
    cases h
    rfl
  · rintro rfl
    rfl

theorem recordPosition_steps {node : Node} {u : PUnit} (h : recordPosition node b = .ok (u, b')) :
    Steps ids b b' := by
  unfold recordPosition at h
  split at h
  · rw [modifyAnalysis_eq_ok] at h
    exact h ▸ .single (.position _ _)
  · rw [pure_eq_ok] at h
    exact h.2 ▸ .refl

theorem arena_recordPosition {node : Node} {u : PUnit}
    (h : recordPosition node b = .ok (u, b')) : b'.arena = b.arena := by
  unfold recordPosition at h
  split at h
  · rw [modifyAnalysis_eq_ok] at h
    rw [h]
    rfl
  · rw [pure_eq_ok] at h
    rw [h.2]

theorem report_steps {fault : Fault} {u : PUnit} (h : report fault b = .ok (u, b')) :
    b.recovery = true ∧ Steps ids b b' := by
  simp only [report, bind_eq_ok, get_eq_ok] at h
  obtain ⟨_, _, ⟨rfl, rfl⟩, h⟩ := h
  split at h
  · next hr =>
    cases h
    exact ⟨hr, .single (.fault _ _ hr)⟩
  · cases h

theorem enter_steps {node : Node} {scope : ScopeId} {u : PUnit} (mem : node.id ∈ ids)
    (h : enter node scope b = .ok (u, b')) : Steps ids b b' := by
  simp only [enter, bind_eq_ok, modifyAnalysis_eq_ok] at h
  obtain ⟨_, _, rfl, h⟩ := h
  exact .head (.enter _ mem) (recordPosition_steps h)

theorem await_steps {node : Node} {scope : ScopeId} {r : Reference} {u : PUnit}
    (mem : node.id ∈ ids) (hosts : b.Hosts scope) (h : await node scope r b = .ok (u, b')) :
    Steps ids b b' := by
  cases h
  exact .single (.await _ mem hosts)

/-- A declaration gives a new symbol, or else a fault was reported. -/
theorem declare_steps {scope : ScopeId} {d : Declaration} {id? : Option SymbolId}
    (mem : d.node.id ∈ ids) (known : b.HasScope scope) (admits : b.arena.Admits scope d)
    (opened : b.Opened ids scope d.node.id)
    (h : declare scope d b = .ok (id?, b')) :
    Steps ids b b' ∧
      ∀ id, id? = some id → id < b'.arena.symbols.size ∧
        b'.arena.symbol id = b.arena.declared scope d := by
  simp only [declare, bind_eq_ok, get_eq_ok] at h
  obtain ⟨_, _, ⟨rfl, rfl⟩, h⟩ := h
  cases hd : b.analysis.arena.declare scope d with
  | ok p =>
    obtain ⟨id, arena⟩ := p
    simp only [hd, bind_eq_ok, modifyAnalysis_eq_ok, pure_eq_ok] at h
    rw [Arena.declare_eq_ok_iff] at hd
    obtain ⟨free, rfl, rfl⟩ := hd
    obtain ⟨_, b₁, rfl, _, b₂, hpos, rfl, rfl⟩ := h
    have arena_eq : b₂.arena = b.arena.withDeclared scope d := arena_recordPosition hpos
    refine ⟨.head (.declare _ mem known free admits opened) (recordPosition_steps hpos), ?_⟩
    rintro _ ⟨⟩
    rw [arena_eq]
    refine ⟨?_, ?_⟩
    · simp [Arena.withDeclared, Arena.modifyScope]
    · rw [Arena.symbol_withDeclared, if_pos rfl]
  | error fault =>
    simp only [hd, bind_eq_ok, pure_eq_ok] at h
    obtain ⟨_, _, hr, rfl, rfl⟩ := h
    exact ⟨(report_steps hr).2, by simp⟩

/-- Declaring a variable. -/
theorem declareVar_steps {scope : ScopeId} {name : String} {ty : Ty} {node : Node}
    {id? : Option SymbolId} (mem : node.id ∈ ids) (opens : b.Opens ids scope)
    (h : declare scope (.var name ty node) b = .ok (id?, b')) : Steps ids b b' :=
  (declare_steps mem opens.hosts.1 (.of_direct (admits_var opens.hosts.2 name ty node) rfl)
    (opens.opened _) h).1

theorem createScope_eq_ok {node : NodeId} {kind : ScopeKind} {enclosing : ScopeId} {ordered : Bool}
    {scope : ScopeId} :
    createScope node kind enclosing ordered b = .ok (scope, b') ↔
      scope = b.arena.scopes.size ∧
        b' = b.mapAnalysis fun a =>
          { a with
            arena := (a.arena.newScope kind (some enclosing) ordered).2
            createdScopes := a.createdScopes.insert node a.arena.scopes.size } := by
  constructor
  · intro h
    cases h
    exact ⟨rfl, rfl⟩
  · rintro ⟨rfl, rfl⟩
    rfl

theorem kind_createScope {node : NodeId} {kind : ScopeKind} {enclosing : ScopeId} {ordered : Bool}
    {scope : ScopeId} (h : createScope node kind enclosing ordered b = .ok (scope, b')) :
    (b'.arena.scope scope).kind = kind := by
  obtain ⟨rfl, rfl⟩ := createScope_eq_ok.mp h
  show ((b.arena.newScope kind (some enclosing) ordered).2.scope _).kind = kind
  rw [Arena.scope_newScope, if_pos rfl]

theorem createScope_steps {node : NodeId} {kind : ScopeKind} {enclosing : ScopeId} {ordered : Bool}
    {scope : ScopeId} (mem : node ∈ ids) (dynamic : kind = .function node ∨ kind = .block node)
    (hosts : b.Hosts enclosing)
    (h : createScope node kind enclosing ordered b = .ok (scope, b')) :
    Steps ids b b' ∧ b'.Opens ids scope := by
  have kind_eq := kind_createScope h
  obtain ⟨rfl, rfl⟩ := createScope_eq_ok.mp h
  refine ⟨.single (.scope _ mem dynamic hosts), ?_⟩
  rcases dynamic with rfl | rfl
  · exact opens_of_dynamic mem (.inl kind_eq)
  · exact opens_of_dynamic mem (.inr kind_eq)

theorem declareCaptures_steps {scope : ScopeId} {u : PUnit} (captures : List Capture)
    (sub : captures.map (·.node.id) ⊆ ids) (opens : b.Opens ids scope)
    (h : declareCaptures scope captures b = .ok (u, b')) : Steps ids b b' := by
  induction captures generalizing b with
  | nil =>
    rw [declareCaptures, pure_eq_ok] at h
    exact h.2 ▸ .refl
  | cons c rest ih =>
    simp only [declareCaptures, bind_eq_ok] at h
    obtain ⟨_, b₁, hd, h⟩ := h
    rw [List.map_cons, List.cons_subset] at sub
    have s := declareVar_steps sub.1 opens hd
    exact s.trans (ih sub.2 (s.opens opens) h)

theorem declareParams_steps {scope : ScopeId} {u : PUnit} (params : List Param)
    (sub : params.map (·.node.id) ⊆ ids) (opens : b.Opens ids scope)
    (h : declareParams scope params b = .ok (u, b')) : Steps ids b b' := by
  induction params generalizing b with
  | nil =>
    rw [declareParams, pure_eq_ok] at h
    exact h.2 ▸ .refl
  | cons p rest ih =>
    simp only [declareParams, bind_eq_ok] at h
    obtain ⟨_, b₁, hd, h⟩ := h
    rw [List.map_cons, List.cons_subset] at sub
    have s := declareVar_steps sub.1 opens hd
    exact s.trans (ih sub.2 (s.opens opens) h)

end Build

end CellScript
