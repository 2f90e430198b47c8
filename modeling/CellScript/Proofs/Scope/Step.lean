import CellScript.Proofs.Scope.Formed
import CellScript.Proofs.Scope.Nodes
import CellScript.Scope.Build
import Mathlib.Logic.Relation

/-!
# The steps of the first pass

The first pass over a program takes only a few kinds of steps: it creates scopes, declares symbols,
notes nodes and references, and shows libraries to other units. `Build.Step` lists them with all
that is known when one is taken. Whatever every step preserves holds when the pass has ended, so
later modules prove invariants step by step and never look at the pass itself.

* `Build.Step` — one step, labelled by the nodes it may enter into the tables
* `Build.Steps.sameSymbol`, `Build.Steps.sameScope` — what was created stays as it is
* `Build.Steps.formed` — the arena stays well-formed
-/

namespace CellScript

namespace Building

/-- The state with another analysis. -/
def mapAnalysis (b : Building) (f : Analysis → Analysis) : Building :=
  { b with analysis := f b.analysis }

/-- The arena built so far. -/
abbrev arena (b : Building) : Arena := b.analysis.arena

/-- The scope has been created. -/
def HasScope (b : Building) (scope : ScopeId) : Prop := scope < b.arena.scopes.size

/-- The scope has been created, and expressions are evaluated in it. -/
def Hosts (b : Building) (scope : ScopeId) : Prop :=
  b.HasScope scope ∧ (b.arena.scope scope).kind.hosts = true

/-- The scope has been created, and owners of scopes are declared in it. -/
def Nests (b : Building) (scope : ScopeId) : Prop :=
  (b.arena.scope scope).kind = .units ∨ ∃ s, (b.arena.scope scope).kind = .members s

/-- The symbol has been declared, and is not an import, alias, export or global name. -/
def HasOwner (b : Building) (owner : SymbolId) : Prop :=
  owner < b.arena.symbols.size ∧ (b.arena.symbol owner).binding = .direct

/-- So far only units have members. -/
def OnlyUnits (b : Building) : Prop :=
  ∀ s σ, (b.arena.symbol s).members = some σ → (b.arena.symbol s).scope = Analysis.unitsScope

/-- A symbol may be declared in the scope under a node while nodes of `ids` are visited: the node to
which the scope belongs is one of them. Modules show names to other units at any time. -/
def Opened (b : Building) (ids : List NodeId) (scope : ScopeId) (node : NodeId) : Prop :=
  match (b.arena.scope scope).kind with
  | .global | .units => node.asGlobalName ∈ ids
  | .members s => (b.arena.symbol s).node.id ∈ ids
  | .exports _ => True
  | .function n | .block n => n ∈ ids

theorem Opened.mono {b : Building} {ids more : List NodeId} {scope : ScopeId} {node : NodeId}
    (sub : ids ⊆ more) (h : b.Opened ids scope node) : b.Opened more scope node := by
  unfold Opened at h ⊢
  split at h
  · exact sub h
  · exact sub h
  · exact sub h
  · trivial
  · exact sub h
  · exact sub h

end Building

namespace Build

/-- The analysis after the creation of the scope of the members of a symbol. -/
def addMembers (node : NodeId) (owner : SymbolId) (enclosing : ScopeId) (a : Analysis) : Analysis :=
  { a with
    arena := (a.arena.newScope (.members owner) (some enclosing) false).2.setMembers owner
      a.arena.scopes.size
    createdScopes := a.createdScopes.insert node a.arena.scopes.size }

/-- One step of the first pass. Tables are entered under nodes of `ids` only. -/
inductive Step (ids : List NodeId) : Building → Building → Prop where
  | position (b : Building) (node : Node) :
    Step ids b (b.mapAnalysis fun a => { a with positions := (node.id, node.span) :: a.positions })
  | fault (b : Building) (fault : Fault) (recovery : b.recovery = true) :
    Step ids b (b.mapAnalysis fun a => { a with faults := a.faults ++ [fault] })
  | enter (b : Building) {node : NodeId} {scope : ScopeId} (mem : node ∈ ids) :
    Step ids b (b.mapAnalysis fun a => { a with nodeScopes := a.nodeScopes.insert node scope })
  | await (b : Building) {node : Node} {scope : ScopeId} {r : Reference} (mem : node.id ∈ ids)
    (hosts : b.Hosts scope) :
    Step ids b { b with pending := ⟨node, scope, r, b.arena.symbols.size⟩ :: b.pending }
  | declare (b : Building) {scope : ScopeId} {d : Declaration} (mem : d.node.id ∈ ids)
    (known : b.HasScope scope) (free : (b.arena.scope scope).get? d.name = none)
    (admits : b.arena.Admits scope d) (opened : b.Opened ids scope d.node.id) :
    Step ids b (b.mapAnalysis fun a =>
      { a with
        arena := a.arena.withDeclared scope d
        definitions := a.definitions.insert d.node.id a.arena.symbols.size })
  | scope (b : Building) {node : NodeId} {kind : ScopeKind} {enclosing : ScopeId} {ordered : Bool}
    (mem : node ∈ ids) (dynamic : kind = .function node ∨ kind = .block node)
    (hosts : b.Hosts enclosing) :
    Step ids b (b.mapAnalysis fun a =>
      { a with
        arena := (a.arena.newScope kind (some enclosing) ordered).2
        createdScopes := a.createdScopes.insert node a.arena.scopes.size })
  | members (b : Building) {node : NodeId} {owner : SymbolId} {enclosing : ScopeId}
    (mem : node ∈ ids) (declared : b.HasOwner owner) (own : (b.arena.symbol owner).node.id = node)
    (owning : (b.arena.symbol owner).target.isScoped = true)
    (nested : ∃ s, (b.arena.scope (b.arena.symbol owner).scope).kind = .members s)
    (bare : (b.arena.symbol owner).members = none) (nests : b.Nests enclosing)
    (around : b.arena.Surrounds owner (some enclosing)) :
    Step ids b (b.mapAnalysis (addMembers node owner enclosing))
  | exports (b : Building) {owner : SymbolId} {enclosing : ScopeId} (nests : b.Nests enclosing)
    (declared : b.HasOwner owner) (module : (b.arena.symbol owner).target = .module)
    (closed : (b.arena.symbol owner).exports = none) :
    Step ids b (b.mapAnalysis fun a =>
      { a with
        arena := (a.arena.newScope (.exports owner) (some enclosing) false).2.setExports owner
          a.arena.scopes.size })
  | unit (b : Building) {path : String} {node : NodeId} {symbol : SymbolId} (mem : node ∈ ids)
    (name : node.asGlobalName ∈ ids) (declared : b.HasOwner symbol)
    (own : (b.arena.symbol symbol).node.id = node) (called : (b.arena.symbol symbol).name = path)
    (owning : (b.arena.symbol symbol).target.isScoped = true)
    (home : (b.arena.symbol symbol).scope = Analysis.unitsScope)
    (bare : (b.arena.symbol symbol).members = none) (early : b.OnlyUnits) :
    Step ids b (b.mapAnalysis fun a =>
      { addMembers node symbol Analysis.unitsScope a with units := a.units.insert path symbol })
  | publish (b : Building) {exports : ScopeId} {name : String} {symbol : SymbolId}
    (declared : b.HasOwner symbol) (free : (b.arena.scope exports).get? name = none)
    (shared : ∃ s, (b.arena.scope exports).kind = .exports s ∧
      (b.arena.scope (b.arena.symbol symbol).scope).kind = .members s)
    (called : (b.arena.symbol symbol).name = name)
    (library : (b.arena.symbol symbol).target = .library)
    (shown : (b.arena.symbol symbol).exported = true) :
    Step ids b (b.mapAnalysis fun a =>
      { a with arena := a.arena.modifyScope exports fun s =>
          { s with names := s.names.insert name symbol } })

/-- Any number of steps. -/
def Steps (ids : List NodeId) : Building → Building → Prop := Relation.ReflTransGen (Step ids)

variable {ids more : List NodeId} {b b' b'' : Building}

theorem Steps.refl : Steps ids b b := Relation.ReflTransGen.refl

theorem Steps.single (s : Step ids b b') : Steps ids b b' := Relation.ReflTransGen.single s

theorem Steps.trans (s : Steps ids b b') (t : Steps ids b' b'') : Steps ids b b'' :=
  Relation.ReflTransGen.trans s t

theorem Steps.head (s : Step ids b b') (t : Steps ids b' b'') : Steps ids b b'' :=
  (Steps.single s).trans t

theorem Step.mono (h : ids ⊆ more) (s : Step ids b b') : Step more b b' := by
  cases s with
  | position node => exact .position _ _
  | fault fault recovery => exact .fault _ _ recovery
  | enter mem => exact .enter _ (h mem)
  | await mem hosts => exact .await _ (h mem) hosts
  | declare mem known free admits opened =>
    exact .declare _ (h mem) known free admits (opened.mono h)
  | scope mem dynamic hosts => exact .scope _ (h mem) dynamic hosts
  | members mem declared own owning nested bare nests around =>
    exact .members _ (h mem) declared own owning nested bare nests around
  | exports nests declared module closed => exact .exports _ nests declared module closed
  | unit mem name declared own called owning home bare early =>
    exact .unit _ (h mem) (h name) declared own called owning home bare early
  | publish declared free shared called library shown =>
    exact .publish _ declared free shared called library shown

theorem Steps.mono (h : ids ⊆ more) (s : Steps ids b b') : Steps more b b' :=
  Relation.ReflTransGen.mono (fun _ _ => Step.mono h) _ _ s

/-- Whatever every step preserves is preserved by any number of steps. -/
theorem Steps.preserve {P : Building → Prop} (step : ∀ b b', Step ids b b' → P b → P b')
    (s : Steps ids b b') (h : P b) : P b' := by
  induction s with
  | refl => exact h
  | tail _ last ih => exact step _ _ last ih

/-! ## What steps leave alone -/

theorem Step.size_scopes_le (s : Step ids b b') :
    b.arena.scopes.size ≤ b'.arena.scopes.size := by
  cases s <;>
    simp [Building.mapAnalysis, Building.arena, Arena.withDeclared, Arena.modifyScope,
      Arena.newScope, Arena.setMembers, Arena.setExports, Arena.modifySymbol, addMembers]

/-- A scope stays. -/
theorem Steps.hasScope {scope : ScopeId} (s : Steps ids b b') (h : b.HasScope scope) :
    b'.HasScope scope :=
  s.preserve (P := fun b => b.HasScope scope)
    (fun _ _ step h => Nat.lt_of_lt_of_le h step.size_scopes_le) h

/-- Nothing about a declared symbol changes but the scopes it owns. -/
structure SameSymbol (s s' : Symbol) : Prop where
  declaration : s'.toDeclaration = s.toDeclaration
  scope : s'.scope = s.scope
  slot : s'.slot = s.slot
  resolved : s'.resolved = s.resolved

theorem SameSymbol.refl (s : Symbol) : SameSymbol s s := ⟨rfl, rfl, rfl, rfl⟩

theorem SameSymbol.trans {s s' s'' : Symbol} (h : SameSymbol s s') (h' : SameSymbol s' s'') :
    SameSymbol s s'' :=
  ⟨h'.declaration.trans h.declaration, h'.scope.trans h.scope, h'.slot.trans h.slot,
    h'.resolved.trans h.resolved⟩

theorem sameSymbol_modifySymbol {a : Arena} {owner id : SymbolId} {f : Symbol → Symbol}
    (h : ∀ s, SameSymbol s (f s)) :
    SameSymbol (a.symbol id) ((a.modifySymbol owner f).symbol id) := by
  rw [Arena.symbol_modifySymbol]
  split
  · exact h _
  · exact .refl _

/-- A declared symbol stays, with all that its declaration says. -/
theorem Step.sameSymbol (s : Step ids b b') {id : SymbolId} (h : id < b.arena.symbols.size) :
    id < b'.arena.symbols.size ∧ SameSymbol (b.arena.symbol id) (b'.arena.symbol id) := by
  cases s with
  | position node => exact ⟨h, .refl _⟩
  | fault fault recovery => exact ⟨h, .refl _⟩
  | enter mem => exact ⟨h, .refl _⟩
  | await mem hosts => exact ⟨h, .refl _⟩
  | @declare scope d mem known free admits opened =>
    refine ⟨?_, ?_⟩
    · simp only [Building.mapAnalysis, Building.arena, Arena.withDeclared, Arena.modifyScope,
        Array.size_push]
      exact Nat.lt_succ_of_lt h
    · show SameSymbol _ ((b.arena.withDeclared scope d).symbol id)
      rw [Arena.symbol_withDeclared, if_neg (Nat.ne_of_lt h)]
      exact .refl _
  | scope mem dynamic hosts => exact ⟨h, .refl _⟩
  | members mem declared own owning nested bare nests around =>
    refine ⟨?_, sameSymbol_modifySymbol fun s => ⟨rfl, rfl, rfl, rfl⟩⟩
    simpa [Building.mapAnalysis, Building.arena, addMembers, Arena.setMembers, Arena.modifySymbol,
      Arena.newScope] using h
  | exports nests =>
    refine ⟨?_, sameSymbol_modifySymbol fun s => ⟨rfl, rfl, rfl, rfl⟩⟩
    simpa [Building.mapAnalysis, Building.arena, Arena.setExports, Arena.modifySymbol,
      Arena.newScope] using h
  | unit mem name declared own called owning home bare =>
    refine ⟨?_, sameSymbol_modifySymbol fun s => ⟨rfl, rfl, rfl, rfl⟩⟩
    simpa [Building.mapAnalysis, Building.arena, addMembers, Arena.setMembers, Arena.modifySymbol,
      Arena.newScope] using h
  | publish declared free shared => exact ⟨h, .refl _⟩

theorem Steps.sameSymbol (s : Steps ids b b') {id : SymbolId} (h : id < b.arena.symbols.size) :
    id < b'.arena.symbols.size ∧ SameSymbol (b.arena.symbol id) (b'.arena.symbol id) := by
  induction s with
  | refl => exact ⟨h, .refl _⟩
  | tail _ last ih =>
    obtain ⟨hlt, hsame⟩ := ih
    obtain ⟨hlt', hsame'⟩ := last.sameSymbol hlt
    exact ⟨hlt', hsame.trans hsame'⟩

theorem Steps.target (s : Steps ids b b') {id : SymbolId} (h : id < b.arena.symbols.size) :
    (b'.arena.symbol id).target = (b.arena.symbol id).target :=
  congrArg Declaration.target (s.sameSymbol h).2.declaration

/-- New symbols are declared under the nodes of the steps. -/
theorem Steps.symbolNode (s : Steps ids b b') {id : SymbolId} (h : id < b'.arena.symbols.size) :
    id < b.arena.symbols.size ∨ (b'.arena.symbol id).node.id ∈ ids := by
  induction s with
  | refl => exact .inl h
  | @tail b₁ b₂ first last ih =>
    have old : id < b₁.arena.symbols.size →
        id < b.arena.symbols.size ∨ (b₂.arena.symbol id).node.id ∈ ids := by
      intro known
      have same : (b₂.arena.symbol id).node = (b₁.arena.symbol id).node :=
        congrArg Declaration.node (last.sameSymbol known).2.declaration
      rw [same]
      exact ih known
    cases last with
    | @declare scope d mem known free admits opened =>
      change id < (b₁.arena.withDeclared scope d).symbols.size at h
      rw [Arena.size_symbols_withDeclared] at h
      rcases Nat.lt_succ_iff_lt_or_eq.mp h with h | rfl
      · exact old h
      · right
        show ((b₁.arena.withDeclared scope d).symbol _).node.id ∈ ids
        rw [Arena.symbol_withDeclared, if_pos rfl]
        exact mem
    | members mem declared own owning nested bare nests around =>
      refine old ?_
      simpa [Building.mapAnalysis, Building.arena, addMembers, Arena.setMembers, Arena.modifySymbol,
        Arena.newScope] using h
    | exports nests =>
      refine old ?_
      simpa [Building.mapAnalysis, Building.arena, Arena.setExports, Arena.modifySymbol,
        Arena.newScope] using h
    | unit mem name declared own called owning home bare =>
      refine old ?_
      simpa [Building.mapAnalysis, Building.arena, addMembers, Arena.setMembers, Arena.modifySymbol,
        Arena.newScope] using h
    | _ => exact old h

theorem Steps.hasOwner {owner : SymbolId} (s : Steps ids b b') (h : b.HasOwner owner) :
    b'.HasOwner owner := by
  obtain ⟨hlt, hsame⟩ := s.sameSymbol h.1
  exact ⟨hlt, (congrArg Declaration.binding hsame.declaration).trans h.2⟩

/-- Nothing about a scope changes but the symbols in it. -/
structure SameScope (s s' : Scope) : Prop where
  kind : s'.kind = s.kind
  enclosing : s'.enclosing = s.enclosing
  ordered : s'.ordered = s.ordered

theorem SameScope.refl (s : Scope) : SameScope s s := ⟨rfl, rfl, rfl⟩

theorem SameScope.trans {s s' s'' : Scope} (h : SameScope s s') (h' : SameScope s' s'') :
    SameScope s s'' :=
  ⟨h'.kind.trans h.kind, h'.enclosing.trans h.enclosing, h'.ordered.trans h.ordered⟩

theorem sameScope_modifyScope {a : Arena} {id other : ScopeId} {f : Scope → Scope}
    (h : ∀ s, SameScope s (f s)) :
    SameScope (a.scope other) ((a.modifyScope id f).scope other) := by
  rw [Arena.scope_modifyScope]
  split
  · exact h _
  · exact .refl _

theorem sameScope_newScope {a : Arena} {kind : ScopeKind} {enclosing : Option ScopeId}
    {ordered : Bool} {id : ScopeId} (h : id < a.scopes.size) :
    SameScope (a.scope id) ((a.newScope kind enclosing ordered).2.scope id) := by
  rw [Arena.scope_newScope, if_neg (Nat.ne_of_lt h)]
  exact .refl _

/-- A scope stays what it was created as. -/
theorem Step.sameScope (s : Step ids b b') {id : ScopeId} (h : b.HasScope id) :
    SameScope (b.arena.scope id) (b'.arena.scope id) := by
  cases s with
  | position node => exact .refl _
  | fault fault recovery => exact .refl _
  | enter mem => exact .refl _
  | await mem hosts => exact .refl _
  | declare mem known free admits opened => exact sameScope_modifyScope fun s => ⟨rfl, rfl, rfl⟩
  | scope mem dynamic hosts => exact sameScope_newScope h
  | members mem declared own owning nested bare nests around => exact sameScope_newScope h
  | exports nests => exact sameScope_newScope h
  | unit mem name declared own called owning home bare => exact sameScope_newScope h
  | publish declared free shared => exact sameScope_modifyScope fun s => ⟨rfl, rfl, rfl⟩

theorem Steps.sameScope (s : Steps ids b b') {id : ScopeId} (h : b.HasScope id) :
    SameScope (b.arena.scope id) (b'.arena.scope id) := by
  induction s with
  | refl => exact .refl _
  | tail first last ih => exact ih.trans (last.sameScope (Steps.hasScope first h))

/-- A scope keeps its kind. -/
theorem Steps.kind {scope : ScopeId} {kind : ScopeKind} (s : Steps ids b b')
    (h : (b.arena.scope scope).kind = kind) (created : kind ≠ .global) :
    (b'.arena.scope scope).kind = kind := by
  have known : b.HasScope scope := Arena.lt_size_of_kind (by rw [h]; exact created)
  rw [(s.sameScope known).kind, h]

/-- A scope in which expressions are evaluated stays one. -/
theorem Steps.hosts {scope : ScopeId} (s : Steps ids b b') (h : b.Hosts scope) : b'.Hosts scope :=
  ⟨s.hasScope h.1, by rw [(s.sameScope h.1).kind]; exact h.2⟩

theorem Steps.nests {scope : ScopeId} (s : Steps ids b b') (h : b.Nests scope) :
    b'.Nests scope := by
  rcases h with h | ⟨owner, h⟩
  · exact .inl (s.kind h (fun h => by cases h))
  · exact .inr ⟨owner, s.kind h (fun h => by cases h)⟩

theorem Step.recovery (s : Step ids b b') : b'.recovery = b.recovery := by
  cases s <;> rfl

theorem Steps.recovery (s : Steps ids b b') : b'.recovery = b.recovery := by
  induction s with
  | refl => rfl
  | tail _ last ih => rw [last.recovery, ih]

/-! ## What steps enter into the tables -/

/-- The tables by node say the same about a node in both states. -/
structure SameEntries (b b' : Building) (node : NodeId) : Prop where
  created : b'.analysis.createdScopes.get? node = b.analysis.createdScopes.get? node
  nodeScope : b'.analysis.nodeScopes.get? node = b.analysis.nodeScopes.get? node
  definition : b'.analysis.definitions.get? node = b.analysis.definitions.get? node

theorem SameEntries.refl (b : Building) (node : NodeId) : SameEntries b b node := ⟨rfl, rfl, rfl⟩

theorem SameEntries.trans {node : NodeId} (h : SameEntries b b' node)
    (h' : SameEntries b' b'' node) :
    SameEntries b b'' node :=
  ⟨h'.created.trans h.created, h'.nodeScope.trans h.nodeScope, h'.definition.trans h.definition⟩

theorem Step.sameEntries (s : Step ids b b') {node : NodeId} (h : node ∉ ids) :
    SameEntries b b' node := by
  have other : ∀ {α : Type} (t : Table NodeId α) {key : NodeId} (v : α), key ∈ ids →
      (t.insert key v).get? node = t.get? node := by
    intro α t key v hk
    rw [Table.get?_insert, if_neg]
    rintro rfl
    exact h hk
  cases s with
  | position node => exact ⟨rfl, rfl, rfl⟩
  | fault fault recovery => exact ⟨rfl, rfl, rfl⟩
  | enter mem => exact ⟨rfl, other _ _ mem, rfl⟩
  | await mem hosts => exact ⟨rfl, rfl, rfl⟩
  | declare mem known free admits opened => exact ⟨rfl, rfl, other _ _ mem⟩
  | scope mem dynamic hosts => exact ⟨other _ _ mem, rfl, rfl⟩
  | members mem declared own owning nested bare nests around => exact ⟨other _ _ mem, rfl, rfl⟩
  | exports nests => exact ⟨rfl, rfl, rfl⟩
  | unit mem name declared own called owning home bare => exact ⟨other _ _ mem, rfl, rfl⟩
  | publish declared free shared => exact ⟨rfl, rfl, rfl⟩

/-- Nothing is entered under nodes that steps do not belong to. -/
theorem Steps.sameEntries (s : Steps ids b b') {node : NodeId} (h : node ∉ ids) :
    SameEntries b b' node := by
  induction s with
  | refl => exact .refl _ _
  | tail _ last ih => exact ih.trans (last.sameEntries h)

/-- A reference that waits goes on waiting, and new ones belong to the nodes of the steps. -/
theorem Steps.pending (s : Steps ids b b') {p : PendingReference} :
    (p ∈ b.pending → p ∈ b'.pending) ∧ (p ∈ b'.pending → p ∈ b.pending ∨ p.node.id ∈ ids) := by
  induction s with
  | refl => exact ⟨id, .inl⟩
  | @tail b₁ b₂ _ last ih =>
    have step : (p ∈ b₁.pending → p ∈ b₂.pending) ∧
        (p ∈ b₂.pending → p ∈ b₁.pending ∨ p.node.id ∈ ids) := by
      cases last with
      | await mem hosts =>
        refine ⟨List.mem_cons_of_mem _, fun hp => ?_⟩
        rcases List.mem_cons.mp hp with rfl | hp
        · exact .inr mem
        · exact .inl hp
      | _ => exact ⟨id, .inl⟩
    refine ⟨fun hp => step.1 (ih.1 hp), fun hp => ?_⟩
    rcases step.2 hp with hp | hp
    · exact ih.2 hp
    · exact .inr hp

/-- References wait in scopes where expressions are evaluated. -/
theorem Steps.pendingHosts (s : Steps ids b b') (h : ∀ p ∈ b.pending, b.Hosts p.scope) :
    ∀ p ∈ b'.pending, b'.Hosts p.scope := by
  induction s with
  | refl => exact h
  | @tail b₁ b₂ _ last ih =>
    intro p hp
    have stays : ∀ {p : PendingReference}, p ∈ b₁.pending → b₂.Hosts p.scope :=
      fun hp => (Steps.single last).hosts (ih _ hp)
    cases last with
    | await mem hosts =>
      rcases List.mem_cons.mp hp with rfl | hp
      · exact hosts
      · exact ih p hp
    | _ => exact stays hp

/-- The owner of the scope, if it has one, has been declared. -/
def Owned (b : Building) (scope : ScopeId) : Prop :=
  ∀ s, (b.arena.scope scope).kind = .members s → s < b.arena.symbols.size

theorem owned_of_isDynamic {scope : ScopeId}
    (h : (b.arena.scope scope).kind.isDynamic = true) : Owned b scope := by
  intro s hs
  rw [hs] at h
  cases h

/-- A scope goes on belonging to the same node. -/
theorem Steps.opened_iff {few : List NodeId} {scope : ScopeId} {node : NodeId} (s : Steps ids b b')
    (known : b.HasScope scope) (owned : Owned b scope) :
    b'.Opened few scope node ↔ b.Opened few scope node := by
  unfold Building.Opened
  rw [(s.sameScope known).kind]
  cases hk : (b.arena.scope scope).kind with
  | members owner =>
    have same : (b'.arena.symbol owner).node = (b.arena.symbol owner).node :=
      congrArg Declaration.node (s.sameSymbol (owned owner hk)).2.declaration
    simp only [same]
  | _ => exact Iff.rfl

/-- A scope changes only while the node to which it belongs is visited, or libraries are shown in
it. -/
theorem Steps.closed (s : Steps ids b b') {scope : ScopeId} (known : b.HasScope scope)
    (owned : Owned b scope) (inner : ∀ owner, (b.arena.scope scope).kind ≠ .exports owner)
    (closed : ∀ node ∈ ids, ¬ b.Opened ids scope node) :
    b'.arena.scope scope = b.arena.scope scope := by
  induction s with
  | refl => rfl
  | @tail b₁ b₂ first last ih =>
    have known₁ := Steps.hasScope first known
    rw [← ih]
    have created : ∀ {a : Arena} {kind : ScopeKind} {enclosing : Option ScopeId} {ordered : Bool},
        scope < a.scopes.size →
          (a.newScope kind enclosing ordered).2.scope scope = a.scope scope := by
      intro a kind enclosing ordered hlt
      rw [Arena.scope_newScope, if_neg (Nat.ne_of_lt hlt)]
    cases last with
    | @declare into d mem knownInto free admits opened =>
      show (b₁.arena.withDeclared into d).scope scope = _
      rw [Arena.scope_withDeclared_ne]
      rintro rfl
      exact closed _ mem ((Steps.opened_iff first known owned).mp opened)
    | publish declared free shared =>
      show (Arena.modifyScope _ _ _).scope scope = _
      rw [Arena.scope_modifyScope_ne]
      rintro rfl
      obtain ⟨owner, kind, -⟩ := shared
      exact inner owner ((Steps.sameScope first known).kind.symm.trans kind)
    | scope mem dynamic hosts => exact created known₁
    | members mem declared own owning nested bare nests around => exact created known₁
    | exports nests => exact created known₁
    | unit mem name declared own called owning home bare => exact created known₁
    | _ => rfl

/-- Only its own node adds names to a function or a block. -/
theorem Steps.dynamicScope (s : Steps ids b b') {scope : ScopeId} {n : NodeId}
    (h : (b.arena.scope scope).kind = .function n ∨ (b.arena.scope scope).kind = .block n)
    (absent : n ∉ ids) : b'.arena.scope scope = b.arena.scope scope := by
  have dynamic : (b.arena.scope scope).kind.isDynamic = true := by
    rcases h with h | h <;> rw [h] <;> rfl
  refine s.closed (Arena.lt_size_of_kind ?_) (owned_of_isDynamic dynamic) (fun owner => ?_)
    fun node _ opened => absent ?_
  · rcases h with h | h <;> rw [h] <;> exact fun h => by cases h
  · rcases h with h | h <;> rw [h] <;> exact fun h => by cases h
  · unfold Building.Opened at opened
    rcases h with h | h <;> rw [h] at opened <;> exact opened

theorem Steps.dynamicSlots (s : Steps ids b b') {scope : ScopeId} {n : NodeId}
    (h : (b.arena.scope scope).kind = .function n ∨ (b.arena.scope scope).kind = .block n)
    (absent : n ∉ ids) : (b'.arena.scope scope).slots = (b.arena.scope scope).slots :=
  congrArg Scope.slots (s.dynamicScope h absent)

/-! ## What steps preserve -/

/-- The arena is well-formed, and the units by path are declared among the units and have
members. -/
structure Formed (b : Building) : Prop where
  arena : b.arena.Formed
  unit : ∀ path s, Entries.get? b.analysis.units path = some s →
    b.HasOwner s ∧ (b.arena.symbol s).scope = Analysis.unitsScope ∧
      (b.arena.symbol s).members.isSome = true
  /-- What owns a scope and is declared among the units is found by its path. -/
  path : ∀ s, (b.arena.symbol s).scope = Analysis.unitsScope →
    (b.arena.symbol s).members.isSome = true →
      Entries.get? b.analysis.units (b.arena.symbol s).name = some s

theorem Nests.lt {b : Building} {scope : ScopeId} (h : b.Nests scope) : b.HasScope scope := by
  refine Arena.lt_size_of_kind ?_
  rcases h with h | ⟨s, h⟩
  · rw [h]
    exact fun h => by cases h
  · rw [h]
    exact fun h => by cases h

theorem Nests.static {b : Building} {scope : ScopeId} (h : b.Nests scope) :
    (b.arena.scope scope).kind.isDynamic = false ∧
      ∀ s, (b.arena.scope scope).kind ≠ .exports s := by
  rcases h with h | ⟨s, h⟩
  · rw [h]
    exact ⟨rfl, fun s h => by cases h⟩
  · rw [h]
    exact ⟨rfl, fun s h => by cases h⟩

theorem Step.formedArena (step : Step ids b b') (h : b.arena.Formed) : b'.arena.Formed := by
  cases step with
  | position node => exact h
  | fault fault recovery => exact h
  | enter mem => exact h
  | await mem hosts => exact h
  | declare mem known free admits opened => exact h.withDeclared known free admits
  | scope mem dynamic hosts =>
    refine h.newScope ?_ hosts.1 hosts.2
    rcases dynamic with rfl | rfl <;> rfl
  | members mem declared own owning nested bare nests around =>
    exact h.newMembers declared.1 declared.2 owning bare (Nests.lt nests) (Nests.static nests).1
      (Nests.static nests).2 around
  | exports nests =>
    exact h.newExports (Nests.lt nests) (Nests.static nests).1 (Nests.static nests).2
  | unit mem name declared own called owning home bare =>
    have nests : b.Nests Analysis.unitsScope := .inl ((h.units _).mpr rfl)
    exact h.newMembers declared.1 declared.2 owning bare (Nests.lt nests) (Nests.static nests).1
      (Nests.static nests).2 (.inl (congrArg some home.symm))
  | publish declared free shared => exact h.publish declared.1 declared.2 free shared

/-- A symbol that owns scopes goes on owning them, and its members stay where they are. -/
structure Owning (s s' : Symbol) : Prop where
  members : ∀ σ, s.members = some σ → s'.members = some σ
  exports : s.exports.isSome = true → s'.exports.isSome = true

theorem Owning.isSome {s s' : Symbol} (h : Owning s s') (members : s.members.isSome = true) :
    s'.members.isSome = true := by
  obtain ⟨σ, hs⟩ := Option.isSome_iff_exists.mp members
  rw [h.members σ hs]
  rfl

theorem Step.owning (step : Step ids b b') {s : SymbolId} (known : s < b.arena.symbols.size) :
    Owning (b.arena.symbol s) (b'.arena.symbol s) := by
  have modified : ∀ {a : Arena} {owner : SymbolId} {f : Symbol → Symbol}, a.symbol s =
      b.arena.symbol s → (s = owner → Owning (b.arena.symbol s) (f (b.arena.symbol s))) →
      Owning (b.arena.symbol s) ((a.modifySymbol owner f).symbol s) := by
    intro a owner f ha hf
    rw [Arena.symbol_modifySymbol, ha]
    split
    · next same => exact hf same.1
    · exact ⟨fun _ h => h, id⟩
  -- Whoever gets members had none before.
  have bare : ∀ {owner : SymbolId} {σ : ScopeId}, (b.arena.symbol owner).members = none →
      s = owner → Owning (b.arena.symbol s) { b.arena.symbol s with members := some σ } := by
    rintro owner σ none rfl
    refine ⟨fun τ h => ?_, id⟩
    rw [none] at h
    cases h
  cases step with
  | @declare scope d mem knownScope free admits opened =>
    show Owning _ ((b.arena.withDeclared scope d).symbol s)
    rw [Arena.symbol_withDeclared, if_neg (Nat.ne_of_lt known)]
    exact ⟨fun _ h => h, id⟩
  | members mem declared own owning nested none nests around => exact modified rfl (bare none)
  | exports nests => exact modified rfl fun _ => ⟨fun _ h => h, fun _ => rfl⟩
  | unit mem name declared own called owning home none => exact modified rfl (bare none)
  | _ => exact ⟨fun _ h => h, id⟩

theorem Steps.owning (s : Steps ids b b') {id : SymbolId} (known : id < b.arena.symbols.size) :
    Owning (b.arena.symbol id) (b'.arena.symbol id) := by
  induction s with
  | refl => exact ⟨fun _ h => h, fun h => h⟩
  | tail first last ih =>
    have next := last.owning (Steps.sameSymbol first known).1
    exact ⟨fun σ h => next.members σ (ih.members σ h), fun h => next.exports (ih.exports h)⟩

/-- What owns a scope and is declared among the units is entered by its path. -/
theorem Step.path (step : Step ids b b') (h : Formed b) {s : SymbolId}
    (home : (b'.arena.symbol s).scope = Analysis.unitsScope)
    (members : (b'.arena.symbol s).members.isSome = true) :
    Entries.get? b'.analysis.units (b'.arena.symbol s).name = some s := by
  -- The symbol before a scope was added, which changes only the scopes that its owner has.
  have modified : ∀ {a : Arena} {owner : SymbolId} {f : Symbol → Symbol},
      a.symbol s = b.arena.symbol s → (∀ s, (f s).scope = s.scope ∧ (f s).name = s.name) →
      ((a.modifySymbol owner f).symbol s).scope = (b.arena.symbol s).scope ∧
        ((a.modifySymbol owner f).symbol s).name = (b.arena.symbol s).name := by
    intro a owner f same keeps
    rw [Arena.symbol_modifySymbol, same]
    split
    · exact keeps _
    · exact ⟨rfl, rfl⟩
  cases step with
  | @declare scope d mem known free admits opened =>
    change ((b.arena.withDeclared scope d).symbol s).scope = _ at home
    change ((b.arena.withDeclared scope d).symbol s).members.isSome = _ at members
    show Entries.get? b.analysis.units ((b.arena.withDeclared scope d).symbol s).name = _
    rw [Arena.symbol_withDeclared] at home members ⊢
    split at members
    · cases members
    · next old =>
      rw [if_neg old] at home ⊢
      exact h.path s home members
  | @members node owner enclosing mem declared own owning nested bare nests around =>
    obtain ⟨scope, name⟩ :=
      @modified (b.arena.newScope (.members owner) (some enclosing) false).2 owner
      (fun s => { s with members := some b.arena.scopes.size }) rfl fun _ => ⟨rfl, rfl⟩
    change ((Arena.modifySymbol _ owner _).symbol s).members.isSome = true at members
    rw [Arena.symbol_modifySymbol] at members
    have home : (b.arena.symbol s).scope = Analysis.unitsScope := scope.symm.trans home
    show Entries.get? b.analysis.units ((Arena.modifySymbol _ owner _).symbol s).name = _
    rw [name]
    split at members
    · next he =>
      obtain ⟨s', kind⟩ := nested
      rw [← he.1, home, (h.arena.units _).mpr rfl] at kind
      cases kind
    · exact h.path s home members
  | @exports owner enclosing nests =>
    obtain ⟨scope, name⟩ :=
      @modified (b.arena.newScope (.exports owner) (some enclosing) false).2 owner
      (fun s => { s with exports := some b.arena.scopes.size }) rfl fun _ => ⟨rfl, rfl⟩
    change ((Arena.modifySymbol _ owner _).symbol s).members.isSome = true at members
    rw [Arena.symbol_modifySymbol] at members
    show Entries.get? b.analysis.units ((Arena.modifySymbol _ owner _).symbol s).name = _
    rw [name]
    split at members <;> exact h.path s (scope.symm.trans home) members
  | @unit path' node symbol mem named declared own called owning place bare =>
    obtain ⟨scope, name⟩ := @modified (b.arena.newScope (.members symbol) (some Analysis.unitsScope)
      false).2 symbol (fun s => { s with members := some b.arena.scopes.size }) rfl fun _ =>
        ⟨rfl, rfl⟩
    change ((Arena.modifySymbol _ symbol _).symbol s).members.isSome = true at members
    rw [Arena.symbol_modifySymbol] at members
    show Entries.get? (b.analysis.units.insert path' symbol)
      ((Arena.modifySymbol _ symbol _).symbol s).name = _
    rw [name, Entries.get?_insert]
    by_cases he : s = symbol
    · rw [he, if_pos called.symm]
    · rw [if_neg (fun hc => he hc.1)] at members
      have found := h.path s (scope.symm.trans home) members
      have known := (h.unit _ s found).1.1
      -- No two symbols have one name there.
      rw [if_neg]
      · exact found
      · intro same
        have here := h.arena.named s known
        have there := h.arena.named symbol declared.1
        rw [scope.symm.trans home] at here
        rw [place, called, same, here] at there
        cases there
        exact he rfl
  | _ => exact h.path s home members

theorem Step.formed (step : Step ids b b') (h : Formed b) : Formed b' := by
  refine ⟨step.formedArena h.arena, fun path s hs => ?_, fun s => step.path h⟩
  have old : Entries.get? b.analysis.units path = some s → b'.HasOwner s ∧
      (b'.arena.symbol s).scope = Analysis.unitsScope ∧
        (b'.arena.symbol s).members.isSome = true := by
    intro hs
    obtain ⟨owner, home, members⟩ := h.unit path s hs
    exact ⟨(Steps.single step).hasOwner owner, (step.sameSymbol owner.1).2.scope.trans home,
      (step.owning owner.1).isSome members⟩
  cases step with
  | @unit path' node symbol mem name declared own called owning home bare early =>
    change Entries.get? (b.analysis.units.insert path' symbol) path = some s at hs
    rw [Entries.get?_insert] at hs
    split at hs
    · cases hs
      have step : Step ids b (b.mapAnalysis fun a =>
          { addMembers node s Analysis.unitsScope a with units := a.units.insert path' s }) :=
        .unit b mem name declared own called owning home bare early
      refine ⟨(Steps.single step).hasOwner declared,
        (step.sameSymbol declared.1).2.scope.trans home, ?_⟩
      show ((Arena.modifySymbol _ _ _).symbol s).members.isSome = true
      rw [Arena.symbol_modifySymbol, if_pos ⟨rfl, declared.1⟩]
      rfl
    · exact old hs
  | _ => exact old hs

theorem Steps.formed (s : Steps ids b b') (h : Formed b) : Formed b' :=
  s.preserve (fun _ _ step => step.formed) h

/-! ## Steps below units, libraries and sections -/

/-- Nothing that can own a scope was declared under one of the nodes, which are not those of global
names. -/
structure Unowned (b : Building) (ids : List NodeId) : Prop where
  plain : ∀ node : NodeId, node.asGlobalName ∉ ids
  symbol : ∀ s, s < b.arena.symbols.size → (b.arena.symbol s).binding = .direct →
    (b.arena.symbol s).target.isScoped = true → (b.arena.symbol s).node.id ∉ ids

/-- No scope has got an owner. -/
structure SameOwners (b b' : Building) : Prop where
  members : ∀ s σ, (b'.arena.symbol s).members = some σ → (b.arena.symbol s).members = some σ
  units : b'.analysis.units = b.analysis.units

theorem SameOwners.trans (h : SameOwners b b') (h' : SameOwners b' b'') : SameOwners b b'' :=
  ⟨fun s σ hs => h.members s σ (h'.members s σ hs), h'.units.trans h.units⟩

theorem Step.unowned (step : Step ids b b') (formed : Formed b) (h : Unowned b ids) :
    Unowned b' ids ∧ SameOwners b b' := by
  cases step with
  | @declare scope d mem known free admits opened =>
    refine ⟨⟨h.plain, fun s hs direct owning => ?_⟩, fun s σ hs => ?_, rfl⟩
    · change ((b.arena.withDeclared scope d).symbol s).node.id ∉ ids
      change ((b.arena.withDeclared scope d).symbol s).binding = _ at direct
      change ((b.arena.withDeclared scope d).symbol s).target.isScoped = _ at owning
      change s < (b.arena.withDeclared scope d).symbols.size at hs
      rw [Arena.size_symbols_withDeclared] at hs
      rw [Arena.symbol_withDeclared] at direct owning ⊢
      by_cases new : s = b.arena.symbols.size
      · rw [if_pos new] at direct owning
        have admitted := admits.kind
        unfold Building.Opened at opened
        cases hk : (b.arena.scope scope).kind with
        | members o =>
          rw [hk] at opened
          obtain ⟨known, direct, members⟩ := formed.arena.owner scope o hk
          exact absurd opened (h.symbol o known direct (formed.arena.members o scope members).2)
        | global => exact absurd admitted (ScopeKind.not_admits_direct direct (.inl hk))
        | exports o => exact absurd admitted (ScopeKind.not_admits_direct direct (.inr ⟨o, hk⟩))
        | units =>
          rw [hk] at opened
          exact absurd opened (h.plain _)
        | function n | block n =>
          rw [hk] at admitted
          change d.target.isScoped = true at owning
          rw [admitted.2] at owning
          cases owning
      · rw [if_neg new] at direct owning ⊢
        exact h.symbol s (Nat.lt_of_le_of_ne (Nat.le_of_lt_succ hs) new) direct owning
    · change ((b.arena.withDeclared scope d).symbol s).members = _ at hs
      rw [Arena.symbol_withDeclared] at hs
      split at hs
      · cases hs
      · exact hs
  | members mem declared own owning nested bare nests around =>
    exact absurd mem (own ▸ h.symbol _ declared.1 declared.2 owning)
  | unit mem name declared own called owning home bare => exact absurd name (h.plain _)
  | @exports owner enclosing nests declared module closed =>
    refine ⟨⟨h.plain, fun s hs direct owning => ?_⟩, fun s σ hs => ?_, rfl⟩
    · have known : s < b.arena.symbols.size := by
        simpa [Building.mapAnalysis, Building.arena, Arena.setExports, Arena.modifySymbol,
          Arena.newScope] using hs
      have same :=
        ((@Step.exports ids b owner enclosing nests declared module closed).sameSymbol
          known).2.declaration
      rw [same] at direct owning ⊢
      exact h.symbol s known direct owning
    · change ((Arena.modifySymbol _ owner _).symbol s).members = _ at hs
      rw [Arena.symbol_modifySymbol] at hs
      split at hs <;> exact hs
  | _ => exact ⟨⟨h.plain, h.symbol⟩, fun _ _ hs => hs, rfl⟩

/-- Expressions own no scopes of members. -/
theorem Steps.sameOwners (s : Steps ids b b') (formed : Formed b) (h : Unowned b ids) :
    SameOwners b b' := by
  suffices both : Unowned b' ids ∧ SameOwners b b' from both.2
  induction s with
  | refl => exact ⟨h, fun _ _ hs => hs, rfl⟩
  | tail first last ih =>
    obtain ⟨unowned, same⟩ := last.unowned (Steps.formed first formed) ih.1
    exact ⟨unowned, ih.2.trans same⟩

end Build

/-- The state in which the first pass starts. -/
def Building.start (recovery : Bool) : Building := ⟨.initial, [], recovery⟩

theorem Building.formed_start (recovery : Bool) : Build.Formed (Building.start recovery) :=
  ⟨Arena.formed_initial, fun path s h => (by cases h), fun s _ members => (by cases members)⟩

theorem Building.onlyUnits_start (recovery : Bool) : (Building.start recovery).OnlyUnits :=
  fun s σ members => (by cases members)

end CellScript
