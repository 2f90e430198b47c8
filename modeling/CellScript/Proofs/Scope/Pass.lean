import CellScript.Proofs.Scope.Units

/-!
# The first pass

The first pass declares all units and visits them one after another. Each unit gets members of its
own when it is declared.

* `Build.KeepsOwners`, `Build.declareUnit_owners` — who gets members, and when
* `Build.declareUnits_steps`, `Build.visitUnits_steps` — both parts of the pass
* `buildScopes_steps` — the whole pass, from the initial state
-/

namespace CellScript

namespace Build

variable {ids : List NodeId} {b b' : Building}

/-! ## Steps that give members to no symbol -/

/-- No symbol has got members, and no node has created a scope. -/
structure Spares (b b' : Building) : Prop extends SameOwners b b' where
  created : b'.analysis.createdScopes = b.analysis.createdScopes
  recovery : b'.recovery = b.recovery

theorem Spares.refl (b : Building) : Spares b b := ⟨⟨fun _ _ hs => hs, rfl⟩, rfl, rfl⟩

theorem Spares.trans {b'' : Building} (h : Spares b b') (h' : Spares b' b'') : Spares b b'' :=
  ⟨h.toSameOwners.trans h'.toSameOwners, h'.created.trans h.created, h'.recovery.trans h.recovery⟩

/-- The step gives members to no symbol. -/
def KeepsOwners {α : Type} (x : Build α) : Prop :=
  ∀ ⦃b b' : Building⦄ ⦃v : α⦄, x b = .ok (v, b') → Spares b b'

namespace KeepsOwners

theorem pure (v : α) : KeepsOwners (Pure.pure v) := by
  intro b b' w h
  rw [pure_eq_ok] at h
  exact h.2 ▸ .refl b

theorem bind {x : Build α} {f : α → Build β} (hx : KeepsOwners x) (hf : ∀ v, KeepsOwners (f v)) :
    KeepsOwners (x >>= f) := by
  intro b b' w h
  rw [bind_eq_ok] at h
  obtain ⟨v, b₁, h₁, h⟩ := h
  exact (hx h₁).trans (hf v h)

theorem modifyAnalysis {f : Analysis → Analysis}
    (h : ∀ b : Building, Spares b (b.mapAnalysis f)) : KeepsOwners (modifyAnalysis f) := by
  intro b b' w hf
  rw [modifyAnalysis_eq_ok] at hf
  exact hf ▸ h b

theorem recordPosition (node : Node) : KeepsOwners (recordPosition node) := by
  unfold Build.recordPosition
  split
  · exact modifyAnalysis fun b => ⟨⟨fun _ _ hs => hs, rfl⟩, rfl, rfl⟩
  · exact pure _

/-- A fault ends the pass, or else it is noted. -/
theorem report (fault : Fault) : KeepsOwners (report fault) := by
  intro b b' w h
  simp only [Build.report, bind_eq_ok, get_eq_ok] at h
  obtain ⟨_, _, ⟨rfl, rfl⟩, h⟩ := h
  cases hr : b.recovery with
  | true =>
    rw [hr, if_pos rfl] at h
    cases h
    exact ⟨⟨fun _ _ hs => hs, rfl⟩, rfl, hr.symm⟩
  | false =>
    rw [hr] at h
    cases h

/-- What was just declared has no members yet. -/
theorem declare (σ : ScopeId) (d : Declaration) : KeepsOwners (declare σ d) := by
  intro b b' w h
  simp only [Build.declare, bind_eq_ok, get_eq_ok] at h
  obtain ⟨_, _, ⟨rfl, rfl⟩, h⟩ := h
  cases hd : b.analysis.arena.declare σ d with
  | error fault =>
    simp only [hd] at h
    exact (report fault).bind (fun _ => pure _) h
  | ok p =>
    simp only [hd, bind_eq_ok, modifyAnalysis_eq_ok] at h
    obtain ⟨id, arena⟩ := p
    rw [Arena.declare_eq_ok_iff] at hd
    obtain ⟨-, rfl, rfl⟩ := hd
    obtain ⟨_, b₁, rfl, h⟩ := h
    have rest := (recordPosition d.node).bind (fun _ => pure _) (b := b.mapAnalysis _)
      (bind_eq_ok.mpr h)
    refine ⟨⟨fun s τ hs => ?_, rest.units⟩, rest.created, rest.recovery⟩
    have old : ((b.arena.withDeclared σ d).symbol s).members = some τ := rest.members s τ hs
    rw [Arena.symbol_withDeclared] at old
    split at old
    · cases old
    · exact old

end KeepsOwners

/-! ## Declaring units -/

/-- Declaring a unit gives members to its symbol only, which is entered by its path. -/
theorem declareUnit_owners {u : SourceUnit} {id? : Option SymbolId}
    (h : declareUnit u b = .ok (id?, b')) :
    b'.recovery = b.recovery ∧
      (∀ path s, Entries.get? b'.analysis.units path = some s →
        Entries.get? b.analysis.units path = some s ∨ id? = some s ∧ u.path = path) ∧
      ∀ s σ, (b'.arena.symbol s).members = some σ →
        (b.arena.symbol s).members = some σ ∨ id? = some s := by
  simp only [declareUnit, bind_eq_ok] at h
  obtain ⟨declared?, b₁, hd, h⟩ := h
  have spares₁ := KeepsOwners.declare _ _ hd
  cases declared? with
  | none =>
    rw [pure_eq_ok] at h
    obtain ⟨rfl, rfl⟩ := h
    refine ⟨spares₁.recovery, fun path s hs => .inl ?_, fun s σ hs => .inl (spares₁.members s σ hs)⟩
    rw [← spares₁.units]
    exact hs
  | some symbol =>
    simp only [bind_eq_ok, modifyAnalysis_eq_ok] at h
    obtain ⟨_, b₂, rfl, members, b₃, h₃, h⟩ := h
    obtain ⟨-, rfl⟩ := memberScope_eq_ok.mp h₃
    -- After the scope of members was created, nothing gets members any more.
    suffices rest : id? = some symbol ∧ b'.recovery = b₁.recovery ∧
        SameOwners ((b₁.mapAnalysis fun a =>
          { a with units := a.units.insert u.path symbol }).mapAnalysis
            (addMembers u.node.id symbol Analysis.unitsScope)) b' by
      obtain ⟨rfl, recovery, same⟩ := rest
      refine ⟨recovery.trans spares₁.recovery, fun path s hs => ?_, fun s σ hs => ?_⟩
      · rw [same.units] at hs
        change Entries.get? (b₁.analysis.units.insert u.path symbol) path = some s at hs
        rw [Entries.get?_insert, spares₁.units] at hs
        split at hs
        · next same => exact .inr ⟨hs, same⟩
        · exact .inl hs
      · have hs := same.members s σ hs
        change ((Arena.modifySymbol _ symbol _).symbol s).members = _ at hs
        rw [Arena.symbol_modifySymbol] at hs
        split at hs
        · next he => exact .inr (congrArg some he.1.symm)
        · exact .inl (spares₁.members s σ hs)
    cases hk : u.kind with
    | interactive sections =>
      simp only [hk, pure_eq_ok] at h
      obtain ⟨rfl, rfl⟩ := h
      exact ⟨rfl, rfl, (Spares.refl _).toSameOwners⟩
    | module m =>
      simp only [hk, bind_eq_ok, modifyAnalysis_eq_ok] at h
      obtain ⟨_, b₄, rfl, h⟩ := h
      -- The exports of a module are not members.
      have exports : ∀ {c : Building} {symbol : SymbolId}, Spares c (c.mapAnalysis fun a =>
          { a with
            arena :=
              (a.arena.newScope (.exports symbol) (some Analysis.unitsScope) false).2.setExports
              symbol a.arena.scopes.size }) := by
        intro c symbol
        refine ⟨⟨fun s σ hs => ?_, rfl⟩, rfl, rfl⟩
        change ((Arena.modifySymbol _ symbol _).symbol s).members = _ at hs
        rw [Arena.symbol_modifySymbol] at hs
        split at hs <;> exact hs
      cases hn : m.globalName with
      | none =>
        simp only [hn, pure_eq_ok] at h
        obtain ⟨rfl, rfl⟩ := h
        exact ⟨rfl, rfl, exports.toSameOwners⟩
      | some global =>
        simp only [hn, bind_eq_ok, pure_eq_ok] at h
        obtain ⟨_, b₅, h₅, rfl, rfl⟩ := h
        have all := exports.trans (KeepsOwners.declare _ _ h₅)
        exact ⟨rfl, all.recovery, all.toSameOwners⟩

/-- The nodes under which units are declared, each with its global name. -/
def unitKeys (units : List SourceUnit) : List NodeId :=
  units.flatMap fun u => [u.node.id, u.node.id.asGlobalName]

/-- The nodes under which the first pass enters anything: those of the program, and one for the
global name of each unit. -/
def keys (units : List SourceUnit) : List NodeId := unitKeys units ++ UnitSet.nodeIds units

theorem unitDeclaration_eq (u : SourceUnit) :
    ∃ target, unitDeclaration u = ⟨u.path, .direct, target, u.node, .any, false⟩ ∧
      target ≠ .var ∧ target.isScoped = true ∧ target = u.kind.target := by
  unfold unitDeclaration UnitKind.target
  cases u.kind with
  | module m => exact ⟨.module, rfl, (fun h => by cases h), rfl, rfl⟩
  | interactive sections => exact ⟨.interactive, rfl, (fun h => by cases h), rfl, rfl⟩

/-- The scopes that a unit needs have been created for a symbol. -/
structure Housed (b : Building) (u : SourceUnit) (symbol : SymbolId) : Prop where
  known : symbol < b.arena.symbols.size
  node : (b.arena.symbol symbol).node = u.node
  name : (b.arena.symbol symbol).name = u.path
  home : (b.arena.symbol symbol).scope = Analysis.unitsScope
  target : (b.arena.symbol symbol).target = u.kind.target
  members : (b.arena.symbol symbol).members.isSome = true
  exports : ∀ m, u.kind = .module m → (b.arena.symbol symbol).exports.isSome = true

theorem Housed.stays {unit : SourceUnit} {symbol : SymbolId} (h : Housed b unit symbol)
    (s : Steps ids b b') : Housed b' unit symbol :=
  ⟨(s.sameSymbol h.known).1,
    (congrArg Declaration.node (s.sameSymbol h.known).2.declaration).trans h.node,
    (congrArg Declaration.name (s.sameSymbol h.known).2.declaration).trans h.name,
    (s.sameSymbol h.known).2.scope.trans h.home, (s.target h.known).trans h.target,
    (s.owning h.known).isSome h.members, fun m hm => (s.owning h.known).exports (h.exports m hm)⟩

/-- A module is housed once its exports have a scope. -/
theorem housed_exports {unit : SourceUnit} {symbol : SymbolId} {enclosing : ScopeId}
    (known : symbol < b.arena.symbols.size) (node : (b.arena.symbol symbol).node = unit.node)
    (name : (b.arena.symbol symbol).name = unit.path)
    (home : (b.arena.symbol symbol).scope = Analysis.unitsScope)
    (target : (b.arena.symbol symbol).target = unit.kind.target)
    (members : (b.arena.symbol symbol).members.isSome = true) (nests : b.Nests enclosing)
    (declared : b.HasOwner symbol) (module : (b.arena.symbol symbol).target = .module)
    (closed : (b.arena.symbol symbol).exports = none) :
    Housed (b.mapAnalysis fun a =>
      { a with
        arena := (a.arena.newScope (.exports symbol) (some enclosing) false).2.setExports symbol
          a.arena.scopes.size }) unit symbol := by
  have step := @Step.exports [] b symbol enclosing nests declared module closed
  refine ⟨(step.sameSymbol known).1,
    (congrArg Declaration.node (step.sameSymbol known).2.declaration).trans node,
    (congrArg Declaration.name (step.sameSymbol known).2.declaration).trans name,
    (step.sameSymbol known).2.scope.trans home, ((Steps.single step).target known).trans target,
    (step.owning known).isSome members, fun _ _ => ?_⟩
  show ((Arena.modifySymbol _ symbol _).symbol symbol).exports.isSome = true
  rw [Arena.symbol_modifySymbol_self]
  · rfl
  · exact known

/-- A symbol shows to other units what it did before it got members. -/
theorem exports_addMembers {node : NodeId} {owner : SymbolId} {enclosing : ScopeId} {a : Analysis}
    (t : SymbolId) : ((addMembers node owner enclosing a).arena.symbol t).exports =
      (a.arena.symbol t).exports := by
  show ((Arena.modifySymbol _ owner _).symbol t).exports = _
  rw [Arena.symbol_modifySymbol]
  split <;> rfl

/-- Still only units have members, if nothing but units has got any. -/
theorem onlyUnits_stays (early : b.OnlyUnits) (formed : Formed b) (s : Steps ids b b')
    (units : ∀ s σ, (b'.arena.symbol s).members = some σ →
      (b.arena.symbol s).members = some σ ∨ (b'.arena.symbol s).scope = Analysis.unitsScope) :
    b'.OnlyUnits := by
  intro t σ hm
  rcases units t σ hm with old | unit
  · have known := (formed.arena.owner σ t (formed.arena.members t σ old).1).1
    exact (s.sameSymbol known).2.scope.trans (early t σ old)
  · exact unit

theorem declareUnit_steps {unit : SourceUnit} {id? : Option SymbolId} (mem : unit.node.id ∈ ids)
    (name : unit.node.id.asGlobalName ∈ ids) (formed : Formed b)
    (knownGlobal : b.HasScope Analysis.globalScope)
    (globalKind : (b.arena.scope Analysis.globalScope).kind = .global) (early : b.OnlyUnits)
    (h : declareUnit unit b = .ok (id?, b')) :
    Steps ids b b' ∧ ∀ symbol, id? = some symbol → Housed b' unit symbol := by
  have unitsKind : (b.arena.scope Analysis.unitsScope).kind = .units :=
    (formed.arena.units _).mpr rfl
  have known : b.HasScope Analysis.unitsScope :=
    Arena.lt_size_of_kind (by rw [unitsKind]; exact fun h => by cases h)
  have opened : b.Opened ids Analysis.unitsScope unit.node.id := by
    rw [Building.Opened, unitsKind]
    exact name
  obtain ⟨target, unit_eq, notVar, owning, kind⟩ := unitDeclaration_eq unit
  have admits : b.arena.Admits Analysis.unitsScope
      ⟨unit.path, .direct, target, unit.node, .any, false⟩ := by
    refine .of_direct ?_ rfl
    rw [unitsKind]
    exact ⟨rfl, notVar⟩
  simp only [declareUnit, bind_eq_ok, unit_eq] at h
  obtain ⟨declared?, b₁, hd, h⟩ := h
  have s₁ : Steps ids b b₁ := (declare_steps mem known admits opened hd).1
  cases declared? with
  | none =>
    rw [pure_eq_ok] at h
    obtain ⟨rfl, rfl⟩ := h
    exact ⟨s₁, fun symbol hs => by cases hs⟩
  | some symbol =>
    obtain ⟨declared, target_eq, home, bare, node, called, -⟩ :=
      declare_owner mem known admits opened hd
    have own : (b₁.arena.symbol symbol).node.id = unit.node.id := by rw [node]
    have early₁ : b₁.OnlyUnits :=
      onlyUnits_stays early formed s₁ fun s σ => .inl ∘ (KeepsOwners.declare _ _ hd).members s σ
    simp only [bind_eq_ok, modifyAnalysis_eq_ok] at h
    obtain ⟨_, b₂, rfl, members, b₃, h₃, h⟩ := h
    obtain ⟨-, rfl⟩ := memberScope_eq_ok.mp h₃
    have s₃ := s₁.trans (.single
      (@Step.unit ids b₁ unit.path _ _ mem name declared own called
        (by rw [target_eq]; exact owning) home bare early₁))
    have same₃ := (Steps.sameSymbol (.single (@Step.unit ids b₁ unit.path _ _ mem name declared own
      called (by rw [target_eq]; exact owning) home bare early₁)) declared.1).2.declaration
    have node₃ := (congrArg Declaration.node same₃).trans node
    have name₃ := (congrArg Declaration.name same₃).trans called
    have target₃ := (congrArg Declaration.target same₃).trans (target_eq.trans kind)
    have unit₃ := (s₃.formed formed).unit unit.path symbol (by
      show Entries.get? (b₁.analysis.units.insert unit.path symbol) unit.path = _
      rw [Entries.get?_insert, if_pos rfl])
    cases hk : unit.kind with
    | interactive sections =>
      simp only [hk, pure_eq_ok] at h
      obtain ⟨rfl, rfl⟩ := h
      refine ⟨s₃, ?_⟩
      rintro _ ⟨⟩
      exact ⟨unit₃.1.1, node₃, name₃, unit₃.2.1, target₃, unit₃.2.2,
        fun m hm => by rw [hk] at hm; cases hm⟩
    | module m =>
      simp only [hk, bind_eq_ok, modifyAnalysis_eq_ok] at h
      obtain ⟨_, b₄, rfl, h⟩ := h
      have nests₃ := s₃.nests (.inl unitsKind)
      have module₃ := target₃.trans (congrArg UnitKind.target hk)
      have closed := @exports_addMembers unit.node.id symbol Analysis.unitsScope b₁.analysis
        symbol
      rw [show (b₁.analysis.arena.symbol symbol).exports = none from
        congrArg Symbol.exports ((declare_steps mem known admits opened hd).2 symbol
          rfl).2] at closed
      have s₄ := s₃.trans (.single (@Step.exports ids _ symbol _ nests₃ unit₃.1 module₃ closed))
      have housed :=
        @housed_exports _ unit symbol _ unit₃.1.1 node₃ name₃ unit₃.2.1 target₃ unit₃.2.2
        nests₃ unit₃.1 module₃ closed
      cases hn : m.globalName with
      | none =>
        simp only [hn, pure_eq_ok] at h
        obtain ⟨rfl, rfl⟩ := h
        refine ⟨s₄, ?_⟩
        rintro _ ⟨⟩
        exact housed
      | some global =>
        simp only [hn, bind_eq_ok, pure_eq_ok] at h
        obtain ⟨_, b₅, h₅, rfl, rfl⟩ := h
        have kind₄ := (s₄.sameScope knownGlobal).kind.trans globalKind
        have s₅ := (declare_steps name (s₄.hasScope knownGlobal)
          ⟨by rw [kind₄]; rfl, (fun σ h => by cases h), fun _ s h => by rw [kind₄] at h; cases h⟩
          (by rw [Building.Opened, kind₄]; exact name) h₅).1
        refine ⟨s₄.trans s₅, ?_⟩
        rintro _ ⟨⟩
        exact housed.stays s₅

theorem declareUnits_steps (units : List SourceUnit) {pairs : List (SourceUnit × SymbolId)}
    (sub : unitKeys units ⊆ ids) (formed : Formed b)
    (knownGlobal : b.HasScope Analysis.globalScope)
    (globalKind : (b.arena.scope Analysis.globalScope).kind = .global) (early : b.OnlyUnits)
    (h : declareUnits units b = .ok (pairs, b')) :
    Steps ids b b' ∧ ∀ pair ∈ pairs, pair.1 ∈ units ∧ Housed b' pair.1 pair.2 := by
  induction units generalizing b pairs with
  | nil =>
    rw [declareUnits, pure_eq_ok] at h
    exact ⟨h.2 ▸ .refl, by simp [← h.1]⟩
  | cons u rest ih =>
    simp only [unitKeys, List.flatMap_cons, List.append_subset, List.cons_subset] at sub
    obtain ⟨⟨mem, name, -⟩, subRest⟩ := sub
    simp only [declareUnits, bind_eq_ok] at h
    obtain ⟨id?, b₁, h₁, h⟩ := h
    obtain ⟨s₁, housed⟩ := declareUnit_steps mem name formed knownGlobal globalKind early h₁
    have early₁ : b₁.OnlyUnits := onlyUnits_stays early formed s₁ fun s σ hs =>
      ((declareUnit_owners h₁).2.2 s σ hs).imp_right fun declared => (housed s declared).home
    have kind₁ := (s₁.sameScope knownGlobal).kind.trans globalKind
    cases id? with
    | none =>
      obtain ⟨s₂, hmem⟩ := ih subRest (s₁.formed formed) (s₁.hasScope knownGlobal) kind₁ early₁ h
      exact ⟨s₁.trans s₂, fun pair hp =>
        ⟨List.mem_cons_of_mem _ (hmem pair hp).1, (hmem pair hp).2⟩⟩
    | some symbol =>
      simp only [bind_eq_ok, pure_eq_ok] at h
      obtain ⟨more, b₂, h₂, rfl, rfl⟩ := h
      obtain ⟨s₂, hmem⟩ := ih subRest (s₁.formed formed) (s₁.hasScope knownGlobal) kind₁ early₁ h₂
      refine ⟨s₁.trans s₂, fun pair hp => ?_⟩
      rcases List.mem_cons.mp hp with rfl | hp
      · exact ⟨List.mem_cons_self .., (housed symbol rfl).stays s₂⟩
      · exact ⟨List.mem_cons_of_mem _ (hmem pair hp).1, (hmem pair hp).2⟩

theorem visitUnits_steps (pairs : List (SourceUnit × SymbolId)) {u : PUnit}
    (sub : ∀ pair ∈ pairs, pair.1.nodeIds ⊆ ids) (formed : Formed b)
    (housed : ∀ pair ∈ pairs, Housed b pair.1 pair.2) (h : visitUnits pairs b = .ok (u, b')) :
    Steps ids b b' := by
  induction pairs generalizing b with
  | nil =>
    rw [visitUnits, pure_eq_ok] at h
    exact h.2 ▸ .refl
  | cons pair rest ih =>
    obtain ⟨unit, symbol⟩ := pair
    have subUnit : unit.nodeIds ⊆ ids := sub (unit, symbol) (List.mem_cons_self ..)
    rw [SourceUnit.nodeIds, List.cons_subset] at subUnit
    have home : (b.arena.symbol symbol).node.id ∈ ids := by
      rw [(housed _ (List.mem_cons_self ..)).node]
      exact subUnit.1
    have target := (housed _ (List.mem_cons_self ..)).target
    obtain ⟨b₁, s₁, h⟩ : ∃ b₁, Steps ids b b₁ ∧ visitUnits rest b₁ = .ok (u, b') := by
      cases hk : unit.kind with
      | module m =>
        simp only [visitUnits, hk, bind_eq_ok] at h
        obtain ⟨_, b₁, h₁, h⟩ := h
        rw [hk] at subUnit
        exact ⟨b₁, visitModule_steps subUnit.2 home formed (target.trans (by rw [hk]; rfl)) h₁, h⟩
      | interactive sections =>
        simp only [visitUnits, hk, bind_eq_ok] at h
        obtain ⟨_, b₁, h₁, h⟩ := h
        rw [hk] at subUnit
        exact ⟨b₁, visitInteractive_steps subUnit.2 home formed
          (target.trans (by rw [hk]; rfl)) h₁, h⟩
    exact s₁.trans (ih (fun pair hp => sub pair (List.mem_cons_of_mem _ hp)) (s₁.formed formed)
      (fun pair hp => (housed pair (List.mem_cons_of_mem _ hp)).stays s₁) h)

/-- What the whole pass does, in one state. -/
theorem pass_eq_ok {recovery : Bool} {units : UnitSet} {a : Analysis}
    {pending : List PendingReference} (h : buildScopes recovery units = .ok (a, pending)) :
    ∃ pairs b₁ b u, declareUnits units (.start recovery) = .ok (pairs, b₁) ∧
      visitUnits pairs b₁ = .ok (u, b) ∧
      a = { b.analysis with positions := b.analysis.positions.reverse } ∧
      pending = b.pending.reverse := by
  unfold buildScopes at h
  cases hrun : (do visitUnits (← declareUnits units) : Build PUnit) (.start recovery) with
  | error fault =>
    simp only [StateT.run, Building.start] at h hrun
    rw [hrun] at h
    cases h
  | ok p =>
    obtain ⟨u, b⟩ := p
    have ran := hrun
    simp only [StateT.run, Building.start] at h ran
    rw [ran] at h
    cases h
    rw [bind_eq_ok] at hrun
    obtain ⟨pairs, b₁, h₁, h₂⟩ := hrun
    exact ⟨pairs, b₁, b, u, h₁, h₂, rfl, rfl⟩

end Build

/-- **The first pass takes steps from the initial state.** -/
theorem buildScopes_steps {recovery : Bool} {units : UnitSet} {a : Analysis}
    {pending : List PendingReference} (h : buildScopes recovery units = .ok (a, pending)) :
    ∃ b, Build.Steps (Build.keys units) (.start recovery) b ∧
      a = { b.analysis with positions := b.analysis.positions.reverse } ∧
      pending = b.pending.reverse := by
  obtain ⟨pairs, b₁, b, u, h₁, h₂, rfl, rfl⟩ := Build.pass_eq_ok h
  have formed := Building.formed_start recovery
  have knownGlobal : (Building.start recovery).HasScope Analysis.globalScope := by
    show 0 < 2
    decide
  obtain ⟨s₁, hmem⟩ := Build.declareUnits_steps units
    (List.subset_append_left _ (UnitSet.nodeIds units)) formed knownGlobal rfl
    (Building.onlyUnits_start _) h₁
  have s₂ : Build.Steps (Build.keys units) b₁ b := Build.visitUnits_steps pairs
    (fun pair hp id hid => List.mem_append_right _
      (List.mem_flatMap.mpr ⟨_, (hmem pair hp).1, hid⟩))
    (s₁.formed formed) (fun pair hp => (hmem pair hp).2) h₂
  exact ⟨b, s₁.trans s₂, rfl, rfl⟩

end CellScript
