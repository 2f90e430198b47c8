import CellScript.Proofs.Scope.Expressions

/-!
# Visiting units

Visiting a unit takes steps of the first pass, for nodes of the unit only. Libraries and sections
are declared one after another, each with a group of definitions of its own.

* `Build.Groups` — groups of definitions, with the states between them
* `Build.visitLibraries_groups`, `Build.visitSections_groups` — the groups of a unit
* `Build.visitModule_steps`, `Build.visitInteractive_steps` — both kinds of unit
-/

namespace CellScript

namespace Build

variable {ids : List NodeId} {b b' : Building}

theorem declareVars_steps {scope : ScopeId} {u : PUnit} (vars : List VarDef)
    (sub : vars.map (·.node.id) ⊆ ids) (opens : b.Opens ids scope)
    (h : declareVars scope vars b = .ok (u, b')) : Steps ids b b' := by
  induction vars generalizing b with
  | nil =>
    rw [declareVars, pure_eq_ok] at h
    exact h.2 ▸ .refl
  | cons v rest ih =>
    simp only [declareVars, bind_eq_ok] at h
    obtain ⟨_, b₁, hd, h⟩ := h
    rw [List.map_cons, List.cons_subset] at sub
    have s := declareVar_steps sub.1 opens hd
    exact s.trans (ih sub.2 (s.opens opens) h)

theorem visitValues_eq (scope : ScopeId) (vars : List VarDef) :
    visitValues scope vars = visitExprs scope (vars.map (·.value)) := by
  induction vars with
  | nil => rfl
  | cons v rest ih => rw [List.map_cons, visitValues, visitExprs, ih]

theorem visitVars_steps {scope : ScopeId} {u : PUnit} {vars : List VarDef}
    (sub : idsOfVars vars ⊆ ids) (opens : b.Opens ids scope)
    (h : visitVars scope vars b = .ok (u, b')) : Steps ids b b' := by
  simp only [visitVars, bind_eq_ok] at h
  obtain ⟨_, b₁, h₁, h⟩ := h
  have parts := List.Subset.trans (idsOfVars_perm vars).symm.subset sub
  rw [List.append_subset] at parts
  have s := declareVars_steps vars parts.1 opens h₁
  rw [visitValues_eq] at h
  exact s.trans (visitExprs_steps (s.hosts opens.hosts) _ parts.2 h)

theorem memberScope_eq_ok {owner : SymbolId} {enclosing : ScopeId} {node : NodeId}
    {scope : ScopeId} :
    memberScope owner enclosing node b = .ok (scope, b') ↔
      scope = b.arena.scopes.size ∧ b' = b.mapAnalysis (addMembers node owner enclosing) := by
  constructor
  · intro h
    cases h
    exact ⟨rfl, rfl⟩
  · rintro ⟨rfl, rfl⟩
    rfl

theorem kind_memberScope {owner : SymbolId} {enclosing : ScopeId} {node : NodeId}
    {scope : ScopeId} (h : memberScope owner enclosing node b = .ok (scope, b')) :
    (b'.arena.scope scope).kind = .members owner := by
  obtain ⟨rfl, rfl⟩ := memberScope_eq_ok.mp h
  show ((b.arena.newScope (.members owner) (some enclosing) false).2.scope _).kind = _
  rw [Arena.scope_newScope, if_pos rfl]

/-- Declaring a symbol among the members of another one. -/
theorem declareMember_steps {n : NodeId} {scope : ScopeId} {owner : SymbolId} {d : Declaration}
    {id? : Option SymbolId} (mem : d.node.id ∈ ids) (home : n ∈ ids)
    (member : b.MembersOf n scope owner) (notModule : d.target ≠ .module)
    (root : ∀ σ, d.binding.root? = some σ → σ = scope ∧ (b.arena.symbol owner).target = .module)
    (importing : d.binding.isIndirect = true → (b.arena.symbol owner).target = .module)
    (h : declare scope d b = .ok (id?, b')) : Steps ids b b' := by
  have opens : b.Opens ids scope := opens_of_members home member
  refine (declare_steps mem opens.hosts.1 ⟨?_, fun σ hσ => ?_, fun indirect s hs => ?_⟩
    (opens.opened _) h).1
  · rw [member.kind]
    exact notModule
  · obtain ⟨rfl, module⟩ := root σ hσ
    exact ⟨owner, member.kind, module, .inl rfl⟩
  · rw [member.kind] at hs
    cases hs
    exact importing indirect

/-- A library or section among the members of a unit. -/
theorem admits_owner {n : NodeId} {scope : ScopeId} {owner : SymbolId} {name : String}
    {target : Target} {node : Node} {exported : Bool} (member : b.MembersOf n scope owner)
    (notModule : target ≠ .module) :
    b.arena.Admits scope ⟨name, .direct, target, node, .any, exported⟩ := by
  refine .of_direct ?_ rfl
  rw [member.kind]
  exact notModule

/-- A symbol that was just declared stands for itself and owns nothing yet. -/
theorem declare_owner {scope : ScopeId} {name : String} {target : Target} {node : Node}
    {exported : Bool} {id : SymbolId} (mem : node.id ∈ ids) (known : b.HasScope scope)
    (admits : b.arena.Admits scope ⟨name, .direct, target, node, .any, exported⟩)
    (opened : b.Opened ids scope node.id)
    (h : declare scope ⟨name, .direct, target, node, .any, exported⟩ b = .ok (some id, b')) :
    b'.HasOwner id ∧ (b'.arena.symbol id).target = target ∧ (b'.arena.symbol id).scope = scope ∧
      (b'.arena.symbol id).members = none ∧ (b'.arena.symbol id).node = node ∧
      (b'.arena.symbol id).name = name ∧ (b'.arena.symbol id).exported = exported := by
  obtain ⟨hlt, heq⟩ := (declare_steps mem known admits opened h).2 id rfl
  rw [Building.HasOwner, heq]
  exact ⟨⟨hlt, rfl⟩, rfl, rfl, rfl, rfl, rfl, rfl⟩

/-- The scope that was just created for the members of a symbol. -/
theorem membersOf_memberScope {owner : SymbolId} {enclosing : ScopeId} {node : NodeId}
    {scope : ScopeId} (declared : b.HasOwner owner) (own : (b.arena.symbol owner).node.id = node)
    (h : memberScope owner enclosing node b = .ok (scope, b')) : b'.MembersOf node scope owner := by
  refine ⟨kind_memberScope h, ?_, ?_⟩
  · obtain ⟨-, rfl⟩ := memberScope_eq_ok.mp h
    simpa [Building.mapAnalysis, Building.arena, addMembers, Arena.setMembers, Arena.modifySymbol,
      Arena.newScope] using declared.1
  · obtain ⟨-, rfl⟩ := memberScope_eq_ok.mp h
    have same : SameSymbol (b.arena.symbol owner)
        ((b.mapAnalysis (addMembers node owner enclosing)).arena.symbol owner) :=
      sameSymbol_modifySymbol fun s => ⟨rfl, rfl, rfl, rfl⟩
    rw [show Symbol.toDeclaration _ = _ from same.declaration]
    exact own

theorem declareMembers_steps {n : NodeId} {scope : ScopeId} {owner : SymbolId} {source : String}
    {u : PUnit} (members : List ImportMember) (sub : members.map (·.node.id) ⊆ ids) (home : n ∈ ids)
    (member : b.MembersOf n scope owner) (module : (b.arena.symbol owner).target = .module)
    (h : declareMembers scope source members b = .ok (u, b')) : Steps ids b b' := by
  induction members generalizing b with
  | nil =>
    rw [declareMembers, pure_eq_ok] at h
    exact h.2 ▸ .refl
  | cons m rest ih =>
    simp only [declareMembers, bind_eq_ok] at h
    obtain ⟨_, b₁, hd, h⟩ := h
    rw [List.map_cons, List.cons_subset] at sub
    -- An import names no scope that it starts in.
    have s := declareMember_steps sub.1 home member (fun h => by cases h)
      (by intro σ hσ; cases hk : m.kind <;> rw [hk] at hσ <;> cases hσ) (fun _ => module) hd
    exact s.trans (ih sub.2 (s.membersOf member) ((s.target member.known).trans module) h)

theorem declareImports_steps {n : NodeId} {scope : ScopeId} {owner : SymbolId} {u : PUnit}
    (imports : List Import) (sub : imports.flatMap Import.nodeIds ⊆ ids) (home : n ∈ ids)
    (member : b.MembersOf n scope owner) (module : (b.arena.symbol owner).target = .module)
    (h : declareImports scope imports b = .ok (u, b')) : Steps ids b b' := by
  induction imports generalizing b with
  | nil =>
    rw [declareImports, pure_eq_ok] at h
    exact h.2 ▸ .refl
  | cons i rest ih =>
    simp only [declareImports, bind_eq_ok] at h
    obtain ⟨_, b₁, hd, h⟩ := h
    simp only [List.flatMap_cons, Import.nodeIds, List.append_subset, List.cons_subset] at sub
    have s := declareMembers_steps i.members sub.1.2 home member module hd
    exact s.trans (ih sub.2 (s.membersOf member) ((s.target member.known).trans module) h)

theorem declareAliases_steps {n : NodeId} {scope : ScopeId} {owner : SymbolId} {u : PUnit}
    (aliases : List Renaming) (sub : aliases.map (·.node.id) ⊆ ids) (home : n ∈ ids)
    (member : b.MembersOf n scope owner) (module : (b.arena.symbol owner).target = .module)
    (h : declareAliases scope aliases b = .ok (u, b')) : Steps ids b b' := by
  induction aliases generalizing b with
  | nil =>
    rw [declareAliases, pure_eq_ok] at h
    exact h.2 ▸ .refl
  | cons r rest ih =>
    simp only [declareAliases, bind_eq_ok] at h
    obtain ⟨_, b₁, hd, h⟩ := h
    rw [List.map_cons, List.cons_subset] at sub
    have s := declareMember_steps sub.1 home member (fun h => by cases h)
      (fun σ hσ => by cases hσ; exact ⟨rfl, module⟩) (fun _ => module) hd
    exact s.trans (ih sub.2 (s.membersOf member) ((s.target member.known).trans module) h)

theorem declareExports_steps {n : NodeId} {scope exports : ScopeId} {owner : SymbolId} {u : PUnit}
    (renamings : List Renaming) (sub : renamings.map (·.node.id) ⊆ ids)
    (member : b.MembersOf n scope owner) (module : (b.arena.symbol owner).target = .module)
    (exported : (b.arena.scope exports).kind = .exports owner)
    (h : declareExports scope exports renamings b = .ok (u, b')) : Steps ids b b' := by
  induction renamings generalizing b with
  | nil =>
    rw [declareExports, pure_eq_ok] at h
    exact h.2 ▸ .refl
  | cons r rest ih =>
    simp only [declareExports, bind_eq_ok] at h
    obtain ⟨_, b₁, hd, h⟩ := h
    rw [List.map_cons, List.cons_subset] at sub
    have known : b.HasScope exports :=
      Arena.lt_size_of_kind (by rw [exported]; exact fun h => by cases h)
    have s := (declare_steps (d := { Declaration.indirect r.name _ r.node with exported := true })
      sub.1 known ⟨by rw [exported]; rfl,
        fun σ hσ => by cases hσ; exact ⟨owner, member.kind, module, .inr exported⟩,
        fun _ s hs => by rw [exported] at hs; cases hs⟩
      (by rw [Building.Opened, exported]; trivial) hd).1
    exact s.trans (ih sub.2 (s.membersOf member) ((s.target member.known).trans module)
      (s.kind exported (fun h => by cases h)) h)

/-- Showing a library to other units. -/
theorem publish_steps {exports : ScopeId} {name : String} {symbol : SymbolId} {u : PUnit}
    (declared : b.HasOwner symbol) (shared : ∃ s, (b.arena.scope exports).kind = .exports s ∧
      (b.arena.scope (b.arena.symbol symbol).scope).kind = .members s)
    (called : (b.arena.symbol symbol).name = name)
    (library : (b.arena.symbol symbol).target = .library)
    (shown : (b.arena.symbol symbol).exported = true)
    (h : publish exports name symbol b = .ok (u, b')) : Steps ids b b' := by
  simp only [publish, bind_eq_ok, get_eq_ok] at h
  obtain ⟨_, _, ⟨rfl, rfl⟩, h⟩ := h
  cases hp : b.analysis.arena.publish exports name symbol with
  | ok arena =>
    simp only [hp, modifyAnalysis_eq_ok] at h
    rw [Arena.publish_eq_ok_iff] at hp
    obtain ⟨free, rfl⟩ := hp
    exact h ▸ .single (.publish _ declared free shared called library shown)
  | error fault =>
    simp only [hp] at h
    exact (report_steps h).2

/-- Showing a library some steps after it was declared. -/
theorem publishLibrary_steps {more : List NodeId} {c : Building} {n : NodeId}
    {scope exports : ScopeId} {owner symbol : SymbolId} {name : String} {u : PUnit}
    (declared : b.HasOwner symbol) (library : (b.arena.symbol symbol).target = .library)
    (place : (b.arena.symbol symbol).scope = scope) (called : (b.arena.symbol symbol).name = name)
    (shown : (b.arena.symbol symbol).exported = true) (member : b.MembersOf n scope owner)
    (exported : (b.arena.scope exports).kind = .exports owner) (s : Steps more b c)
    (h : publish exports name symbol c = .ok (u, b')) : Steps ids c b' := by
  have same := (s.sameSymbol declared.1).2
  refine publish_steps (s.hasOwner declared) ⟨owner, s.kind exported (fun h => by cases h), ?_⟩
    ((congrArg Declaration.name same.declaration).trans called)
    ((congrArg Declaration.target same.declaration).trans library)
    ((congrArg Declaration.exported same.declaration).trans shown) h
  rw [same.scope, place]
  exact (s.membersOf member).kind

/-- A run over groups of definitions that are declared among the members of `n`: each group is
visited in a scope of its own, or passed over because its name is taken. -/
inductive Groups (n : NodeId) : List (Node × List VarDef) → Building → Building → Prop where
  | nil (b : Building) : Groups n [] b b
  | skip {node : Node} {vars : List VarDef} {rest : List (Node × List VarDef)} {b c b' : Building}
    (first : Steps [n, node.id] b c) (others : Groups n rest c b') :
      Groups n ((node, vars) :: rest) b b'
  | visit {node : Node} {vars : List VarDef} {rest : List (Node × List VarDef)}
    {b c c' b' : Building} {scope : ScopeId} {symbol : SymbolId} (first : Steps [n, node.id] b c)
    (member : c.MembersOf node.id scope symbol) (run : visitVars scope vars c = .ok (⟨⟩, c'))
    (others : Groups n rest c' b') : Groups n ((node, vars) :: rest) b b'

theorem Groups.steps {n : NodeId} {groups : List (Node × List VarDef)} (h : Groups n groups b b')
    (home : n ∈ ids) (sub : ∀ g ∈ groups, g.1.id :: idsOfVars g.2 ⊆ ids) : Steps ids b b' := by
  induction h with
  | nil b => exact .refl
  | skip first _ ih =>
    rw [List.forall_mem_cons, List.cons_subset] at sub
    exact (first.mono (by simp [home, sub.1.1])).trans (ih sub.2)
  | visit first member run _ ih =>
    rw [List.forall_mem_cons, List.cons_subset] at sub
    have opened := visitVars_steps sub.1.2 (opens_of_members sub.1.1 member) run
    exact ((first.mono (by simp [home, sub.1.1])).trans opened).trans (ih sub.2)

theorem visitLibraries_groups {n : NodeId} {scope exports : ScopeId} {owner : SymbolId} {u : PUnit}
    (libraries : List Library) (member : b.MembersOf n scope owner)
    (exported : (b.arena.scope exports).kind = .exports owner)
    (h : visitLibraries scope exports libraries b = .ok (u, b')) :
    Groups n (libraries.map fun l => (l.node, l.vars)) b b' := by
  induction libraries generalizing b with
  | nil =>
    rw [visitLibraries, pure_eq_ok] at h
    exact h.2 ▸ .nil b
  | cons l rest ih =>
    simp only [visitLibraries, bind_eq_ok] at h
    obtain ⟨id?, b₁, hd, h⟩ := h
    have home : n ∈ [n, l.node.id] := by simp
    have own : l.node.id ∈ [n, l.node.id] := by simp
    have s₁ : Steps [n, l.node.id] b b₁ := declareMember_steps own home member (fun h => by cases h)
      (fun σ h => by cases h) (fun h => by cases h) hd
    have member₁ := s₁.membersOf member
    have exported₁ := s₁.kind exported (fun h => by cases h)
    cases id? with
    | none => exact .skip s₁ (ih member₁ exported₁ h)
    | some symbol =>
      have opens : b.Opens [n, l.node.id] scope := opens_of_members home member
      obtain ⟨declared, target, place, bare, node, called, shown⟩ :=
        declare_owner own opens.hosts.1 (admits_owner member fun h => by cases h)
          (opens.opened _) hd
      simp only [bind_eq_ok] at h
      obtain ⟨members, b₂, h₂, h⟩ := h
      have under : (b₁.arena.symbol symbol).node.id = l.node.id := by rw [node]
      have member₂ := membersOf_memberScope declared under h₂
      obtain ⟨-, rfl⟩ := memberScope_eq_ok.mp h₂
      have t₂ : Steps [n, l.node.id] b₁ (b₁.mapAnalysis (addMembers l.node.id symbol scope)) :=
        .single (.members _ own declared under (by rw [target]; rfl)
          ⟨owner, by rw [place]; exact member₁.kind⟩ bare (.inr ⟨owner, member₁.kind⟩)
          (.inl (congrArg some place.symm)))
      have s₂ := s₁.trans t₂
      obtain ⟨b₃, t₃, h⟩ : ∃ b₃,
          Steps [n, l.node.id] (b₁.mapAnalysis (addMembers l.node.id symbol scope)) b₃ ∧
          (visitVars members l.vars >>= fun _ => visitLibraries scope exports rest) b₃ =
            .ok (u, b') := by
        cases he : l.exported with
        | true =>
          simp only [he, if_true, bind_eq_ok] at h
          obtain ⟨_, b₃, h₃, h⟩ := h
          exact ⟨b₃, publishLibrary_steps declared target place called (shown.trans he) member₁
            exported₁ t₂ h₃, bind_eq_ok.mpr h⟩
        | false =>
          simp only [he, Bool.false_eq_true, if_false] at h
          exact ⟨_, .refl, h⟩
      rw [bind_eq_ok] at h
      obtain ⟨_, b₄, h₄, h⟩ := h
      have member₃ := t₃.membersOf member₂
      have s₄ : Steps ([n] ++ (l.node.id :: idsOfVars l.vars)) b b₄ :=
        ((s₂.trans t₃).mono (by simp)).trans
          (visitVars_steps (by simp) (opens_of_members (by simp) member₃) h₄)
      exact .visit (s₂.trans t₃) member₃ h₄
        (ih (s₄.membersOf member) (s₄.kind exported (fun h => by cases h)) h)

theorem visitLibraries_steps {n : NodeId} {scope exports : ScopeId} {owner : SymbolId} {u : PUnit}
    (libraries : List Library) (sub : libraries.flatMap Library.nodeIds ⊆ ids)
    (home : n ∈ ids) (member : b.MembersOf n scope owner)
    (exported : (b.arena.scope exports).kind = .exports owner)
    (h : visitLibraries scope exports libraries b = .ok (u, b')) : Steps ids b b' := by
  refine (visitLibraries_groups libraries member exported h).steps home fun g hg => ?_
  obtain ⟨l, hl, rfl⟩ := List.mem_map.mp hg
  exact fun id hid => sub (List.mem_flatMap.mpr ⟨l, hl, hid⟩)

/-- The members of a unit that was declared under a node. -/
theorem Formed.membersOf {symbol : SymbolId} {scope : ScopeId} (formed : Formed b)
    (h : (b.arena.symbol symbol).members = some scope) :
    b.MembersOf (b.arena.symbol symbol).node.id scope symbol :=
  have kind := (formed.arena.members symbol scope h).1
  ⟨kind, (formed.arena.owner scope symbol kind).1, rfl⟩

theorem visitModule_steps {m : Module} {symbol : SymbolId} {u : PUnit} (sub : m.nodeIds ⊆ ids)
    (home : (b.arena.symbol symbol).node.id ∈ ids) (formed : Formed b)
    (module : (b.arena.symbol symbol).target = .module)
    (h : visitModule m symbol b = .ok (u, b')) : Steps ids b b' := by
  simp only [Module.nodeIds, List.append_subset] at sub
  obtain ⟨⟨⟨subImports, subAliases⟩, subLibraries⟩, subExports⟩ := sub
  simp only [visitModule, bind_eq_ok, get_eq_ok] at h
  obtain ⟨_, _, ⟨rfl, rfl⟩, h⟩ := h
  cases hm : (b.analysis.arena.symbol symbol).members with
  | none =>
    simp only [hm, pure_eq_ok] at h
    exact h.2 ▸ .refl
  | some scope =>
    cases he : (b.analysis.arena.symbol symbol).exports with
    | none =>
      simp only [hm, he, pure_eq_ok] at h
      exact h.2 ▸ .refl
    | some exports =>
      have member := formed.membersOf hm
      have exported := formed.arena.exports symbol exports he
      simp only [hm, he, bind_eq_ok] at h
      obtain ⟨_, b₁, h₁, _, b₂, h₂, _, b₃, h₃, h⟩ := h
      have s₁ := declareImports_steps m.imports subImports home member module h₁
      have s₂ := s₁.trans (declareAliases_steps m.aliases subAliases home (s₁.membersOf member)
        ((s₁.target member.known).trans module) h₂)
      have s₃ := s₂.trans (visitLibraries_steps m.libraries subLibraries home
        (s₂.membersOf member) (s₂.kind exported (fun h => by cases h)) h₃)
      exact s₃.trans (declareExports_steps m.exports subExports (s₃.membersOf member)
        ((s₃.target member.known).trans module)
        (s₃.kind exported (fun h => by cases h)) h)

theorem visitSections_groups {n : NodeId} {scope : ScopeId} {owner : SymbolId} {u : PUnit}
    (sections : List Section) (member : b.MembersOf n scope owner)
    (interactive : (b.arena.symbol owner).target = .interactive)
    (nests : b.Nests Analysis.unitsScope) (h : visitSections scope sections b = .ok (u, b')) :
    Groups n (sections.map fun s => (s.node, s.vars)) b b' := by
  induction sections generalizing b with
  | nil =>
    rw [visitSections, pure_eq_ok] at h
    exact h.2 ▸ .nil b
  | cons s rest ih =>
    simp only [visitSections, bind_eq_ok] at h
    obtain ⟨id?, b₁, hd, h⟩ := h
    have home : n ∈ [n, s.node.id] := by simp
    have own : s.node.id ∈ [n, s.node.id] := by simp
    have s₁ : Steps [n, s.node.id] b b₁ := declareMember_steps own home member (fun h => by cases h)
      (fun σ h => by cases h) (fun h => by cases h) hd
    have interactive₁ := (s₁.target member.known).trans interactive
    cases id? with
    | none => exact .skip s₁ (ih (s₁.membersOf member) interactive₁ (s₁.nests nests) h)
    | some symbol =>
      have opens : b.Opens [n, s.node.id] scope := opens_of_members home member
      obtain ⟨declared, target, place, bare, node, -⟩ :=
        declare_owner own opens.hosts.1 (admits_owner member fun h => by cases h)
          (opens.opened _) hd
      simp only [bind_eq_ok] at h
      obtain ⟨members, b₂, h₂, _, b₃, h₃, h⟩ := h
      have under : (b₁.arena.symbol symbol).node.id = s.node.id := by rw [node]
      have member₂ := membersOf_memberScope declared under h₂
      obtain ⟨-, rfl⟩ := memberScope_eq_ok.mp h₂
      have s₂ := s₁.trans (.single
        (.members _ own declared under (by rw [target]; rfl)
          ⟨owner, by rw [place]; exact (s₁.membersOf member).kind⟩ bare (s₁.nests nests)
          (.inr ⟨owner, by rw [place]; exact (s₁.membersOf member).kind, interactive₁⟩)))
      have s₃ : Steps ([n] ++ (s.node.id :: idsOfVars s.vars)) b b₃ := (s₂.mono (by simp)).trans
        (visitVars_steps (by simp) (opens_of_members (by simp) member₂) h₃)
      exact .visit s₂ member₂ h₃ (ih (s₃.membersOf member)
        ((s₃.target member.known).trans interactive) (s₃.nests nests) h)

theorem visitSections_steps {n : NodeId} {scope : ScopeId} {owner : SymbolId} {u : PUnit}
    (sections : List Section) (sub : sections.flatMap Section.nodeIds ⊆ ids) (home : n ∈ ids)
    (member : b.MembersOf n scope owner)
    (interactive : (b.arena.symbol owner).target = .interactive)
    (nests : b.Nests Analysis.unitsScope) (h : visitSections scope sections b = .ok (u, b')) :
    Steps ids b b' := by
  refine (visitSections_groups sections member interactive nests h).steps home fun g hg => ?_
  obtain ⟨s, hs, rfl⟩ := List.mem_map.mp hg
  exact fun id hid => sub (List.mem_flatMap.mpr ⟨s, hs, hid⟩)

theorem visitInteractive_steps {sections : List Section} {symbol : SymbolId} {u : PUnit}
    (sub : sections.flatMap Section.nodeIds ⊆ ids) (home : (b.arena.symbol symbol).node.id ∈ ids)
    (formed : Formed b) (interactive : (b.arena.symbol symbol).target = .interactive)
    (h : visitInteractive sections symbol b = .ok (u, b')) : Steps ids b b' := by
  simp only [visitInteractive, bind_eq_ok, get_eq_ok] at h
  obtain ⟨_, _, ⟨rfl, rfl⟩, h⟩ := h
  cases hm : (b.analysis.arena.symbol symbol).members with
  | none =>
    simp only [hm, pure_eq_ok] at h
    exact h.2 ▸ .refl
  | some scope =>
    simp only [hm] at h
    exact visitSections_steps sections sub home (formed.membersOf hm) interactive
      (.inl ((formed.arena.units _).mpr rfl)) h

end Build

end CellScript
