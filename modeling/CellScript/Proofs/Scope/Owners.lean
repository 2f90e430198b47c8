import CellScript.Proofs.Scope.Pass
import Mathlib.Data.List.Flatten
import Mathlib.Data.List.Nodup
import Mathlib.Data.List.Pairwise
import Mathlib.Data.List.Perm.Subperm

/-!
# Who owns a scope of members

Units, libraries and sections get a scope of their members as soon as they are declared, and nothing
else ever gets one. A declaration whose name is taken gives no symbol, and then there is no scope
for it either. If the nodes of a program are told apart, the table of created scopes keeps the scope
of each owner under its node, with and without recovery.

* `Build.NewOwners` — between two states only some nodes have got scopes of members
* `Build.visitUnits_owners` — the groups of units get them
* `buildScopes_owners` — the whole pass
-/

namespace CellScript

namespace Build

variable {ids few more : List NodeId} {b b' b'' : Building}

/-! ## More steps that give members to no symbol -/

namespace KeepsOwners

theorem declareMembers (scope : ScopeId) (source : String) (members : List ImportMember) :
    KeepsOwners (declareMembers scope source members) := by
  induction members with
  | nil => exact pure _
  | cons m rest ih => exact (declare _ _).bind fun _ => ih

theorem declareImports (scope : ScopeId) (imports : List Import) :
    KeepsOwners (declareImports scope imports) := by
  induction imports with
  | nil => exact pure _
  | cons i rest ih => exact (declareMembers _ _ _).bind fun _ => ih

theorem declareAliases (scope : ScopeId) (aliases : List Renaming) :
    KeepsOwners (declareAliases scope aliases) := by
  induction aliases with
  | nil => exact pure _
  | cons r rest ih => exact (declare _ _).bind fun _ => ih

theorem declareExports (scope exports : ScopeId) (renamings : List Renaming) :
    KeepsOwners (declareExports scope exports renamings) := by
  induction renamings with
  | nil => exact pure _
  | cons r rest ih => exact (declare _ _).bind fun _ => ih

theorem declareVars (scope : ScopeId) (vars : List VarDef) :
    KeepsOwners (declareVars scope vars) := by
  induction vars with
  | nil => exact pure _
  | cons v rest ih => exact (declare _ _).bind fun _ => ih

theorem publish (exports : ScopeId) (name : String) (symbol : SymbolId) :
    KeepsOwners (publish exports name symbol) := by
  intro b b' w h
  simp only [Build.publish, bind_eq_ok, get_eq_ok] at h
  obtain ⟨_, _, ⟨rfl, rfl⟩, h⟩ := h
  cases hp : b.analysis.arena.publish exports name symbol with
  | ok arena =>
    simp only [hp, modifyAnalysis_eq_ok] at h
    rw [Arena.publish_eq_ok_iff] at hp
    obtain ⟨-, rfl⟩ := hp
    subst h
    exact ⟨⟨fun s τ hs => hs, rfl⟩, rfl, rfl⟩
  | error fault =>
    simp only [hp] at h
    exact report fault h

end KeepsOwners

/-! ## Who has got members -/

/-- Between two states, only the nodes have got scopes of members. -/
structure NewOwners (nodes : List NodeId) (b b' : Building) : Prop where
  members : ∀ s σ, (b'.arena.symbol s).members = some σ → (b.arena.symbol s).members = some σ ∨
    ∃ n ∈ nodes, b'.analysis.createdScopes.get? n = some σ
  units : b'.analysis.units = b.analysis.units

namespace NewOwners

variable {nodes others : List NodeId}

theorem of_same (h : SameOwners b b') : NewOwners nodes b b' :=
  ⟨fun s σ hs => .inl (h.members s σ hs), h.units⟩

theorem refl (b : Building) : NewOwners nodes b b := .of_same (Spares.refl b).toSameOwners

theorem mono (h : NewOwners nodes b b') (sub : nodes ⊆ others) : NewOwners others b b' := by
  refine ⟨fun s σ hs => ?_, h.units⟩
  rcases h.members s σ hs with old | ⟨n, mem, created⟩
  · exact .inl old
  · exact .inr ⟨n, sub mem, created⟩

/-- The nodes keep their scopes, as long as they are not visited again. -/
theorem trans (h : NewOwners nodes b b') (h' : NewOwners others b' b'')
    (kept : ∀ n ∈ nodes,
      b''.analysis.createdScopes.get? n = b'.analysis.createdScopes.get? n) :
    NewOwners (nodes ++ others) b b'' := by
  refine ⟨fun s σ hs => ?_, h'.units.trans h.units⟩
  rcases h'.members s σ hs with hs | ⟨n, mem, created⟩
  · rcases h.members s σ hs with hs | ⟨n, mem, created⟩
    · exact .inl hs
    · exact .inr ⟨n, List.mem_append_left _ mem, (kept n mem).trans created⟩
  · exact .inr ⟨n, List.mem_append_right _ mem, created⟩

theorem after (h : NewOwners nodes b' b'') (first : SameOwners b b') : NewOwners nodes b b'' := by
  refine ⟨fun s σ hs => ?_, h.units.trans first.units⟩
  exact (h.members s σ hs).imp_left (first.members s σ)

theorem before (h : NewOwners nodes b b') (last : Spares b' b'') : NewOwners nodes b b'' := by
  refine ⟨fun s σ hs => ?_, last.units.trans h.units⟩
  rw [last.created]
  exact h.members s σ (last.members s σ hs)

end NewOwners

/-- Only the owner of a new scope of members gets one. -/
theorem newOwners_memberScope {owner : SymbolId} {enclosing σ : ScopeId} {node : NodeId}
    (h : memberScope owner enclosing node b = .ok (σ, b')) : NewOwners [node] b b' := by
  obtain ⟨rfl, rfl⟩ := memberScope_eq_ok.mp h
  refine ⟨fun s τ hs => ?_, rfl⟩
  change ((Arena.modifySymbol _ owner _).symbol s).members = _ at hs
  rw [Arena.symbol_modifySymbol] at hs
  split at hs
  · cases hs
    refine .inr ⟨node, List.mem_singleton.mpr rfl, ?_⟩
    show (Table.insert _ _ _).get? node = _
    rw [Table.get?_insert, if_pos rfl]
  · exact .inl hs

/-! ## Nodes that wait -/

/-- None of the nodes is that of a global name. -/
def Plain (ids : List NodeId) : Prop := ∀ node : NodeId, node.asGlobalName ∉ ids

theorem Plain.mono (h : Plain ids) (sub : more ⊆ ids) : Plain more :=
  fun node mem => h node (sub mem)

/-- Nothing has been declared under the nodes, none of which is that of a global name. -/
structure Waiting (ids : List NodeId) (b : Building) : Prop where
  nodup : ids.Nodup
  plain : Plain ids
  undeclared : ∀ s, s < b.arena.symbols.size → (b.arena.symbol s).node.id ∉ ids

namespace Waiting

theorem narrow (w : Waiting ids b) (sub : few.Subperm ids) : Waiting few b := by
  obtain ⟨l, perm, within⟩ := sub
  exact ⟨perm.nodup_iff.mp (within.nodup w.nodup),
    w.plain.mono fun _ h => within.subset (perm.symm.subset h),
    fun s hs mem => w.undeclared s hs (within.subset (perm.symm.subset mem))⟩

theorem left (w : Waiting (few ++ more) b) : Waiting few b :=
  w.narrow (List.sublist_append_left ..).subperm

theorem right (w : Waiting (few ++ more) b) : Waiting more b :=
  w.narrow (List.sublist_append_right ..).subperm

/-- The nodes still wait after other nodes were visited. -/
theorem skip (w : Waiting ids b) (first : Steps more b b') (apart : ids.Disjoint more) :
    Waiting ids b' := by
  refine ⟨w.nodup, w.plain, fun s hs mem => ?_⟩
  rcases first.symbolNode hs with old | new
  · have same : (b'.arena.symbol s).node = (b.arena.symbol s).node :=
      congrArg Declaration.node (first.sameSymbol old).2.declaration
    rw [same] at mem
    exact w.undeclared s old mem
  · exact apart mem new

/-- Expressions under nodes that wait own no scopes of members. -/
theorem unowned (w : Waiting ids b) : Unowned b ids := ⟨w.plain, fun s hs _ _ => w.undeclared s hs⟩

end Waiting

/-! ## Groups -/

/-- The definitions of a group own no scopes of members, and leave alone the one they stand in. -/
theorem visitVars_owners {n : NodeId} {σ : ScopeId} {s : SymbolId} {vars : List VarDef} {u : PUnit}
    (w : Waiting (idsOfVars vars) b) (outside : n ∉ idsOfVars vars) (formed : Formed b)
    (member : b.MembersOf n σ s) (h : visitVars σ vars b = .ok (u, b')) :
    SameOwners b b' ∧ b'.analysis.createdScopes.get? n = b.analysis.createdScopes.get? n := by
  simp only [visitVars, visitValues_eq, bind_eq_ok] at h
  obtain ⟨_, b₁, h₁, h⟩ := h
  have sorted := w.narrow (idsOfVars_perm vars).symm.subperm
  have s₁ : Steps (n :: vars.map (·.node.id)) b b₁ := declareVars_steps vars
    (List.subset_cons_self ..) (opens_of_members (List.mem_cons_self ..) member) h₁
  have opens₁ : b₁.Opens [n] σ :=
    opens_of_members (List.mem_singleton.mpr rfl) (s₁.membersOf member)
  have s₂ := visitExprs_steps opens₁.hosts _ (List.Subset.refl _) h
  have absent : n ∉ idsOfExprs (vars.map (·.value)) := fun mem =>
    outside ((idsOfVars_perm vars).symm.subset (List.mem_append_right _ mem))
  have w₁ : Waiting (idsOfExprs (vars.map (·.value))) b₁ := by
    refine sorted.right.skip s₁ fun id mem other => ?_
    rcases List.mem_cons.mp other with rfl | other
    · exact absent mem
    · exact (List.nodup_append'.mp sorted.nodup).2.2 other mem
  have first := KeepsOwners.declareVars _ _ h₁
  refine ⟨first.toSameOwners.trans (s₂.sameOwners (s₁.formed formed) w₁.unowned), ?_⟩
  rw [(s₂.sameEntries absent).created, first.created]

/-- A scope of members, with the definitions that are visited in it. -/
theorem memberScope_owners {owner : SymbolId} {enclosing σ : ScopeId} {node : NodeId}
    {vars : List VarDef} {b₁ b₂ b₃ : Building} {u : PUnit} (w : Waiting (node :: idsOfVars vars) b)
    (outer : List NodeId) (out : (idsOfVars vars).Disjoint outer)
    (s : Steps (outer ++ [node]) b b₁) (formed : Formed b₁) (declared : b₁.HasOwner owner)
    (own : (b₁.arena.symbol owner).node.id = node)
    (h₂ : memberScope owner enclosing node b₁ = .ok (σ, b₂)) (s₂ : Steps [node] b₁ b₂)
    (s₃ : ∀ {ids}, Steps ids b₂ b₃) (spares₃ : Spares b₂ b₃)
    (h : visitVars σ vars b₃ = .ok (u, b')) : NewOwners [node] b₁ b' := by
  have member₃ := (@s₃ []).membersOf (membersOf_memberScope declared own h₂)
  have outside := (List.nodup_cons.mp w.nodup).1
  have s₁₃ : Steps (outer ++ [node]) b b₃ := (s.trans (s₂.mono (by simp))).trans s₃
  have w₃ : Waiting (idsOfVars vars) b₃ := by
    refine (w.narrow (List.sublist_cons_self ..).subperm).skip s₁₃ ?_
    rw [List.disjoint_append_right, List.disjoint_singleton]
    exact ⟨out, outside⟩
  obtain ⟨same, kept⟩ :=
    visitVars_owners w₃ outside ((@s₃ []).formed (s₂.formed formed)) member₃ h
  have first := (newOwners_memberScope h₂).before spares₃
  have rest : NewOwners [] _ _ := .of_same same
  have all := first.trans rest fun n mem => by
    rw [List.mem_singleton.mp mem, kept]
  exact all

theorem visitLibraries_owners {n : NodeId} {scope exports : ScopeId} {owner : SymbolId} {u : PUnit}
    (libraries : List Library) (w : Waiting (libraries.flatMap Library.nodeIds) b)
    (formed : Formed b) (outside : n ∉ libraries.flatMap Library.nodeIds)
    (member : b.MembersOf n scope owner)
    (exported : (b.arena.scope exports).kind = .exports owner)
    (h : visitLibraries scope exports libraries b = .ok (u, b')) :
    NewOwners (libraries.map (·.node.id)) b b' := by
  induction libraries generalizing b with
  | nil =>
    rw [visitLibraries, pure_eq_ok] at h
    exact h.2 ▸ .refl b
  | cons l rest ih =>
    rw [List.flatMap_cons] at w outside
    rw [List.mem_append, not_or] at outside
    simp only [visitLibraries, bind_eq_ok] at h
    obtain ⟨id?, b₁, hd, h⟩ := h
    have home : n ∈ [n, l.node.id] := by simp
    have mem : l.node.id ∈ [n, l.node.id] := by simp
    have s₁ : Steps [n, l.node.id] b b₁ := declareMember_steps mem home member (fun h => by cases h)
      (fun σ h => by cases h) (fun h => by cases h) hd
    have member₁ := s₁.membersOf member
    have exported₁ := s₁.kind exported (fun h => by cases h)
    have spares := KeepsOwners.declare _ _ hd
    -- The nodes of the other libraries are neither that of the module nor those of this library.
    have apart : (rest.flatMap Library.nodeIds).Disjoint (n :: l.nodeIds) := by
      rw [List.disjoint_cons_right]
      exact ⟨outside.2, List.disjoint_comm.mp (List.nodup_append'.mp w.nodup).2.2⟩
    cases id? with
    | none =>
      have wide : Steps (n :: l.nodeIds) _ _ := s₁.mono (by simp [Library.nodeIds])
      have w₁ := w.right.skip wide apart
      exact ((ih w₁ (s₁.formed formed) outside.2 member₁ exported₁ h).after
        spares.toSameOwners).mono (by simp)
    | some symbol =>
      have opens : b.Opens [n, l.node.id] scope := opens_of_members home member
      obtain ⟨declared, target, place, bare, node, called, shown⟩ :=
        declare_owner mem opens.hosts.1 (admits_owner member fun h => by cases h)
          (opens.opened _) hd
      have own : (b₁.arena.symbol symbol).node.id = l.node.id := by rw [node]
      simp only [bind_eq_ok] at h
      obtain ⟨members, b₂, h₂, h⟩ := h
      have member₂ := membersOf_memberScope declared own h₂
      have s₂ : Steps [l.node.id] b₁ b₂ := by
        obtain ⟨-, rfl⟩ := memberScope_eq_ok.mp h₂
        exact .single (.members _ (List.mem_cons_self ..) declared own (by rw [target]; rfl)
          ⟨owner, by rw [place]; exact member₁.kind⟩ bare (.inr ⟨owner, member₁.kind⟩)
          (.inl (congrArg some place.symm)))
      obtain ⟨b₃, s₃, spares₃, h⟩ : ∃ b₃, (∀ {ids}, Steps ids b₂ b₃) ∧ Spares b₂ b₃ ∧
          (visitVars members l.vars >>= fun _ => visitLibraries scope exports rest) b₃ =
            .ok (u, b') := by
        cases he : l.exported with
        | true =>
          simp only [he, if_true, bind_eq_ok] at h
          obtain ⟨_, b₃, h₃, h⟩ := h
          exact ⟨b₃, fun {ids} => publishLibrary_steps declared target place called (shown.trans he)
            member₁ exported₁ s₂ h₃, KeepsOwners.publish _ _ _ h₃, bind_eq_ok.mpr h⟩
        | false =>
          simp only [he, Bool.false_eq_true, if_false] at h
          exact ⟨b₂, .refl, .refl b₂, h⟩
      rw [bind_eq_ok] at h
      obtain ⟨_, b₄, h₄, h⟩ := h
      have s₄ : Steps l.nodeIds b₃ b₄ := visitVars_steps (List.subset_cons_self ..)
        (opens_of_members (List.mem_cons_self ..) ((@s₃ []).membersOf member₂)) h₄
      have here : Steps (n :: l.nodeIds) b b₄ :=
        ((s₁.mono (by simp [Library.nodeIds])).trans
          ((s₂.trans s₃).mono (by simp [Library.nodeIds]))).trans
            (s₄.mono (List.subset_cons_self ..))
      have member₄ := here.membersOf member
      have exported₄ := here.kind exported (fun h => by cases h)
      have s₅ : Steps (n :: rest.flatMap Library.nodeIds) b₄ b' := visitLibraries_steps rest
        (List.subset_cons_self ..) (List.mem_cons_self ..) member₄ exported₄ h
      have out : (idsOfVars l.vars).Disjoint [n] := by
        rw [List.disjoint_singleton]
        exact fun mem => outside.1 (List.mem_cons_of_mem _ mem)
      have group := (memberScope_owners w.left [n] out s₁ (s₁.formed formed) declared own h₂ s₂ s₃
        spares₃ h₄).after spares.toSameOwners
      have others := ih (w.right.skip here apart) (here.formed formed) outside.2 member₄ exported₄ h
      refine group.trans others fun id mem => (s₅.sameEntries ?_).created
      rw [List.mem_singleton.mp mem, List.mem_cons, not_or]
      exact ⟨fun same => outside.1 (same ▸ List.mem_cons_self ..),
        fun later => apart later (List.mem_cons_of_mem _ (List.mem_cons_self ..))⟩

theorem visitSections_owners {n : NodeId} {scope : ScopeId} {owner : SymbolId} {u : PUnit}
    (sections : List Section) (w : Waiting (sections.flatMap Section.nodeIds) b)
    (formed : Formed b) (outside : n ∉ sections.flatMap Section.nodeIds)
    (member : b.MembersOf n scope owner)
    (interactive : (b.arena.symbol owner).target = .interactive)
    (nests : b.Nests Analysis.unitsScope) (h : visitSections scope sections b = .ok (u, b')) :
    NewOwners (sections.map (·.node.id)) b b' := by
  induction sections generalizing b with
  | nil =>
    rw [visitSections, pure_eq_ok] at h
    exact h.2 ▸ .refl b
  | cons s rest ih =>
    rw [List.flatMap_cons] at w outside
    rw [List.mem_append, not_or] at outside
    simp only [visitSections, bind_eq_ok] at h
    obtain ⟨id?, b₁, hd, h⟩ := h
    have home : n ∈ [n, s.node.id] := by simp
    have mem : s.node.id ∈ [n, s.node.id] := by simp
    have s₁ : Steps [n, s.node.id] b b₁ := declareMember_steps mem home member (fun h => by cases h)
      (fun σ h => by cases h) (fun h => by cases h) hd
    have member₁ := s₁.membersOf member
    have interactive₁ := (s₁.target member.known).trans interactive
    have spares := KeepsOwners.declare _ _ hd
    have apart : (rest.flatMap Section.nodeIds).Disjoint (n :: s.nodeIds) := by
      rw [List.disjoint_cons_right]
      exact ⟨outside.2, List.disjoint_comm.mp (List.nodup_append'.mp w.nodup).2.2⟩
    cases id? with
    | none =>
      have wide : Steps (n :: s.nodeIds) _ _ := s₁.mono (by simp [Section.nodeIds])
      have w₁ := w.right.skip wide apart
      exact ((ih w₁ (s₁.formed formed) outside.2 member₁ interactive₁ (s₁.nests nests) h).after
        spares.toSameOwners).mono (by simp)
    | some symbol =>
      have opens : b.Opens [n, s.node.id] scope := opens_of_members home member
      obtain ⟨declared, target, place, bare, node, -⟩ :=
        declare_owner mem opens.hosts.1 (admits_owner member fun h => by cases h)
          (opens.opened _) hd
      have own : (b₁.arena.symbol symbol).node.id = s.node.id := by rw [node]
      simp only [bind_eq_ok] at h
      obtain ⟨members, b₂, h₂, _, b₃, h₃, h⟩ := h
      have member₂ := membersOf_memberScope declared own h₂
      have s₂ : Steps [s.node.id] b₁ b₂ := by
        obtain ⟨-, rfl⟩ := memberScope_eq_ok.mp h₂
        exact .single (.members _ (List.mem_cons_self ..) declared own (by rw [target]; rfl)
          ⟨owner, by rw [place]; exact member₁.kind⟩ bare (s₁.nests nests)
          (.inr ⟨owner, by rw [place]; exact member₁.kind, interactive₁⟩))
      have s₃ : Steps s.nodeIds b₂ b₃ := visitVars_steps (List.subset_cons_self ..)
        (opens_of_members (List.mem_cons_self ..) member₂) h₃
      have here : Steps (n :: s.nodeIds) b b₃ :=
        ((s₁.mono (by simp [Section.nodeIds])).trans (s₂.mono (by simp [Section.nodeIds]))).trans
          (s₃.mono (List.subset_cons_self ..))
      have member₃ := here.membersOf member
      have interactive₃ := (here.target member.known).trans interactive
      have s₄ : Steps (n :: rest.flatMap Section.nodeIds) b₃ b' := visitSections_steps rest
        (List.subset_cons_self ..) (List.mem_cons_self ..) member₃ interactive₃ (here.nests nests) h
      have out : (idsOfVars s.vars).Disjoint [n] := by
        rw [List.disjoint_singleton]
        exact fun mem => outside.1 (List.mem_cons_of_mem _ mem)
      have group :=
        (memberScope_owners w.left [n] out s₁ (s₁.formed formed) declared own h₂ s₂ .refl
        (.refl b₂) h₃).after spares.toSameOwners
      have others :=
        ih (w.right.skip here apart) (here.formed formed) outside.2 member₃ interactive₃
        (here.nests nests) h
      refine group.trans others fun id mem => (s₄.sameEntries ?_).created
      rw [List.mem_singleton.mp mem, List.mem_cons, not_or]
      exact ⟨fun same => outside.1 (same ▸ List.mem_cons_self ..),
        fun later => apart later (List.mem_cons_of_mem _ (List.mem_cons_self ..))⟩

/-! ## Units -/

/-- The nodes of the groups of a unit. -/
def groupNodes (u : SourceUnit) : List NodeId := u.groups.map (·.1.id)

theorem groupNodes_subset (unit : SourceUnit) : groupNodes unit ⊆ unit.kind.nodeIds := by
  intro id mem
  rw [groupNodes, SourceUnit.groups] at mem
  cases hk : unit.kind with
  | module m =>
    simp only [hk, List.map_map, List.mem_map] at mem
    obtain ⟨l, hl, rfl⟩ := mem
    rw [UnitKind.nodeIds, Module.nodeIds]
    exact List.mem_append_left _ (List.mem_append_right _
      (List.mem_flatMap.mpr ⟨l, hl, List.mem_cons_self ..⟩))
  | interactive sections =>
    simp only [hk, List.map_map, List.mem_map] at mem
    obtain ⟨s, hs, rfl⟩ := mem
    rw [UnitKind.nodeIds]
    exact List.mem_flatMap.mpr ⟨s, hs, List.mem_cons_self ..⟩

theorem visitUnit_owners {unit : SourceUnit} {symbol : SymbolId} {u : PUnit} (formed : Formed b)
    (housed : Housed b unit symbol) (w : Waiting unit.kind.nodeIds b)
    (outside : unit.node.id ∉ unit.kind.nodeIds)
    (h : (match unit.kind with
      | .module m => visitModule m symbol
      | .interactive sections => visitInteractive sections symbol) b = .ok (u, b')) :
    NewOwners (groupNodes unit) b b' := by
  obtain ⟨scope, hm⟩ := Option.isSome_iff_exists.mp housed.members
  have member := formed.membersOf hm
  rw [housed.node] at member
  have target := housed.target
  cases hk : unit.kind with
  | module m =>
    rw [hk] at target
    obtain ⟨exports, he⟩ := Option.isSome_iff_exists.mp (housed.exports m hk)
    have exported := formed.arena.exports symbol exports he
    simp only [hk, visitModule, bind_eq_ok, get_eq_ok] at h
    obtain ⟨_, _, ⟨rfl, rfl⟩, h⟩ := h
    simp only [hm, he, bind_eq_ok] at h
    obtain ⟨_, b₁, h₁, _, b₂, h₂, _, b₃, h₃, h⟩ := h
    rw [hk, UnitKind.nodeIds, Module.nodeIds] at w outside
    simp only [List.mem_append, not_or] at outside
    have own : ∀ {ids : List NodeId}, unit.node.id ∈ unit.node.id :: ids := List.mem_cons_self ..
    have s₁ : Steps (unit.node.id :: m.imports.flatMap Import.nodeIds) b b₁ :=
      declareImports_steps m.imports (List.subset_cons_self ..) own member target h₁
    have s₂ : Steps (unit.node.id :: m.aliases.map (·.node.id)) b₁ b₂ :=
      declareAliases_steps m.aliases (List.subset_cons_self ..) own (s₁.membersOf member)
        ((s₁.target member.known).trans target) h₂
    have s₁₂ : Steps (unit.node.id :: (m.imports.flatMap Import.nodeIds ++
        m.aliases.map (·.node.id))) b b₂ := (s₁.mono (by simp)).trans (s₂.mono (by simp))
    have wl : Waiting (m.libraries.flatMap Library.nodeIds) b₂ := by
      refine w.left.right.skip s₁₂ ?_
      rw [List.disjoint_cons_right]
      exact ⟨outside.1.2, List.disjoint_comm.mp (List.nodup_append'.mp w.left.nodup).2.2⟩
    have libraries := visitLibraries_owners m.libraries wl (s₁₂.formed formed) outside.1.2
      (s₁₂.membersOf member) (s₁₂.kind exported (fun h => by cases h)) h₃
    have nodes : groupNodes unit = m.libraries.map (·.node.id) := by
      rw [groupNodes, SourceUnit.groups, hk, List.map_map]
      rfl
    have first := (KeepsOwners.declareImports _ _ h₁).trans (KeepsOwners.declareAliases _ _ h₂)
    rw [nodes]
    exact (libraries.after first.toSameOwners).before (KeepsOwners.declareExports _ _ _ h)
  | interactive sections =>
    simp only [hk, visitInteractive, bind_eq_ok, get_eq_ok] at h
    obtain ⟨_, _, ⟨rfl, rfl⟩, h⟩ := h
    simp only [hm] at h
    rw [hk] at w outside target
    have nodes : groupNodes unit = sections.map (·.node.id) := by
      rw [groupNodes, SourceUnit.groups, hk, List.map_map]
      rfl
    rw [nodes]
    exact visitSections_owners sections w formed outside member target
      (.inl ((formed.arena.units _).mpr rfl)) h

/-- Visiting a unit is the same step whether it is taken alone or first. -/
theorem visitUnits_cons {unit : SourceUnit} {symbol : SymbolId}
    {rest : List (SourceUnit × SymbolId)} {u : PUnit}
    (h : visitUnits ((unit, symbol) :: rest) b = .ok (u, b')) :
    ∃ b₁, (match unit.kind with
        | .module m => visitModule m symbol
        | .interactive sections => visitInteractive sections symbol) b = .ok (⟨⟩, b₁) ∧
      visitUnits rest b₁ = .ok (u, b') := by
  simp only [visitUnits] at h
  cases hk : unit.kind with
  | module m =>
    simp only [hk, bind_eq_ok] at h
    obtain ⟨_, b₁, h₁, h⟩ := h
    exact ⟨b₁, h₁, h⟩
  | interactive sections =>
    simp only [hk, bind_eq_ok] at h
    obtain ⟨_, b₁, h₁, h⟩ := h
    exact ⟨b₁, h₁, h⟩

/-- Visiting a unit takes steps for its own nodes. -/
theorem visitUnit_steps {unit : SourceUnit} {symbol : SymbolId} {u : PUnit} (formed : Formed b)
    (housed : Housed b unit symbol) (h : (match unit.kind with
      | .module m => visitModule m symbol
      | .interactive sections => visitInteractive sections symbol) b = .ok (u, b')) :
    Steps unit.nodeIds b b' := by
  have home : (b.arena.symbol symbol).node.id ∈ unit.nodeIds := by
    rw [housed.node]
    exact List.mem_cons_self ..
  cases hk : unit.kind with
  | module m =>
    rw [hk] at h
    exact visitModule_steps (by rw [SourceUnit.nodeIds, hk]; exact List.subset_cons_self ..) home
      formed (housed.target.trans (by rw [hk]; rfl)) h
  | interactive sections =>
    rw [hk] at h
    exact visitInteractive_steps (by rw [SourceUnit.nodeIds, hk]; exact List.subset_cons_self ..)
      home formed (housed.target.trans (by rw [hk]; rfl)) h

/-- **The groups of units get scopes of members, and nothing else does.** -/
theorem visitUnits_owners {u : PUnit} (pairs : List (SourceUnit × SymbolId)) (formed : Formed b)
    (housed : ∀ pair ∈ pairs, Housed b pair.1 pair.2)
    (nodup : (pairs.flatMap fun pair => pair.1.nodeIds).Nodup)
    (w : Waiting (pairs.flatMap fun pair => pair.1.kind.nodeIds) b)
    (h : visitUnits pairs b = .ok (u, b')) :
    NewOwners (pairs.flatMap fun pair => groupNodes pair.1) b b' := by
  induction pairs generalizing b with
  | nil =>
    rw [visitUnits, pure_eq_ok] at h
    exact h.2 ▸ .refl b
  | cons pair rest ih =>
    obtain ⟨unit, symbol⟩ := pair
    obtain ⟨b₁, h₁, h⟩ := visitUnits_cons h
    have house := housed _ (List.mem_cons_self ..)
    have here := visitUnit_steps formed house h₁
    have formed₁ := here.formed formed
    have housed₁ : ∀ pair ∈ rest, Housed b₁ pair.1 pair.2 :=
      fun pair hp => (housed pair (List.mem_cons_of_mem _ hp)).stays here
    have there : Steps (rest.flatMap fun pair => pair.1.nodeIds) b₁ b' := visitUnits_steps rest
      (fun pair hp id hid => List.mem_flatMap.mpr ⟨pair, hp, hid⟩) formed₁ housed₁ h
    rw [List.flatMap_cons, List.nodup_append'] at nodup
    obtain ⟨nodupUnit, nodupRest, apart⟩ := nodup
    rw [List.flatMap_cons] at w
    have wr : Waiting (rest.flatMap fun pair => pair.1.kind.nodeIds) b₁ := by
      refine w.right.skip here fun id mem mem' => ?_
      obtain ⟨pair, hp, hid⟩ := List.mem_flatMap.mp mem
      exact apart mem' (List.mem_flatMap.mpr ⟨pair, hp, List.mem_cons_of_mem _ hid⟩)
    have first := visitUnit_owners formed house w.left (List.nodup_cons.mp nodupUnit).1 h₁
    refine first.trans (ih formed₁ housed₁ nodupRest wr h) fun n mem =>
      (there.sameEntries ?_).created
    exact apart (List.mem_cons_of_mem _ (groupNodes_subset unit mem))

/-- Only units that were declared are entered as units and have members. -/
theorem declareUnits_owners (units : List SourceUnit) {pairs : List (SourceUnit × SymbolId)}
    (h : declareUnits units b = .ok (pairs, b')) : (pairs.map (·.1)).Sublist units ∧
    (∀ path s, Entries.get? b'.analysis.units path = some s →
        Entries.get? b.analysis.units path = some s ∨ ∃ pair ∈ pairs, pair.2 = s ∧
          pair.1.path = path) ∧
      ∀ s σ, (b'.arena.symbol s).members = some σ →
        (b.arena.symbol s).members = some σ ∨ ∃ pair ∈ pairs, pair.2 = s := by
  induction units generalizing b pairs with
  | nil =>
    rw [declareUnits, pure_eq_ok] at h
    obtain ⟨rfl, rfl⟩ := h
    exact ⟨.slnil, fun _ _ => .inl, fun _ _ => .inl⟩
  | cons u rest ih =>
    simp only [declareUnits, bind_eq_ok] at h
    obtain ⟨id?, b₁, h₁, h⟩ := h
    obtain ⟨-, paths, owners⟩ := declareUnit_owners h₁
    -- What is true of the other units is true of all of them.
    have weaken : ∀ {more : List (SourceUnit × SymbolId)} {P : SourceUnit × SymbolId → Prop},
        more ⊆ pairs → (∃ pair ∈ more, P pair) → ∃ pair ∈ pairs, P pair :=
      fun sub found => found.imp fun _ has => ⟨sub has.1, has.2⟩
    obtain ⟨more, sub, head, h, few⟩ : ∃ more, more ⊆ pairs ∧
        (∀ s, id? = some s → (u, s) ∈ pairs) ∧ declareUnits rest b₁ = .ok (more, b') ∧
        ((more.map (·.1)).Sublist rest → (pairs.map (·.1)).Sublist (u :: rest)) := by
      cases id? with
      | none =>
        exact ⟨pairs, List.Subset.refl _, fun s hs => (by cases hs), h, fun few => few.cons u⟩
      | some symbol =>
        simp only [bind_eq_ok, pure_eq_ok] at h
        obtain ⟨more, b₂, h₂, rfl, rfl⟩ := h
        refine ⟨more, List.subset_cons_self .., fun s hs => ?_, h₂, fun few => few.cons_cons u⟩
        cases hs
        exact List.mem_cons_self ..
    obtain ⟨sublist, paths', owners'⟩ := ih h
    refine ⟨few sublist, fun path s hs => ?_, fun s σ hs => ?_⟩
    · rcases paths' path s hs with hs | found
      · rcases paths path s hs with hs | ⟨declared, same⟩
        · exact .inl hs
        · exact .inr ⟨_, head s declared, rfl, same⟩
      · exact .inr (weaken sub found)
    · rcases owners' s σ hs with hs | found
      · rcases owners s σ hs with hs | declared
        · exact .inl hs
        · exact .inr ⟨_, head s declared, rfl⟩
      · exact .inr (weaken sub found)

end Build

/-- No node stands in two units. -/
theorem UnitSet.Numbered.disjoint {units : UnitSet} (numbered : units.Numbered) {u v : SourceUnit}
    (hu : u ∈ units) (hv : v ∈ units) (other : u ≠ v) : u.nodeIds.Disjoint v.nodeIds :=
  have : Std.Symm (Function.onFun List.Disjoint SourceUnit.nodeIds) :=
    ⟨fun _ _ h => List.disjoint_comm.mp h⟩
  (List.nodup_flatMap.mp numbered.nodup).2.forall hu hv other

/-- Units are declared under nodes that stand nowhere inside a unit. -/
theorem UnitSet.Numbered.apart {units : UnitSet} (numbered : units.Numbered) {u : SourceUnit}
    (hu : u ∈ units) {id : NodeId} (key : id ∈ Build.unitKeys units) : id ∉ u.kind.nodeIds := by
  intro mem
  obtain ⟨each, -⟩ := List.nodup_flatMap.mp numbered.nodup
  obtain ⟨v, hv, key⟩ := List.mem_flatMap.mp key
  rcases List.mem_cons.mp key with rfl | key
  · by_cases same : v = u
    · subst same
      exact (List.nodup_cons.mp (each v hv)).1 mem
    · exact numbered.disjoint hv hu same (List.mem_cons_self ..) (List.mem_cons_of_mem _ mem)
  · rw [List.mem_singleton.mp key] at mem
    obtain ⟨index, htree⟩ := numbered.tree _
      (List.mem_flatMap.mpr ⟨u, hu, List.mem_cons_of_mem _ mem⟩)
    cases htree

/-- When the units have been declared, everything inside them waits. -/
theorem declareUnits_waiting {recovery : Bool} {units : UnitSet} {b : Building}
    {pairs : List (SourceUnit × SymbolId)} (numbered : units.Numbered)
    (s : Build.Steps (Build.unitKeys units) (.start recovery) b)
    (few : (pairs.map (·.1)).Sublist units) :
    (pairs.flatMap fun pair => pair.1.nodeIds).Nodup ∧
      Build.Waiting (pairs.flatMap fun pair => pair.1.kind.nodeIds) b := by
  have known : ∀ pair ∈ pairs, pair.1 ∈ units := fun pair hp =>
    few.subset (List.mem_map.mpr ⟨pair, hp, rfl⟩)
  have nodup : (pairs.flatMap fun pair => pair.1.nodeIds).Nodup := by
    have sub := few.flatMap SourceUnit.nodeIds
    rw [List.flatMap_map] at sub
    exact sub.nodup numbered.nodup
  have inner : (pairs.flatMap fun pair => pair.1.kind.nodeIds).Sublist
      (pairs.flatMap fun pair => pair.1.nodeIds) :=
    List.Sublist.flatMap_right pairs fun pair _ => List.sublist_cons_self ..
  refine ⟨nodup, inner.nodup nodup, fun node mem => ?_, fun t ht mem => ?_⟩
  · obtain ⟨pair, hp, hid⟩ := List.mem_flatMap.mp mem
    obtain ⟨index, htree⟩ := numbered.tree _
      (List.mem_flatMap.mpr ⟨_, known pair hp, List.mem_cons_of_mem _ hid⟩)
    cases htree
  · -- So far there are only symbols of units and global names.
    obtain ⟨pair, hp, hid⟩ := List.mem_flatMap.mp mem
    rcases s.symbolNode ht with old | new
    · exact absurd old (Nat.not_lt_zero t)
    · exact numbered.apart (known pair hp) new hid

/-- **Whatever has members is a unit of the program or one of its groups**, which the tables
describe, and the unit itself has members. Only units of the program are found by a path. -/
theorem buildScopes_owners {recovery : Bool} {units : UnitSet} {a : Analysis}
    {pending : List PendingReference} (numbered : units.Numbered)
    (h : buildScopes recovery units = .ok (a, pending)) :
    (∀ path s, a.unit? path = some s → ∃ u ∈ units, u.path = path) ∧
      ∀ s σ, (a.arena.symbol s).members = some σ → ∃ u ∈ units, ∃ unit home,
        a.unit? u.path = some unit ∧ (a.arena.symbol unit).members = some home ∧
        (unit = s ∨ ∃ g ∈ u.groups, a.createdScopes.get? g.1.id = some σ) := by
  obtain ⟨pairs, b₁, b, u, h₁, h₂, rfl, rfl⟩ := Build.pass_eq_ok h
  have formed := Building.formed_start recovery
  have knownGlobal : (Building.start recovery).HasScope Analysis.globalScope := by
    show 0 < 2
    decide
  obtain ⟨s₁, hpairs⟩ := Build.declareUnits_steps units (List.Subset.refl _) formed knownGlobal rfl
    (Building.onlyUnits_start _) h₁
  have formed₁ := s₁.formed formed
  have housed : ∀ pair ∈ pairs, Build.Housed b₁ pair.1 pair.2 := fun pair hp => (hpairs pair hp).2
  have s₂ : Build.Steps (UnitSet.nodeIds units) b₁ b := Build.visitUnits_steps pairs
    (fun pair hp id hid => List.mem_flatMap.mpr ⟨_, (hpairs pair hp).1, hid⟩) formed₁ housed h₂
  have formed₂ := s₂.formed formed₁
  obtain ⟨few, paths, declared⟩ := Build.declareUnits_owners units h₁
  obtain ⟨nodup, w⟩ := declareUnits_waiting numbered s₁ few
  have owners := Build.visitUnits_owners pairs formed₁ housed nodup w h₂
  -- A unit that was declared is found by its path and has members.
  have found : ∀ pair ∈ pairs, ∃ home, Entries.get? b.analysis.units pair.1.path = some pair.2 ∧
      (b.arena.symbol pair.2).members = some home := by
    intro pair hp
    have house := (housed pair hp).stays s₂
    obtain ⟨home, hm⟩ := Option.isSome_iff_exists.mp house.members
    refine ⟨home, ?_, hm⟩
    rw [← house.name]
    exact formed₂.path pair.2 house.home house.members
  refine ⟨fun path s hs => ?_, fun s σ members => ?_⟩
  · change Entries.get? b.analysis.units path = some s at hs
    rw [owners.units] at hs
    rcases paths path s hs with none | ⟨pair, hp, -, rfl⟩
    · cases none
    · exact ⟨pair.1, (hpairs pair hp).1, rfl⟩
  rcases owners.members s σ members with old | ⟨n, mem, created⟩
  · rcases declared s σ old with none | ⟨pair, hp, rfl⟩
    · cases none
    · obtain ⟨home, path, hm⟩ := found pair hp
      exact ⟨pair.1, (hpairs pair hp).1, pair.2, home, path, hm, .inl rfl⟩
  · obtain ⟨pair, hp, mem⟩ := List.mem_flatMap.mp mem
    obtain ⟨g, hg, rfl⟩ := List.mem_map.mp mem
    obtain ⟨home, path, hm⟩ := found pair hp
    exact ⟨pair.1, (hpairs pair hp).1, pair.2, home, path, hm, .inr ⟨g, hg, created⟩⟩

end CellScript
