import CellScript.Proofs.Scope.Homes
import CellScript.Proofs.Scope.Visited

/-!
# What analysis knows about the definitions of units

The definitions of a program stand in groups, the libraries of modules and the sections of
interactive units. If the nodes of a program are told apart and its first pass has ended without a
fault, the tables describe every definition.

* `Analysis.GroupOf` — a group has a scope, in which its definitions stand
* `buildScopes_groups` — all groups of a program are described
-/

namespace CellScript

/-- The definition declares a variable of its name and type. -/
def Analysis.DefinesVar (a : Analysis) (v : VarDef) : Prop :=
  ∃ t, a.definitions.get? v.node.id = some t ∧ a.arena.IsVariable t ∧
    (a.arena.symbol t).name = v.name ∧ (a.arena.symbol t).ty = v.ty

/-- A group of definitions as the tables describe it: the symbol `s`, declared in `home` under a
name, owns the scope of members `σ`, in which the definitions stand and nothing else; `R` holds of
all references in them. -/
structure Analysis.Group (a : Analysis) (R : ScopeId → NodeId → Prop) (home : ScopeId)
    (name : String) (node : NodeId) (vars : List VarDef) (σ : ScopeId) (s : SymbolId) : Prop where
  created : a.createdScopes.get? node = some σ
  kind : (a.arena.scope σ).kind = .members s
  known : s < a.arena.symbols.size
  members : (a.arena.symbol s).members = some σ
  node : (a.arena.symbol s).node.id = node
  home : (a.arena.symbol s).scope = home
  name : (a.arena.symbol s).name = name
  fills : a.Fills (vars.map (·.node.id)) σ
  named : ∀ v ∈ vars, a.DefinesVar v
  sound : soundVars a R σ vars

/-- The tables describe a group of definitions. -/
def Analysis.GroupOf (a : Analysis) (R : ScopeId → NodeId → Prop) (home : ScopeId) (name : String)
    (node : NodeId) (vars : List VarDef) : Prop :=
  ∃ σ s, a.Group R home name node vars σ s

/-- The groups of definitions of a unit with their names. -/
def SourceUnit.namedGroups (u : SourceUnit) : List (String × Node × List VarDef) :=
  match u.kind with
  | .module m => m.libraries.map fun l => (l.name, l.node, l.vars)
  | .interactive sections => sections.map fun s => (s.module, s.node, s.vars)

theorem SourceUnit.map_namedGroups (u : SourceUnit) : u.namedGroups.map (·.2) = u.groups := by
  unfold namedGroups groups
  cases u.kind <;> exact List.map_map

theorem soundVars_of_values {a : Analysis} {R : ScopeId → NodeId → Prop} {σ : ScopeId}
    (vars : List VarDef) (h : soundExprs a R σ (vars.map (·.value))) : soundVars a R σ vars := by
  induction vars with
  | nil => trivial
  | cons v rest ih =>
    obtain ⟨node, name, ty, e⟩ := v
    exact ⟨h.1, ih h.2⟩

namespace Build

variable {ids more : List NodeId} {b b' b'' bf : Building} {a : Analysis}
  {R : ScopeId → NodeId → Prop}

/-! ## Groups -/

/-- Nothing is declared among the members of a node while other nodes are visited. -/
theorem filled_members {n : NodeId} {σ : ScopeId} {s : SymbolId} (member : b.MembersOf n σ s)
    (steps : Steps ids b b') (absent : n ∉ ids) : Filled a n σ [] b b' :=
  .of_same (congrArg Scope.slots (steps.membersScope member absent)) steps absent

theorem declareVars_filled {n : NodeId} {σ : ScopeId} {s : SymbolId} {u : PUnit}
    (fin : Finished bf a R) (vars : List VarDef) (w : Window (vars.map (·.node.id)) b b' bf)
    (member : b.MembersOf n σ s) (outside : n ∉ vars.map (·.node.id))
    (h : declareVars σ vars b = .ok (u, b')) : Filled a n σ (vars.map (·.node.id)) b b' ∧
      ∀ v ∈ vars, a.DefinesVar v := by
  induction vars generalizing b with
  | nil =>
    rw [declareVars, pure_eq_ok] at h
    obtain ⟨-, rfl⟩ := h
    exact ⟨.refl, fun v hv => by cases hv⟩
  | cons v rest ih =>
    rw [List.map_cons, List.mem_cons, not_or] at outside
    simp only [declareVars, bind_eq_ok] at h
    obtain ⟨_, b₁, h₁, h⟩ := h
    have s₁ : Steps [n, v.node.id] b b₁ :=
      declareVar_steps (by simp) (opens_of_members (n := n) (by simp) member) h₁
    have member₁ := s₁.membersOf member
    have s₂ : Steps (n :: rest.map (·.node.id)) b₁ b' := declareVars_steps rest
      (List.subset_cons_self ..) (opens_of_members (List.mem_cons_self ..) member₁) h
    have wv : Window [v.node.id] b b₁ bf := Window.before (l := [v.node.id]) w [n]
      (by simpa using outside.1) s₂
    obtain ⟨filled, names⟩ := ih (Window.after (l := [v.node.id]) w [n]
      (by simpa using outside.2) s₁) member₁ outside.2 h
    have opens : b.Opens [n] σ := opens_of_members (List.mem_singleton.mpr rfl) member
    have first : Filled a n σ [v.node.id] b b₁ :=
      .declare fin wv (List.mem_singleton.mpr rfl) outside.1 w.strict opens.hosts.1 h₁
    refine ⟨first.append filled, List.forall_mem_cons.mpr ⟨?_, names⟩⟩
    obtain ⟨-, definitions, -, -, arena⟩ := declare_strict w.strict h₁
    obtain ⟨more, later⟩ := wv.steps
    have known : b.arena.symbols.size < b₁.arena.symbols.size := by
      rw [arena, Arena.size_symbols_withDeclared]
      exact Nat.lt_succ_self _
    have declared : (bf.arena.symbol b.arena.symbols.size).toDeclaration =
        .var v.name v.ty v.node := by
      rw [(later.sameSymbol known).2.declaration, arena, Arena.symbol_withDeclared, if_pos rfl]
      rfl
    have kept := fin.direct _ (congrArg Declaration.binding declared)
    refine ⟨b.arena.symbols.size, ?_, ⟨?_, ?_⟩, ?_, ?_⟩
    · rw [fin.definitions, (wv.entries (List.mem_singleton.mpr rfl)).definition, definitions,
        Table.get?_insert]
      exact if_pos rfl
    all_goals rw [kept]
    exacts [congrArg Declaration.binding declared, congrArg Declaration.target declared,
      congrArg Declaration.name declared, congrArg Declaration.ty declared]

theorem visitVars_sound {n : NodeId} {σ : ScopeId} {s : SymbolId} {vars : List VarDef} {u : PUnit}
    (fin : Finished bf a R) (w : Window (idsOfVars vars) b b' bf) (member : b.MembersOf n σ s)
    (outside : n ∉ idsOfVars vars) (h : visitVars σ vars b = .ok (u, b')) :
    soundVars a R σ vars ∧ Filled a n σ (vars.map (·.node.id)) b b' ∧
      ∀ v ∈ vars, a.DefinesVar v := by
  simp only [visitVars, visitValues_eq, bind_eq_ok] at h
  obtain ⟨_, b₁, h₁, h⟩ := h
  have parts : ∀ {id}, id ∈ vars.map (·.node.id) ++ idsOfExprs (vars.map (·.value)) →
      id ∈ idsOfVars vars := fun mem => (idsOfVars_perm vars).symm.subset mem
  have s₁ : Steps (n :: vars.map (·.node.id)) b b₁ := declareVars_steps vars
    (List.subset_cons_self ..) (opens_of_members (List.mem_cons_self ..) member) h₁
  have member₁ := s₁.membersOf member
  have opens₁ : b₁.Opens [n] σ := opens_of_members (List.mem_singleton.mpr rfl) member₁
  have s₂ := visitExprs_steps opens₁.hosts _ (List.Subset.refl _) h
  have sorted := w.narrow fun id => Nat.le_of_eq
    ((List.perm_iff_count.mp (idsOfVars_perm vars)) id).symm
  have names : n ∉ vars.map (·.node.id) := fun mem => outside (parts (List.mem_append_left _ mem))
  have values : n ∉ idsOfExprs (vars.map (·.value)) :=
    fun mem => outside (parts (List.mem_append_right _ mem))
  have w₁ : Window (idsOfExprs (vars.map (·.value))) b₁ b' bf :=
    sorted.after [n] (by simpa using values) s₁
  obtain ⟨filled, named⟩ := declareVars_filled fin vars (sorted.left s₂) member names h₁
  have all := filled.append (filled_members member₁ s₂ values)
  rw [List.append_nil] at all
  exact ⟨soundVars_of_values vars (visitExprs_sound fin opens₁.hosts _ w₁ h), all, named⟩

/-- A scope of members, with the definitions that are visited in it, becomes a group. -/
theorem groupOf_memberScope {owner : SymbolId} {enclosing σ home : ScopeId} {node : NodeId}
    {name : String} {vars : List VarDef} {b₁ b₂ b₃ : Building} {u : PUnit} (fin : Finished bf a R)
    (outer : List NodeId) (w : Window (node :: idsOfVars vars) b b' bf)
    (out : (idsOfVars vars).Disjoint outer)
    (s : Steps (outer ++ [node]) b b₁) (declared : b₁.HasOwner owner)
    (own : (b₁.arena.symbol owner).node.id = node) (place : (b₁.arena.symbol owner).scope = home)
    (called : (b₁.arena.symbol owner).name = name)
    (h₂ : memberScope owner enclosing node b₁ = .ok (σ, b₂)) (s₂ : Steps [node] b₁ b₂)
    (s₃ : ∀ {ids}, Steps ids b₂ b₃) (h : visitVars σ vars b₃ = .ok (u, b')) :
    a.GroupOf R home name node vars := by
  have member₂ := membersOf_memberScope declared own h₂
  have member₃ := (@s₃ []).membersOf member₂
  have outside := (List.nodup_cons.mp w.nodup).1
  have s₄ : Steps (node :: idsOfVars vars) b₃ b' := visitVars_steps (List.subset_cons_self ..)
    (opens_of_members (List.mem_cons_self ..) member₃) h
  have s₁₃ : Steps (outer ++ [node]) b b₃ := (s.trans (s₂.mono (by simp))).trans s₃
  obtain ⟨sound, filled, named⟩ := visitVars_sound fin
    (Window.after (l := [node]) w outer out s₁₃) member₃ outside h
  obtain ⟨more, rest, apart⟩ := w.later
  have absent : node ∉ more := apart (List.mem_cons_self ..)
  have first : Filled a node σ [] b₂ b₃ := filled_members member₂ (@s₃ []) (by simp)
  have last : Filled a node σ [] b' bf := filled_members (s₄.membersOf member₃) rest absent
  have all := (first.append filled).append last
  rw [List.append_nil, List.nil_append] at all
  have created : a.createdScopes.get? node = some σ := by
    rw [fin.created, all.entries.created]
    obtain ⟨rfl, rfl⟩ := memberScope_eq_ok.mp h₂
    show (Table.insert _ _ _).get? node = _
    rw [Table.get?_insert, if_pos rfl]
  have empty : (b₂.arena.scope σ).slots = [] := by
    obtain ⟨rfl, rfl⟩ := memberScope_eq_ok.mp h₂
    show ((Arena.newScope _ _ _ _).2.scope _).slots = []
    rw [Arena.scope_newScope, if_pos rfl]
  have last := rest.membersOf (s₄.membersOf member₃)
  have members : (b₂.arena.symbol owner).members = some σ := by
    obtain ⟨rfl, rfl⟩ := memberScope_eq_ok.mp h₂
    show ((Arena.modifySymbol _ owner _).symbol owner).members = _
    rw [Arena.symbol_modifySymbol_self]
    exact declared.1
  have later : Steps ((node :: idsOfVars vars) ++ more) b₂ bf :=
    ((@s₃ (node :: idsOfVars vars)).trans s₄).append rest
  have same₂ := (((s₂.append later)).sameSymbol declared.1).2
  refine ⟨σ, owner, ⟨created, ?_, ?_, ?_, ?_, ?_, ?_, all.fills empty fin, named, sound⟩⟩
  · rw [fin.kind]
    exact last.kind
  · rw [fin.size]
    exact last.known
  · rw [fin.members]
    exact (later.owning member₂.known).members σ members
  · rw [(fin.declared _).1]
    exact last.node
  · rw [(fin.symbol _).1, same₂.scope]
    exact place
  · rw [(fin.declared _).2.1, congrArg Declaration.name same₂.declaration]
    exact called

theorem visitLibraries_sound {n : NodeId} {scope exports : ScopeId} {owner : SymbolId} {u : PUnit}
    (fin : Finished bf a R) (libraries : List Library)
    (w : Window (libraries.flatMap Library.nodeIds) b b' bf)
    (outside : n ∉ libraries.flatMap Library.nodeIds) (member : b.MembersOf n scope owner)
    (exported : (b.arena.scope exports).kind = .exports owner)
    (h : visitLibraries scope exports libraries b = .ok (u, b')) :
    (∀ l ∈ libraries, a.GroupOf R scope l.name l.node.id l.vars) ∧
      (b.Bare scope → b'.Bare scope) := by
  induction libraries generalizing b with
  | nil =>
    rw [visitLibraries, pure_eq_ok] at h
    exact ⟨fun l hl => (by cases hl), fun bare => h.2 ▸ bare⟩
  | cons l rest ih =>
    rw [List.flatMap_cons, List.mem_append, not_or] at outside
    simp only [visitLibraries, bind_eq_ok] at h
    obtain ⟨id?, b₁, hd, h⟩ := h
    obtain ⟨rfl, -⟩ := declare_strict w.strict hd
    have home : n ∈ [n, l.node.id] := by simp
    have mem : l.node.id ∈ [n, l.node.id] := by simp
    have s₁ : Steps [n, l.node.id] b b₁ := declareMember_steps mem home member (fun h => by cases h)
      (fun σ h => by cases h) (fun h => by cases h) hd
    have member₁ := s₁.membersOf member
    have exported₁ := s₁.kind exported (fun h => by cases h)
    have opens : b.Opens [n, l.node.id] scope := opens_of_members home member
    obtain ⟨declared, target, place, bare, node, called, shown⟩ :=
      declare_owner mem opens.hosts.1 (admits_owner member fun h => by cases h) (opens.opened _) hd
    have own : (b₁.arena.symbol b.arena.symbols.size).node.id = l.node.id := by rw [node]
    simp only [bind_eq_ok] at h
    obtain ⟨members, b₂, h₂, h⟩ := h
    have member₂ := membersOf_memberScope declared own h₂
    have s₂ : Steps [l.node.id] b₁ b₂ := by
      obtain ⟨-, rfl⟩ := memberScope_eq_ok.mp h₂
      exact .single (.members _ (List.mem_cons_self ..) declared own (by rw [target]; rfl)
        ⟨owner, by rw [place]; exact member₁.kind⟩ bare (.inr ⟨owner, member₁.kind⟩)
        (.inl (congrArg some place.symm)))
    obtain ⟨b₃, s₃, h⟩ : ∃ b₃, (∀ {ids}, Steps ids b₂ b₃) ∧
        (visitVars members l.vars >>= fun _ => visitLibraries scope exports rest) b₃ =
          .ok (u, b') := by
      cases he : l.exported with
      | true =>
        simp only [he, if_true, bind_eq_ok] at h
        obtain ⟨_, b₃, h₃, h⟩ := h
        exact ⟨b₃, fun {ids} => publishLibrary_steps declared target place called (shown.trans he)
          member₁ exported₁ s₂ h₃, bind_eq_ok.mpr h⟩
      | false =>
        simp only [he, Bool.false_eq_true, if_false] at h
        exact ⟨b₂, .refl, h⟩
    rw [bind_eq_ok] at h
    obtain ⟨_, b₄, h₄, h⟩ := h
    have s₄ : Steps l.nodeIds b₃ b₄ := visitVars_steps (List.subset_cons_self ..)
      (opens_of_members (List.mem_cons_self ..) ((@s₃ []).membersOf member₂)) h₄
    have here : Steps (n :: l.nodeIds) b b₄ :=
      ((s₁.mono (by simp [Library.nodeIds])).trans
        ((s₂.trans s₃).mono (by simp [Library.nodeIds]))).trans
        (s₄.mono (List.subset_cons_self ..))
    have member₄ := here.membersOf member
    have exported₄ := here.kind exported (fun h => by cases h)
    have s₅ : Steps (n :: rest.flatMap Library.nodeIds) b₄ b' := visitLibraries_steps rest
      (List.subset_cons_self ..) (List.mem_cons_self ..) member₄ exported₄ h
    have apart : l.nodeIds.Disjoint [n] := by simpa using outside.1
    have group := groupOf_memberScope fin [n] (w.before [n] apart s₅)
      (fun id mem => apart (List.mem_cons_of_mem _ mem)) s₁ declared own place called h₂ s₂ s₃ h₄
    obtain ⟨groups, keeps⟩ :=
      ih (w.after [n] (by simpa using outside.2) here) outside.2 member₄ exported₄ h
    have there : Steps l.nodeIds b₁ b₄ :=
      ((s₂.trans s₃).mono (by simp [Library.nodeIds])).trans s₄
    exact ⟨List.forall_mem_cons.mpr ⟨group, groups⟩, fun bare =>
      keeps (there.bare member₁ outside.1
        (KeepsBare.declare scope _ (fun h => by cases h) hd scope bare))⟩

theorem visitSections_sound {n : NodeId} {scope : ScopeId} {owner : SymbolId} {u : PUnit}
    (fin : Finished bf a R) (sections : List Section)
    (w : Window (sections.flatMap Section.nodeIds) b b' bf)
    (outside : n ∉ sections.flatMap Section.nodeIds) (member : b.MembersOf n scope owner)
    (interactive : (b.arena.symbol owner).target = .interactive)
    (nests : b.Nests Analysis.unitsScope) (h : visitSections scope sections b = .ok (u, b')) :
    (∀ s ∈ sections, a.GroupOf R scope s.module s.node.id s.vars) ∧
      (b.Bare scope → b'.Bare scope) := by
  induction sections generalizing b with
  | nil =>
    rw [visitSections, pure_eq_ok] at h
    exact ⟨fun s hs => (by cases hs), fun bare => h.2 ▸ bare⟩
  | cons s rest ih =>
    rw [List.flatMap_cons, List.mem_append, not_or] at outside
    simp only [visitSections, bind_eq_ok] at h
    obtain ⟨id?, b₁, hd, h⟩ := h
    obtain ⟨rfl, -⟩ := declare_strict w.strict hd
    have home : n ∈ [n, s.node.id] := by simp
    have mem : s.node.id ∈ [n, s.node.id] := by simp
    have s₁ : Steps [n, s.node.id] b b₁ := declareMember_steps mem home member (fun h => by cases h)
      (fun σ h => by cases h) (fun h => by cases h) hd
    have member₁ := s₁.membersOf member
    have opens : b.Opens [n, s.node.id] scope := opens_of_members home member
    obtain ⟨declared, target, place, bare, node, called, -⟩ :=
      declare_owner mem opens.hosts.1 (admits_owner member fun h => by cases h) (opens.opened _) hd
    have own : (b₁.arena.symbol b.arena.symbols.size).node.id = s.node.id := by rw [node]
    simp only [bind_eq_ok] at h
    obtain ⟨members, b₂, h₂, _, b₃, h₃, h⟩ := h
    have member₂ := membersOf_memberScope declared own h₂
    have s₂ : Steps [s.node.id] b₁ b₂ := by
      obtain ⟨-, rfl⟩ := memberScope_eq_ok.mp h₂
      exact .single (.members _ (List.mem_cons_self ..) declared own (by rw [target]; rfl)
        ⟨owner, by rw [place]; exact member₁.kind⟩ bare (s₁.nests nests)
        (.inr ⟨owner, by rw [place]; exact member₁.kind,
          (s₁.target member.known).trans interactive⟩))
    have s₃ : Steps s.nodeIds b₂ b₃ := visitVars_steps (List.subset_cons_self ..)
      (opens_of_members (List.mem_cons_self ..) member₂) h₃
    have here : Steps (n :: s.nodeIds) b b₃ :=
      ((s₁.mono (by simp [Section.nodeIds])).trans (s₂.mono (by simp [Section.nodeIds]))).trans
        (s₃.mono (List.subset_cons_self ..))
    have member₃ := here.membersOf member
    have s₄ : Steps (n :: rest.flatMap Section.nodeIds) b₃ b' := visitSections_steps rest
      (List.subset_cons_self ..) (List.mem_cons_self ..) member₃
      ((here.target member.known).trans interactive) (here.nests nests) h
    have apart : s.nodeIds.Disjoint [n] := by simpa using outside.1
    have group := groupOf_memberScope fin [n] (w.before [n] apart s₄)
      (fun id mem => apart (List.mem_cons_of_mem _ mem)) s₁ declared own place called h₂ s₂ .refl h₃
    obtain ⟨groups, keeps⟩ := ih (w.after [n] (by simpa using outside.2) here) outside.2 member₃
      ((here.target member.known).trans interactive) (here.nests nests) h
    have there : Steps s.nodeIds b₁ b₃ := (s₂.mono (by simp [Section.nodeIds])).trans s₃
    exact ⟨List.forall_mem_cons.mpr ⟨group, groups⟩, fun bare =>
      keeps (there.bare member₁ outside.1
        (KeepsBare.declare scope _ (fun h => by cases h) hd scope bare))⟩

/-! ## Units -/

theorem visitUnit_sound {unit : SourceUnit} {symbol : SymbolId} {u : PUnit} (fin : Finished bf a R)
    (formed : Formed b) (housed : Housed b unit symbol) (w : Window unit.kind.nodeIds b b' bf)
    (outside : unit.node.id ∉ unit.kind.nodeIds)
    (h : (match unit.kind with
      | .module m => visitModule m symbol
      | .interactive sections => visitInteractive sections symbol) b = .ok (u, b')) :
    ∃ home, (b.arena.symbol symbol).members = some home ∧ (b.Bare home → b'.Bare home) ∧
      ∀ g ∈ unit.namedGroups, a.GroupOf R home g.1 g.2.1.id g.2.2 := by
  obtain ⟨scope, hm⟩ := Option.isSome_iff_exists.mp housed.members
  have member := formed.membersOf hm
  rw [housed.node] at member
  have target := housed.target
  cases hk : unit.kind with
  | module m =>
    rw [hk] at target
    obtain ⟨exports, he⟩ := Option.isSome_iff_exists.mp (housed.exports m hk)
    have exported := formed.arena.exports symbol exports he
    simp only [hk, visitModule, bind_eq_ok, get_eq_ok] at h
    obtain ⟨_, _, ⟨rfl, rfl⟩, h⟩ := h
    simp only [hm, he, bind_eq_ok] at h
    obtain ⟨_, b₁, h₁, _, b₂, h₂, _, b₃, h₃, h⟩ := h
    rw [hk, UnitKind.nodeIds, Module.nodeIds] at w outside
    simp only [List.mem_append, not_or] at outside
    have own : ∀ {ids : List NodeId}, unit.node.id ∈ unit.node.id :: ids := List.mem_cons_self ..
    have s₁ : Steps (unit.node.id :: m.imports.flatMap Import.nodeIds) b b₁ :=
      declareImports_steps m.imports (List.subset_cons_self ..) own member target h₁
    have s₂ : Steps (unit.node.id :: m.aliases.map (·.node.id)) b₁ b₂ :=
      declareAliases_steps m.aliases (List.subset_cons_self ..) own (s₁.membersOf member)
        ((s₁.target member.known).trans target) h₂
    have s₁₂ : Steps ([unit.node.id] ++ (m.imports.flatMap Import.nodeIds ++
        m.aliases.map (·.node.id))) b b₂ := (s₁.mono (by simp)).trans (s₂.mono (by simp))
    have member₂ := s₁₂.membersOf member
    have exported₂ := s₁₂.kind exported (fun h => by cases h)
    have s₃ : Steps (unit.node.id :: m.libraries.flatMap Library.nodeIds) b₂ b₃ :=
      visitLibraries_steps m.libraries (List.subset_cons_self ..) own member₂ exported₂ h₃
    have s₄ : Steps (m.exports.map (·.node.id)) b₃ b' :=
      declareExports_steps m.exports (List.Subset.refl _) (s₃.membersOf member₂)
        ((s₃.target member₂.known).trans ((s₁₂.target member.known).trans target))
        (s₃.kind exported₂ (fun h => by cases h)) h
    have apart : (m.libraries.flatMap Library.nodeIds).Disjoint [unit.node.id] := by
      simpa using outside.1.2
    have wl := (w.left s₄).after [unit.node.id] apart s₁₂
    obtain ⟨groups, keeps⟩ :=
      visitLibraries_sound fin m.libraries wl outside.1.2 member₂ exported₂ h₃
    rw [SourceUnit.namedGroups, hk]
    refine ⟨scope, hm, fun bare => KeepsBare.declareExports _ _ _ h _ (keeps
      (KeepsBare.declareAliases _ _ h₂ _ (KeepsBare.declareImports _ _ h₁ _ bare))),
      fun g hg => ?_⟩
    obtain ⟨l, hl, rfl⟩ := List.mem_map.mp hg
    exact groups l hl
  | interactive sections =>
    simp only [hk, visitInteractive, bind_eq_ok, get_eq_ok] at h
    obtain ⟨_, _, ⟨rfl, rfl⟩, h⟩ := h
    simp only [hm] at h
    rw [hk] at w outside target
    obtain ⟨groups, keeps⟩ := visitSections_sound fin sections w outside member target
      (.inl ((formed.arena.units _).mpr rfl)) h
    rw [SourceUnit.namedGroups, hk]
    refine ⟨scope, hm, keeps, fun g hg => ?_⟩
    obtain ⟨s, hs, rfl⟩ := List.mem_map.mp hg
    exact groups s hs

theorem visitUnits_sound {u : PUnit} (fin : Finished bf a R) (pairs : List (SourceUnit × SymbolId))
    (formed : Formed b) (housed : ∀ pair ∈ pairs, Housed b pair.1 pair.2)
    (nodup : (pairs.flatMap fun pair => pair.1.nodeIds).Nodup)
    (w : Window (pairs.flatMap fun pair => pair.1.kind.nodeIds) b b' bf)
    (bare : ∀ pair ∈ pairs, ∀ home, (b.arena.symbol pair.2).members = some home → b.Bare home)
    (h : visitUnits pairs b = .ok (u, b')) :
    ∀ pair ∈ pairs, ∃ home, (a.arena.symbol pair.2).members = some home ∧ b'.Bare home ∧
      ∀ g ∈ pair.1.namedGroups, a.GroupOf R home g.1 g.2.1.id g.2.2 := by
  induction pairs generalizing b with
  | nil => exact fun pair hp => (by cases hp)
  | cons pair rest ih =>
    obtain ⟨unit, symbol⟩ := pair
    obtain ⟨b₁, h₁, h⟩ := visitUnits_cons h
    have house := housed _ (List.mem_cons_self ..)
    have here := visitUnit_steps formed house h₁
    have formed₁ := here.formed formed
    have housed₁ : ∀ pair ∈ rest, Housed b₁ pair.1 pair.2 :=
      fun pair hp => (housed pair (List.mem_cons_of_mem _ hp)).stays here
    have there : Steps (rest.flatMap fun pair => pair.1.nodeIds) b₁ b' := visitUnits_steps rest
      (fun pair hp id hid => List.mem_flatMap.mpr ⟨pair, hp, hid⟩) formed₁ housed₁ h
    rw [List.flatMap_cons, List.nodup_append'] at nodup
    obtain ⟨nodupUnit, nodupRest, apart⟩ := nodup
    have inner : ∀ {id}, id ∈ (rest.flatMap fun pair => pair.1.kind.nodeIds) →
        id ∈ rest.flatMap fun pair => pair.1.nodeIds := by
      intro id mem
      obtain ⟨pair, hp, hid⟩ := List.mem_flatMap.mp mem
      exact List.mem_flatMap.mpr ⟨pair, hp, List.mem_cons_of_mem _ hid⟩
    have wu : Window unit.kind.nodeIds b b₁ bf := by
      refine (w.narrow fun id => ?_).stop there fun id mem => apart (List.mem_cons_of_mem _ mem)
      rw [List.flatMap_cons, List.count_append]
      exact Nat.le_add_right ..
    have wr : Window (rest.flatMap fun pair => pair.1.kind.nodeIds) b₁ b' bf := by
      refine (w.narrow fun id => ?_).skip here fun id mem mem' => apart mem' (inner mem)
      rw [List.flatMap_cons, List.count_append]
      omega
    obtain ⟨scope, hm, keeps, groups⟩ :=
      visitUnit_sound fin formed house wu (List.nodup_cons.mp nodupUnit).1 h₁
    have members : (a.arena.symbol symbol).members = some scope := by
      obtain ⟨more, last⟩ := w.steps
      rw [fin.members]
      exact (((here.append there).append last).owning house.known).members scope hm
    have member := here.membersOf (formed.membersOf hm)
    rw [house.node] at member
    have stays := there.bare member (apart (List.mem_cons_self ..))
      (keeps (bare _ (List.mem_cons_self ..) scope hm))
    refine List.forall_mem_cons.mpr ⟨⟨scope, members, stays, groups⟩,
      ih formed₁ housed₁ nodupRest wr (fun pair hp home hm' => ?_) h⟩
    have housed := housed pair (List.mem_cons_of_mem _ hp)
    obtain ⟨home', hm⟩ := Option.isSome_iff_exists.mp housed.members
    have later := (here.owning housed.known).members home' hm
    rw [hm'] at later
    cases later
    have member := formed.membersOf hm
    rw [housed.node] at member
    exact here.bare member (fun mem => apart mem (List.mem_flatMap.mpr
      ⟨pair, hp, List.mem_cons_self ..⟩)) (bare pair (List.mem_cons_of_mem _ hp) home hm)

/-- Without recovery, every unit is declared. -/
theorem declareUnits_strict (units : List SourceUnit) {pairs : List (SourceUnit × SymbolId)}
    (strict : b.recovery = false) (h : declareUnits units b = .ok (pairs, b')) :
    pairs.map (·.1) = units := by
  induction units generalizing b pairs with
  | nil =>
    rw [declareUnits, pure_eq_ok] at h
    exact h.1 ▸ rfl
  | cons u rest ih =>
    simp only [declareUnits, bind_eq_ok] at h
    obtain ⟨id?, b₁, h₁, h⟩ := h
    have strict₁ := (declareUnit_owners h₁).1.trans strict
    obtain ⟨symbol, rfl⟩ : ∃ symbol, id? = some symbol := by
      simp only [declareUnit, bind_eq_ok] at h₁
      obtain ⟨declared?, _, hd, h₁⟩ := h₁
      obtain ⟨rfl, -⟩ := declare_strict strict hd
      simp only [bind_eq_ok] at h₁
      obtain ⟨_, _, -, _, _, -, h₁⟩ := h₁
      cases hk : u.kind with
      | interactive sections =>
        simp only [hk, pure_eq_ok] at h₁
        exact ⟨_, h₁.1.symm⟩
      | module m =>
        simp only [hk, bind_eq_ok] at h₁
        obtain ⟨_, _, -, h₁⟩ := h₁
        cases hn : m.globalName with
        | none =>
          simp only [hn, pure_eq_ok] at h₁
          exact ⟨_, h₁.1.symm⟩
        | some global =>
          simp only [hn, bind_eq_ok, pure_eq_ok] at h₁
          obtain ⟨_, _, -, found, -⟩ := h₁
          exact ⟨_, found.symm⟩
    simp only [bind_eq_ok, pure_eq_ok] at h
    obtain ⟨more, b₂, h₂, rfl, rfl⟩ := h
    rw [List.map_cons, ih strict₁ h₂]

end Build

/-- All groups of a program are described, and nothing has members but its units and groups. -/
structure Analysis.Describes (a : Analysis) (R : ScopeId → NodeId → Prop)
    (units : UnitSet) : Prop where
  path : ∀ path s, a.unit? path = some s → ∃ u ∈ units, u.path = path
  owner : ∀ s σ, (a.arena.symbol s).members = some σ → (∃ path, a.unit? path = some s) ∨
    ∃ u ∈ units, ∃ g ∈ u.groups, a.createdScopes.get? g.1.id = some σ
  target : ∀ u ∈ units, ∀ s, a.unit? u.path = some s → (a.arena.symbol s).target = u.kind.target
  group : ∀ u ∈ units, ∃ s home, a.unit? u.path = some s ∧ (a.arena.symbol s).node.id = u.node.id ∧
    (a.arena.symbol s).members = some home ∧
    (∀ t ∈ (a.arena.scope home).slots, ¬ a.arena.IsVariable t) ∧
    ∀ g ∈ u.namedGroups, a.GroupOf R home g.1 g.2.1.id g.2.2

/-- **The tables describe all definitions of a program**, whatever analysis does after its first
pass, as long as it keeps them. -/
theorem buildScopes_groups {units : UnitSet} {a₀ : Analysis} {pending : List PendingReference}
    (numbered : units.Numbered) (h : buildScopes false units = .ok (a₀, pending)) :
    ∃ b, Build.Steps (Build.keys units) (.start false) b ∧
      a₀ = { b.analysis with positions := b.analysis.positions.reverse } ∧
      pending = b.pending.reverse ∧
      ∀ {a : Analysis} {R : ScopeId → NodeId → Prop}, Finished b a R → a.Describes R units := by
  obtain ⟨pairs, b₁, b, u, h₁, h₂, rfl, rfl⟩ := Build.pass_eq_ok h
  have formed := Building.formed_start false
  have knownGlobal : (Building.start false).HasScope Analysis.globalScope := by
    show 0 < 2
    decide
  obtain ⟨s₁, hpairs⟩ := Build.declareUnits_steps units (List.Subset.refl _) formed knownGlobal rfl
    (Building.onlyUnits_start _) h₁
  have formed₁ := s₁.formed formed
  have housed : ∀ pair ∈ pairs, Build.Housed b₁ pair.1 pair.2 := fun pair hp => (hpairs pair hp).2
  have all := Build.declareUnits_strict units rfl h₁
  obtain ⟨paths, owners⟩ := buildScopes_owners numbered h
  have s₂ : Build.Steps (UnitSet.nodeIds units) b₁ b := Build.visitUnits_steps pairs
    (fun pair hp id hid => List.mem_flatMap.mpr ⟨_, (hpairs pair hp).1, hid⟩) formed₁ housed h₂
  refine ⟨b, s₁.append s₂, rfl, rfl, fun {a R} fin => ?_⟩
  have few : (pairs.map (·.1)).Sublist units := by rw [all]
  obtain ⟨nodup, waiting⟩ := declareUnits_waiting numbered s₁ few
  have w : Build.Window (pairs.flatMap fun pair => pair.1.kind.nodeIds) b₁ b b := by
    refine ⟨waiting.nodup, s₁.recovery, fun p hp mem => ?_, waiting.undeclared, [], .refl,
      List.disjoint_nil_right _⟩
    obtain ⟨pair, hpair, hid⟩ := List.mem_flatMap.mp mem
    rcases s₁.pending.2 hp with hp | key
    · cases hp
    · exact numbered.apart (hpairs pair hpair).1 key hid
  have groups := Build.visitUnits_sound fin pairs formed₁ housed nodup w
    (fun _ _ home _ => Build.declareUnits_bare h₁ home) h₂
  have entered : ∀ pair ∈ pairs, a.unit? pair.1.path = some pair.2 := by
    intro pair hp
    have house := (housed pair hp).stays s₂
    rw [Analysis.unit?, fin.units, ← house.name]
    exact (s₂.formed formed₁).path pair.2 house.home house.members
  refine ⟨fun path s hs => ?_, fun s σ hs => ?_, fun u hu s hs => ?_, fun u hu => ?_⟩
  · rw [Analysis.unit?, fin.units] at hs
    exact paths path s hs
  · rw [fin.members] at hs
    obtain ⟨u, hu, unit, home, found, -, same | ⟨g, hg, created⟩⟩ := owners s σ hs
    · left
      simp only [← same, Analysis.unit?, fin.units]
      exact ⟨_, found⟩
    · right
      rw [fin.created]
      exact ⟨u, hu, g, hg, created⟩
  · obtain ⟨pair, hp, rfl⟩ := List.mem_map.mp (all ▸ hu)
    rw [entered pair hp] at hs
    cases hs
    have house := (housed pair hp).stays s₂
    have direct := ((s₁.append s₂).formed formed).unit _ pair.2
      (by rw [← fin.units]; exact entered pair hp)
    rw [fin.direct _ direct.1.2]
    exact house.target
  · obtain ⟨pair, hp, rfl⟩ := List.mem_map.mp (all ▸ hu)
    obtain ⟨home, members, bare, group⟩ := groups pair hp
    have house := (housed pair hp).stays s₂
    refine ⟨pair.2, home, entered pair hp, by rw [(fin.declared _).1, house.node], members,
      fun t mem var => ?_, group⟩
    rw [fin.slots] at mem
    have direct := (fin.declared t).2.2.symm.trans var.direct
    exact (bare t mem).2 ((congrArg (·.target) (fin.direct t direct)).symm.trans var.target)

end CellScript
