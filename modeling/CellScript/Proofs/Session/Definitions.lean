import CellScript.Proofs.Code.Functions
import CellScript.Proofs.Session.Requests

/-!
# Where definitions are laid out

Every definition of a unit has a cell in the space of its library or section, which lies in the
space of the unit. It is found there under the names of both, and has something to compute.

* `Analysis.Denotes`, `Analysis.Accepts.denotes` — names of a definition
* `Arena.SlotPath.unique`, `Session.Ok.definition_of_find` — its slots
* `Session.Defines` — the definition is laid out
* `Session.Begins.defines` — from the start
* `Session.Defines.later` — and from then on
-/

namespace CellScript

variable {a : Analysis} {K : FunctionId → Ty → Prop} {units : UnitSet} {s s' : Session}
  {σ : ScopeId} {t : SymbolId}

/-- A symbol has one path only. -/
theorem Arena.SlotPath.unique {arena : Arena} {path path' : List Nat} (h : arena.SlotPath t path)
    (h' : arena.SlotPath t path') : path' = path := by
  induction h generalizing path' with
  | unit home =>
    cases h' with
    | unit _ => rfl
    | member home' _ =>
      rw [home] at home'
      cases home'
  | member home _ ih =>
    cases h' with
    | unit home' =>
      rw [home] at home'
      cases home'
    | member home' owner =>
      rw [home] at home'
      cases home'
      rw [ih owner]

/-- A member is found by its name. -/
theorem Analysis.Rooted.step?_of_members (rooted : a.Rooted) {s : SymbolId}
    (members : (a.arena.symbol s).members = some σ) (known : t < a.arena.symbols.size)
    (home : (a.arena.symbol t).scope = σ) : a.step? s (a.arena.symbol t).name = some t := by
  have direct := (rooted.ready.owning s σ members).1
  have named := rooted.ready.named t known
  rw [home] at named
  simp only [step?, Arena.targetOf?, direct, Binding.isIndirect, Bool.false_eq_true, if_false,
    Option.bind_eq_bind, Option.bind_some, members, named, Option.some_or]

/-- Variables have no members. -/
theorem Analysis.Rooted.bare_of_var (rooted : a.Rooted) (var : (a.arena.symbol t).target = .var) :
    (a.arena.symbol t).members = none := by
  cases hm : (a.arena.symbol t).members with
  | none => rfl
  | some τ =>
    have owner := (rooted.ready.owning t τ hm).2
    rw [var] at owner
    cases owner

/-- Definitions of a group stand in its scope. -/
theorem Analysis.Fills.mem {nodes : List NodeId} (h : a.Fills nodes σ) {node : NodeId}
    (mem : node ∈ nodes) (found : a.definitions.get? node = some t) :
    t ∈ (a.arena.scope σ).slots := by
  obtain ⟨i, at'⟩ := List.getElem?_of_mem mem
  obtain ⟨lt, rfl⟩ := List.getElem?_eq_some_iff.mp at'
  have place : i < (a.arena.scope σ).slots.length := by
    rw [← h.length_eq]
    exact lt
  have same := h.get lt place
  rw [List.get_eq_getElem, found, Option.some.injEq] at same
  rw [same]
  exact List.getElem_mem place

/-- The path of names denotes the symbol in the unit. -/
def Analysis.Denotes (a : Analysis) (path : String) (names : List String) (t : SymbolId) : Prop :=
  (a.member? path names).bind a.arena.targetOf? = some t

/-- **A definition is denoted by the names of its group and of itself.** -/
theorem Analysis.Accepts.denotes {units : UnitSet} (accepts : a.Accepts units) {u : SourceUnit}
    {g : String × Node × List VarDef} {v : VarDef} (hu : u ∈ units) (hg : g ∈ u.namedGroups)
    (hv : v ∈ g.2.2) : ∃ t, a.definitions.get? v.node.id = some t ∧ a.IsDefinition t ∧
      a.Denotes u.path [g.1, v.name] t := by
  have rooted := accepts.toRooted
  obtain ⟨owner, home, found, -, members, -, groups⟩ := accepts.describes.group u hu
  obtain ⟨σ, o, group⟩ := groups g hg
  obtain ⟨t, defined, isVariable, name, -⟩ := group.named v hv
  obtain ⟨i, place⟩ := List.getElem?_of_mem
    (group.fills.mem (List.mem_map.mpr ⟨v, hv, rfl⟩) defined)
  obtain ⟨known, homeVar, -⟩ := rooted.ready.slot σ i t place
  have first := rooted.step?_of_members members group.known group.home
  have second := rooted.step?_of_members group.members known homeVar
  rw [group.name] at first
  rw [name] at second
  refine ⟨t, defined, ⟨known, isVariable, o, by rw [homeVar]; exact group.kind⟩, ?_⟩
  simp only [Denotes, member?, Arena.targetOf?, found, first, second, isVariable.direct,
    Binding.isIndirect, Option.bind_eq_bind, Option.bind_some, Option.pure_def, List.foldlM_cons,
    List.foldlM_nil, Bool.false_eq_true, if_false]

namespace Session

/-- A definition is found under each path of names that denotes it. -/
theorem find_of_denotes (accepts : a.Accepts units) (analysis : s.analysis = a) {path : String}
    {names : List String} {slots : List Nat} {id : CellId} (definition : a.IsDefinition t)
    (denotes : a.Denotes path names t) (leads : a.arena.SlotPath t slots)
    (reaches : s.memory.Path s.units slots id) : s.find path names = .ok id := by
  subst analysis
  obtain ⟨slots', place, leads'⟩ :=
    accepts.ready.absolutePath?_of_static definition.known definition.static
  rw [leads.unique leads'] at place
  unfold Analysis.Denotes at denotes
  simp only [Session.find, denotes, definition.isVariable.target, bne_self_eq_false, place,
    Bool.false_eq_true, if_false]
  exact cellAt_of_path reaches

/-- **Whatever is found is the cell of a definition.** -/
theorem Ok.definition_of_find (ok : s.Ok a K) (accepts : a.Accepts units) {path : String}
    {names : List String} {id : CellId} (found : s.find path names = .ok id) :
    s.memory.HasCell id ∧ a.IsDefinition (s.memory.cell id).shape.symbol := by
  simp only [Session.find, ok.analysis] at found
  split at found
  · cases found
  · next t denotes =>
    split at found
    · cases found
    · next target =>
      split at found
      · cases found
      · next slots place =>
        obtain ⟨first, member, stands⟩ := Option.bind_eq_some_iff.mp denotes
        have declared :=
          member?_known accepts.toRooted (fun s hs => (accepts.unit path s hs).1) member
        have linked : a.arena.linked first default = .ok t := by rw [Arena.linked, stands]
        obtain ⟨known, direct⟩ :
            t < a.arena.symbols.size ∧ (a.arena.symbol t).binding = .direct := by
          rcases accepts.ready.linked_cases linked with ⟨direct, rfl⟩ | ⟨direct, known, -⟩
          · exact ⟨declared, direct⟩
          · exact ⟨known, direct⟩
        have var : (a.arena.symbol t).target = .var := by
          simpa only [bne_iff_ne, ne_eq, Decidable.not_not] using target
        have static : a.arena.Static t := by
          refine (accepts.ready.home t known direct var).resolve_left fun dynamic => ?_
          rw [Arena.absolutePath?_of_isDynamic dynamic] at place
          cases place
        obtain ⟨id', reaches, symbol, has⟩ :=
          ok.attached.path ok.memory.toMemoryOk accepts.toRooted known
          (Arena.slotPath_of_slotPath? _ place)
        rw [cellAt_of_path reaches] at found
        cases found
        exact ⟨has.1, by rw [symbol]; exact ⟨known, ⟨direct, var⟩, static⟩⟩

/-- The definition is laid out in the cell `v`, in the space of the members of `g`, which is the
cell of its group in the space of the unit. -/
structure Defines (s : Session) (path group name : String) (space : SpaceId)
    (g v : CellId) : Prop where
  unit : s.unitSpace path = .ok space
  find : s.find path [group, name] = .ok v
  outer : g.space = space
  hasGroup : s.memory.HasCell g
  groupName : (s.memory.cell g).name = group
  members : (s.memory.cell g).members = some v.space
  after : g.space < v.space
  has : s.memory.HasCell v
  name : (s.memory.cell v).name = name
  bare : (s.memory.cell v).shape.members = none
  init : (s.memory.cell v).shape.init.isSome = true

/-- What is laid out stays where it is. -/
theorem Defines.later {path group name : String} {space : SpaceId} {g v : CellId}
    (h : s.Defines path group name space g v) (ok : s.Ok a K) (accepts : a.Accepts units)
    (later : s.Later s') : s'.Defines path group name space g v := by
  have group' := later.grows.cell g h.hasGroup.1
  have var' := later.grows.cell v h.has.1
  have unitSpace : s'.unitSpace path = .ok space := by
    cases hu : a.unit? path with
    | none =>
      have found := h.unit
      simp only [Session.unitSpace, ok.analysis, hu] at found
      cases found
    | some symbol =>
      obtain ⟨_, _, -, -, -, -, -, eq⟩ := ok.unitSpace_eq accepts hu
      rw [eq s' later, ← eq s (.refl s)]
      exact h.unit
  have find : s'.find path [group, name] = .ok v := by
    rcases ok.find_eq accepts path [group, name] with ⟨e, -, eq⟩ | ⟨id, -, eq⟩
    · have found := h.find
      rw [eq s (.refl s)] at found
      cases found
    · rw [eq s' later, ← eq s (.refl s)]
      exact h.find
  exact
    { unit := unitSpace
      find := find
      outer := h.outer
      hasGroup := h.hasGroup.grows later.grows
      groupName := by rw [Cell.name, group'.shape]; exact h.groupName
      members := group'.members _ h.members
      after := h.after
      has := h.has.grows later.grows
      name := by rw [Cell.name, var'.shape]; exact h.name
      bare := by rw [var'.shape]; exact h.bare
      init := by rw [var'.shape]; exact h.init }

/-! ## The start -/

section Begins

variable {c : Compiling} {l : Layout} {u : SourceUnit}
  {g : String × Node × List VarDef} {v : VarDef} {home : ScopeId} {o : SymbolId}

/-- Everything that is laid out has the spaces of its members. -/
theorem Begins.furnished (h : Begins a units c l s) {id : CellId} (le : s.units ≤ id.space)
    (has : s.memory.HasCell id) : s.memory.Furnished id := by
  rw [h.memory] at has ⊢
  exact h.lays.fresh id (Nat.le_trans h.new le) has

/-- The space of a unit lies inside the space of all units. -/
theorem Begins.unitSpace (h : Begins a units c l s) (accepts : a.Accepts units) {path : String}
    (found : a.unit? path = some o) (members : (a.arena.symbol o).members = some σ) :
    ∃ space, s.unitSpace path = .ok space ∧ s.units < space ∧ space < s.memory.spaces.size ∧
      (s.memory.space space).template.scope = σ ∧
      s.memory.HasCell ⟨s.units, (a.arena.symbol o).slot⟩ ∧
      (s.memory.cell ⟨s.units, (a.arena.symbol o).slot⟩).members = some space := by
  have ok := h.ok
  obtain ⟨σ', space, members', scope, known, has, leads, eq⟩ := ok.unitSpace_eq accepts found
  rw [members] at members'
  cases members'
  obtain ⟨declared, home, -⟩ := accepts.unit _ _ found
  have slot := accepts.ready.placed o declared
  rw [home] at slot
  obtain ⟨-, symbol⟩ := ok.memory.hasCell ok.attached.space ok.attached.scope (by decide) slot
  have shape := (ok.memory.cell has).shape.members
  rw [symbol, members] at shape
  obtain ⟨space', leads', after, -⟩ := h.furnished (Nat.le_refl _) has _ shape
  rw [leads] at leads'
  cases leads'
  exact ⟨space, eq s (.refl s), after, known, scope, has, leads⟩

/-- A definition has something to compute. -/
theorem Begins.init_isSome (h : Begins a units c l s) (accepts : a.Accepts units) {id : CellId}
    (has : s.memory.HasCell id) (isVariable : a.arena.IsVariable (s.memory.cell id).shape.symbol) :
    (s.memory.cell id).shape.init.isSome = true := by
  have planned := h.planned has
  have shape := planned.cells id.slot
  rw [has.getElem?, Option.map_some] at shape
  exact h.compiled.init_isSome accepts (Bool.eq_false_iff.mpr (h.static id.space)) planned.template
    (List.mem_of_getElem? shape.symm) isVariable

/-- **Every definition of a unit is laid out.** -/
theorem Begins.defines (h : Begins a units c l s) (accepts : a.Accepts units) (hu : u ∈ units)
    (hg : g ∈ u.namedGroups) (hv : v ∈ g.2.2) :
    ∃ space group var, s.Defines u.path g.1 v.name space group var := by
  have ok := h.ok
  have rooted := accepts.toRooted
  obtain ⟨owner, home, found, -, members, -, groups⟩ := accepts.describes.group u hu
  obtain ⟨σ, o, group⟩ := groups g hg
  obtain ⟨t, defined, isVariable, name, -⟩ := group.named v hv
  have mem := group.fills.mem (List.mem_map.mpr ⟨v, hv, rfl⟩) defined
  obtain ⟨i, at'⟩ := List.getElem?_of_mem mem
  obtain ⟨knownVar, homeVar, -⟩ := rooted.ready.slot σ i t at'
  have slotVar := rooted.ready.placed t knownVar
  rw [homeVar] at slotVar
  have slotGroup := rooted.ready.placed o group.known
  rw [group.home] at slotGroup
  have ownerKind := rooted.ready.members owner home members
  have bare := rooted.bare_of_var isVariable.target
  obtain ⟨space, unit, newer, known, scope, hasUnit, leadsUnit⟩ := h.unitSpace accepts found members
  -- The cell of the group, and the space of its members.
  obtain ⟨hasGroup, symbolGroup⟩ := ok.memory.hasCell known scope
    (rooted.ne_global (by rw [ownerKind]; exact fun h => by cases h)) slotGroup
  have shapeGroup := (ok.memory.cell hasGroup).shape
  have membersGroup := shapeGroup.members
  rw [symbolGroup, group.members] at membersGroup
  obtain ⟨inner, leads, after, knownInner, scopeInner⟩ :=
    h.furnished (Nat.le_of_lt newer) hasGroup _ membersGroup
  -- The cell of the definition.
  obtain ⟨hasVar, symbolVar⟩ := ok.memory.hasCell knownInner scopeInner
    (rooted.ne_global (by rw [group.kind]; exact fun h => by cases h)) slotVar
  have shapeVar := (ok.memory.cell hasVar).shape
  have init := h.init_isSome accepts hasVar (by rw [symbolVar]; exact isVariable)
  refine ⟨space, ⟨space, (a.arena.symbol o).slot⟩, ⟨inner, (a.arena.symbol t).slot⟩, unit, ?_, rfl,
    hasGroup, ?_, leads, after, hasVar, ?_, ?_, init⟩
  · -- Names and slots lead to it.
    have path : a.arena.SlotPath t ([(a.arena.symbol owner).slot] ++ [(a.arena.symbol o).slot] ++
        [(a.arena.symbol t).slot]) := by
      refine .member (by rw [homeVar]; exact group.kind)
        (.member (by rw [group.home]; exact ownerKind) (.unit ?_))
      rw [(accepts.unit _ _ found).2.1]
      exact (rooted.ready.units _).mpr rfl
    obtain ⟨t', defined', definition, denotes⟩ := accepts.denotes hu hg hv
    rw [defined] at defined'
    cases defined'
    exact find_of_denotes accepts h.analysis definition denotes path
      (.step hasUnit leadsUnit (.step hasGroup leads (.last hasVar)))
  · rw [Cell.name, shapeGroup.name, symbolGroup]
    exact group.name
  · rw [Cell.name, shapeVar.name, symbolVar]
    exact name
  · rw [shapeVar.members, symbolVar]
    exact bare

end Begins

end Session

end CellScript
