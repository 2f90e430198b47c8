import CellScript.Proofs.Code.Expressions

/-!
# Compiled programs

Compilation turns a program that analysis has accepted into templates for all its scopes, whose
definitions find all they look at.

* `Compiler.groupTemplate_compiles`, `Compiler.unit_compiles` — groups of definitions, units
* `Compiler.Compiled`, `Compiler.program_ok` — the whole program
-/

namespace CellScript

open Code

variable {α β : Type} {a : Analysis} {s s' : Compiling}

namespace Compiler

variable {c : Compiler} {σ : ScopeId} {function : Option NodeId} {ids : List NodeId}
  {units : UnitSet}

/-! ## The program -/

/-- The table is what some compilation makes of definitions outside all functions. -/
def Tabulates (a : Analysis) (vars : List VarDef) (table : Table SymbolId Op) : Prop :=
  ∃ options before, table = (inits ⟨a, options⟩ none vars before).1

/-- Every value in the table is that of a definition. -/
theorem Tabulates.get {vars : List VarDef} {table : Table SymbolId Op} (h : Tabulates a vars table)
    {t : SymbolId} {op : Op} (found : table.get? t = some op) :
    ∃ v ∈ vars, a.definitions.get? v.node.id = some t ∧
      ∃ options before, op = (expr ⟨a, options⟩ none v.value before).1 := by
  obtain ⟨options, before, rfl⟩ := h
  induction vars generalizing before with
  | nil => cases found
  | cons v rest ih =>
    obtain ⟨node, name, ty, value⟩ := v
    rw [inits] at found
    cases hd : a.definitions.get? node.id with
    | none =>
      simp only [hd] at found
      obtain ⟨v, mem, h⟩ := ih before found
      exact ⟨v, List.mem_cons_of_mem _ mem, h⟩
    | some symbol =>
      simp only [hd] at found
      change Table.get? (Table.insert _ symbol _) t = some op at found
      rw [Table.get?_insert] at found
      split at found
      · next same =>
        cases found
        exact ⟨_, List.mem_cons_self .., same ▸ hd, options, before, rfl⟩
      · obtain ⟨v, mem, h⟩ := ih _ found
        exact ⟨v, List.mem_cons_of_mem _ mem, h⟩

/-- The scope has a template with values for definitions. -/
def HoldsTemplate (a : Analysis) (s : Compiling) (σ : ScopeId) (vars : List VarDef)
    (K : FunctionId → Ty → Prop) : Prop :=
  ∃ table, s.templates.get? σ = some (a.templateOf σ table) ∧ Tabulates a vars table ∧
    InitsOk a σ (vars.map (·.node.id)) table K

/-- A template that was made stays. -/
theorem holdsTemplate_later {vars : List VarDef} {x : Compile α}
    {P : α → (FunctionId → Ty → Prop) → Prop} (h : s.memory.Settles (HoldsTemplate a s σ vars))
    (compiles : Compiles a ids s x P) :
    (x s).2.memory.Settles (HoldsTemplate a (x s).2 σ vars) := by
  intro K known
  obtain ⟨table, found, inits⟩ := h.grows compiles.grows K known
  exact ⟨table, compiles.keeps σ _ found, inits⟩

/-- The template of a scope of members. -/
theorem groupTemplate_compiles (rooted : c.analysis.Rooted) (supplied : c.analysis.Supplied)
    {node : NodeId} {owner : SymbolId} (vars : List VarDef)
    (kind : (c.analysis.arena.scope σ).kind = .members owner)
    (own : (c.analysis.arena.symbol owner).node.id = node)
    (sound : soundVars c.analysis c.analysis.Reaches σ vars)
    (ordered : c.analysis.AllOrdered (vars.map (·.value)))
    (ok : s.Awaits c.analysis (node :: idsOfVars vars)) :
    Compiles c.analysis (node :: idsOfVars vars) s (c.groupTemplate σ vars) fun t K =>
      ∃ table, t = c.analysis.templateOf σ table ∧ Tabulates c.analysis vars table ∧
        InitsOk c.analysis σ (vars.map (·.node.id)) table K := by
  refine template_compiles ?_ ok (fun ok =>
    (inits_compiles rooted supplied (.members kind) vars sound
    ordered ok).result.imp fun table K h => ⟨⟨c.options, s, h.1⟩, h.2.ok⟩) fun _ _ h => h.2.1
  rw [Arena.ownerNode?, kind]
  exact congrArg some own

theorem groups_compiles (rooted : c.analysis.Rooted) (supplied : c.analysis.Supplied)
    {home : ScopeId} (groups : List (String × Node × List VarDef))
    (h : ∀ g ∈ groups, c.analysis.GroupOf c.analysis.Reaches home g.1 g.2.1.id g.2.2)
    (ordered : ∀ g ∈ groups, c.analysis.AllOrdered (g.2.2.map (·.value)))
    (ok : s.Awaits c.analysis ((groups.map (·.2)).flatMap idsOfGroup)) :
    Compiles c.analysis ((groups.map (·.2)).flatMap idsOfGroup) s (c.groups (groups.map (·.2)))
        (fun _ _ => True) ∧
      ∀ g ∈ groups, ∃ σ, c.analysis.createdScopes.get? g.2.1.id = some σ ∧
        (c.groups (groups.map (·.2)) s).2.memory.Settles (HoldsTemplate c.analysis
          (c.groups (groups.map (·.2)) s).2 σ g.2.2) := by
  induction groups generalizing s with
  | nil => exact ⟨.always ok.toOk fun _ => trivial, fun g hg => by cases hg⟩
  | cons g rest ih =>
    rw [List.forall_mem_cons] at h ordered
    obtain ⟨⟨σ, owner, group⟩, later⟩ := h
    rw [List.map_cons, List.flatMap_cons] at ok
    have first := groupTemplate_compiles rooted supplied g.2.2 group.kind group.node group.sound
      ordered.1 ok.left
    have known := template_known (c := c) (σ := σ) (c.inits none g.2.2) s
    obtain ⟨others, held⟩ := ih later ordered.2 (first.discard.awaits ok)
    have eq : c.groups ((g :: rest).map (·.2)) =
        discard (c.groupTemplate σ g.2.2) >>= fun _ => c.groups (rest.map (·.2)) := by
      rw [List.map_cons, Compiler.groups]
      simp only [group.created]
    rw [eq]
    refine ⟨.bind ok (fun _ => first.discard) fun _ s' ok' _ _ => (ih later ordered.2 ok').1,
      List.forall_mem_cons.mpr ⟨⟨σ, group.created, ?_⟩, held⟩⟩
    refine holdsTemplate_later (s := (c.groupTemplate σ g.2.2 s).2) (fun K hK => ?_) others
    obtain ⟨table, made, inits⟩ := first.post K hK
    exact ⟨table, by rw [← made]; exact known, inits⟩

/-- The unit with its groups has templates. -/
def UnitHeld (a : Analysis) (s : Compiling) (u : SourceUnit) : Prop :=
  ∃ symbol home, a.unit? u.path = some symbol ∧ (a.arena.symbol symbol).members = some home ∧
    s.memory.Settles (HoldsTemplate a s home []) ∧
    ∀ g ∈ u.groups, ∃ σ, a.createdScopes.get? g.1.id = some σ ∧
      s.memory.Settles (HoldsTemplate a s σ g.2)

theorem UnitHeld.later {u : SourceUnit} {x : Compile α} {P : α → (FunctionId → Ty → Prop) → Prop}
    (h : UnitHeld a s u) (compiles : Compiles a ids s x P) : UnitHeld a (x s).2 u := by
  obtain ⟨symbol, home, found, members, held, groups⟩ := h
  refine ⟨symbol, home, found, members, holdsTemplate_later held compiles, fun g hg => ?_⟩
  obtain ⟨σ, created, held⟩ := groups g hg
  exact ⟨σ, created, holdsTemplate_later held compiles⟩

theorem unit_compiles (accepts : c.analysis.Accepts units) {u : SourceUnit} (mem : u ∈ units)
    (ok : s.Awaits c.analysis u.nodeIds) :
    Compiles c.analysis u.nodeIds s (c.unit u) (fun _ _ => True) ∧
      UnitHeld c.analysis (c.unit u s).2 u := by
  obtain ⟨symbol, home, found, node, members, -, groups⟩ := accepts.describes.group u mem
  have kind := accepts.ready.members symbol home members
  have sub : (u.node.id :: u.groups.flatMap idsOfGroup).Subperm u.nodeIds :=
    (u.groups_sublist.cons_cons u.node.id).subperm
  have eq : c.unit u = discard (c.groupTemplate home []) >>= fun _ => c.groups u.groups := by
    rw [Compiler.unit, found]
    simp only [Option.bind_some, members]
  have ok := ok.narrow sub
  have first := groupTemplate_compiles accepts.toRooted accepts.supplied [] kind node trivial
    (fun e mem => by cases mem) (Compiling.Awaits.left (l := [u.node.id]) ok)
  have known := template_known (c := c) (σ := home) (c.inits none []) s
  have ok₁ := first.discard.awaits (r := u.groups.flatMap idsOfGroup) ok
  rw [← u.map_namedGroups] at ok₁
  have ordered : ∀ g ∈ u.namedGroups, c.analysis.AllOrdered (g.2.2.map (·.value)) := by
    intro g hg e he
    obtain ⟨v, hv, rfl⟩ := List.mem_map.mp he
    exact accepts.ordered _ ⟨u, mem, g.2, u.map_namedGroups ▸ List.mem_map_of_mem hg, v, hv, .whole⟩
  obtain ⟨second, held⟩ := groups_compiles accepts.toRooted accepts.supplied u.namedGroups groups
    ordered ok₁
  rw [u.map_namedGroups] at second held
  rw [eq]
  refine ⟨.mono (.bind (l := [u.node.id]) ok (fun _ => first.discard) fun _ s' ok' _ _ => ?_)
    sub.subset, symbol, home, found, members, ?_, fun g hg => ?_⟩
  · rw [← u.map_namedGroups] at ok' ⊢
    exact (groups_compiles accepts.toRooted accepts.supplied u.namedGroups groups ordered ok').1
  · refine holdsTemplate_later (s := (c.groupTemplate home [] s).2) (fun K hK => ?_) second
    obtain ⟨table, made, inits⟩ := first.post K hK
    exact ⟨table, by rw [← made]; exact known, inits⟩
  · rw [← u.map_namedGroups] at hg
    obtain ⟨named, mem, rfl⟩ := List.mem_map.mp hg
    exact held named mem

theorem units_compiles (accepts : c.analysis.Accepts units) (some : List SourceUnit)
    (sub : some ⊆ units) (ok : s.Awaits c.analysis (some.flatMap SourceUnit.nodeIds)) :
    Compiles c.analysis (some.flatMap SourceUnit.nodeIds) s (some.forM c.unit) (fun _ _ => True) ∧
      ∀ u ∈ some, UnitHeld c.analysis (some.forM c.unit s).2 u := by
  induction some generalizing s with
  | nil => exact ⟨.always ok.toOk fun _ => trivial, fun u hu => by cases hu⟩
  | cons u rest ih =>
    rw [List.cons_subset] at sub
    rw [List.flatMap_cons] at ok
    obtain ⟨first, held⟩ := unit_compiles accepts sub.1 ok.left
    obtain ⟨others, heldRest⟩ := ih sub.2 (first.awaits ok)
    refine ⟨.bind ok (fun _ => first) fun _ s' ok' _ _ => (ih sub.2 ok').1,
      List.forall_mem_cons.mpr ⟨held.later others, heldRest⟩⟩

theorem initial_ok (a : Analysis) : Compiling.Ok a ⟨.initial, []⟩ := by
  have none : ∀ id, id < Memory.initial.spaces.size → id = 0 := fun id lt => Nat.lt_one_iff.mp lt
  have closure : ∀ id : ClosureId, Memory.initial.closure id = [] := fun id => by
    rw [Memory.closure, Array.getD_eq_getD_getElem?, Array.getElem?_eq_none (Nat.zero_le _)]
    rfl
  -- Neither the detached space nor the default has anything around it.
  have around : ∀ id e, (Memory.initial.space id).enclosing ≠ some e := fun id e around => by
    by_cases known : id < Memory.initial.spaces.size
    · rw [none id known] at around
      cases around
    · rw [Memory.space, Array.getD_eq_getD_getElem?,
        Array.getElem?_eq_none (Nat.le_of_not_lt known)] at around
      cases around
  refine ⟨fun K _ => ⟨⟨fun id lt _ => ?_, fun id lt ne => ?_, fun id lt ne => ?_,
    fun id i v origin found => ?_, fun id i found => ?_, fun id lt => ?_, fun id e outer =>
      absurd outer (around id e),
    fun site cell none => (by cases none), fun id alive => ?_, fun id lasts => ?_⟩,
    fun id i cell found => ?_⟩, fun id has => ?_, fun K _ σ t found => ?_⟩
  · rw [none id lt]
    rfl
  · rw [none id lt] at ne
    exact absurd rfl ne
  · rw [none id lt] at ne
    exact absurd rfl ne
  · rw [closure] at found
    cases found
  · rw [closure] at found
    cases found
  · exact absurd lt (Nat.not_lt_zero _)
  · rw [List.mem_singleton.mp alive]
    exact ⟨Nat.one_pos, fun e outer => absurd outer (around _ e)⟩
  · rw [none id lasts.known]
    exact List.mem_singleton.mpr rfl
  · rw [closure] at found
    cases found
  · obtain ⟨space, slot⟩ := id
    obtain rfl := none space has.1
    exact absurd has.2 (Nat.not_lt_zero _)
  · cases found

/-- A compiled program: everything agrees with analysis, and whatever has members has a template. -/
structure Compiled (a : Analysis) (units : UnitSet) (s : Compiling) : Prop extends s.Ok a where
  root : ∃ t, s.templates.get? Analysis.unitsScope = some t
  units : ∀ u ∈ units, UnitHeld a s u

/-- Whatever has members has a template. -/
theorem Compiled.template_of_members (h : Compiled a units s) (accepts : a.Accepts units)
    {symbol : SymbolId} (members : (a.arena.symbol symbol).members = some σ) :
    ∃ t, s.templates.get? σ = some t := by
  rcases accepts.describes.owner symbol σ members with ⟨path, found⟩ | ⟨u, hu, g, hg, created⟩
  · obtain ⟨u, hu, rfl⟩ := accepts.describes.path path symbol found
    obtain ⟨symbol', home, found', members', held, -⟩ := h.units u hu
    rw [found] at found'
    cases found'
    rw [members] at members'
    cases members'
    obtain ⟨table, known, -⟩ := held _ fun _ _ h => h
    exact ⟨_, known⟩
  · obtain ⟨-, -, -, -, -, groups⟩ := h.units u hu
    obtain ⟨σ', created', held⟩ := groups g hg
    rw [created] at created'
    cases created'
    obtain ⟨table, known, -⟩ := held _ fun _ _ h => h
    exact ⟨_, known⟩

/-- **All templates of a compiled program lay out operations that find all they look at.** -/
theorem program_ok (numbered : units.Numbered) (accepts : c.analysis.Accepts units) :
    Compiled c.analysis units (c.program units ⟨.initial, []⟩).2 := by
  have start := initial_ok c.analysis
  have first :
      Compiles c.analysis [] ⟨.initial, []⟩ (c.groupTemplate Analysis.unitsScope []) fun t K =>
      ∃ table, t = c.analysis.templateOf Analysis.unitsScope table ∧
        InitsOk c.analysis Analysis.unitsScope [] table K := by
    have none : Compiles c.analysis [] ⟨.initial, []⟩ (c.inits none [])
        (InitsOk c.analysis Analysis.unitsScope []) := by
      rw [inits]
      exact .always start (InitsOk.nil _)
    refine template_compiles_of_none rfl (fun n hn => ?_) none (List.Subset.refl _) fun _ _ h => h.1
    rw [Arena.ownerNode?, (accepts.ready.units _).mpr rfl] at hn
    cases hn
  have known := template_known (c := c) (σ := Analysis.unitsScope) (c.inits none []) ⟨.initial, []⟩
  have awaits : Compiling.Awaits c.analysis units.nodeIds ⟨.initial, []⟩ :=
    ⟨start, numbered.nodup, fun _ _ _ _ => rfl⟩
  obtain ⟨walk, held⟩ := units_compiles accepts units (List.Subset.refl _)
    (first.discard.awaits (r := units.nodeIds) awaits)
  exact ⟨walk.ok, ⟨_, walk.keeps _ _ known⟩, held⟩

end Compiler

end CellScript
