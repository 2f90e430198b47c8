import CellScript.Proofs.Code.Compiled

/-!
# Definitions of functions

A definition whose value is a function literal without default values becomes an operation that does
nothing but create a function. All that the function captures are definitions, for nothing else lies
around it.

* `UnitSet.DefinesFunctions` — all definitions are such
* `Code.Op.MakesFunction` — the operations they become
* `Compiler.expr_makesFunction` — compilation makes them so, in every mode
* `Compiler.Compiled.makesFunctions` — in all templates of a program
* `Compiler.Compiled.init_isSome` — variables that are laid out once are computed
-/

namespace CellScript

open Code

/-- The expression is a function without default values. -/
def Expr.IsPlainFunction : Expr → Prop
  | .function _ params _ _ => ∀ p ∈ params, p.default = none
  | _ => False

/-- The definition holds a function, whatever the function does when it is called. -/
structure VarDef.IsFunction (v : VarDef) : Prop where
  ty : v.ty = .any ∨ v.ty = .function
  value : v.value.IsPlainFunction

/-- All definitions of the units hold functions. -/
def UnitSet.DefinesFunctions (units : UnitSet) : Prop :=
  ∀ u ∈ units, ∀ g ∈ u.groups, ∀ v ∈ g.2, v.IsFunction

/-- The symbol is a definition of a library or section. -/
structure Analysis.IsDefinition (a : Analysis) (t : SymbolId) : Prop where
  known : t < a.arena.symbols.size
  isVariable : a.arena.IsVariable t
  static : a.arena.Static t

variable {a : Analysis} {σ : ScopeId} {t : SymbolId}

/-- What a function of a library or section captures are definitions. -/
theorem Analysis.Supplied.isDefinition (supplied : a.Supplied) {o : SymbolId} {n : NodeId}
    {inner : ScopeId} (kind : (a.arena.scope σ).kind = .members o)
    (created : a.createdScopes.get? n = some inner)
    (enclosing : (a.arena.scope inner).enclosing = some σ) (mem : t ∈ a.closedOver n) :
    a.IsDefinition t := by
  obtain ⟨known, isVariable, located⟩ := supplied n inner σ t created enclosing mem
  refine ⟨known, isVariable, ?_⟩
  rcases located with (static | ⟨d, near⟩) | ⟨f, inFunction, -⟩
  · exact static
  · -- Nothing lies around the members of a library or section that could hold variables.
    cases near with
    | here => exact ⟨o, kind⟩
    | out block => rw [kind] at block; cases block
  · cases (Arena.InFunction.members kind).unique inFunction

/-- Whatever stands in the scope of a group was declared by a definition of the group. -/
theorem Analysis.Fills.exists_var {vars : List VarDef} (h : a.Fills (vars.map (·.node.id)) σ)
    (mem : t ∈ (a.arena.scope σ).slots) : ∃ v ∈ vars, a.definitions.get? v.node.id = some t := by
  obtain ⟨i, lt, rfl⟩ := List.getElem_of_mem mem
  have lt' : i < (vars.map (·.node.id)).length := by
    rw [h.length_eq]
    exact lt
  have same := h.get lt' lt
  rw [List.get_eq_getElem, List.getElem_map] at same
  exact ⟨_, List.getElem_mem _, same⟩

/-- **Every variable among members was declared by a definition** of the group whose members they
are. -/
theorem Analysis.Accepts.defined {units : UnitSet} (accepts : a.Accepts units) {o : SymbolId}
    (kind : (a.arena.scope σ).kind = .members o) (mem : t ∈ (a.arena.scope σ).slots)
    (isVariable : a.arena.IsVariable t) : ∃ u ∈ units, ∃ g ∈ u.namedGroups, ∃ v ∈ g.2.2,
      a.definitions.get? v.node.id = some t ∧
        ∃ home, a.Group a.Reaches home g.1 g.2.1.id g.2.2 σ o := by
  have members := (accepts.ready.owner σ o kind).2
  rcases accepts.describes.owner o σ members with ⟨path, unit⟩ | ⟨u, hu, g, hg, created⟩
  · -- Among the members of a unit there are no variables.
    obtain ⟨u, hu, rfl⟩ := accepts.describes.path path o unit
    obtain ⟨o', home, unit', -, members', bare, -⟩ := accepts.describes.group u hu
    rw [unit] at unit'
    cases unit'
    rw [members] at members'
    cases members'
    exact absurd isVariable (bare t mem)
  · obtain ⟨-, home, -, -, -, -, groups⟩ := accepts.describes.group u hu
    rw [← u.map_namedGroups] at hg
    obtain ⟨named, listed, rfl⟩ := List.mem_map.mp hg
    obtain ⟨σ', o', group⟩ := groups named listed
    cases group.created.symm.trans created
    obtain ⟨v, hv, defined⟩ := group.fills.exists_var mem
    have owner := group.kind
    rw [kind] at owner
    cases owner
    exact ⟨u, hu, named, listed, v, hv, defined, home, group⟩

namespace Code

/-- The symbol to capture is a definition, and its cell is reached from the units. -/
def CapturePlan.Takes (a : Analysis) (plan : CapturePlan) : Prop :=
  ∃ ref t path, plan = .cell ref ∧ a.IsDefinition t ∧ ref.site = none ∧
    ref.address = .absolute path ∧ a.arena.SlotPath t path

/-- The operation gives a function: one that was created in advance, or a new one that has captured
definitions. -/
inductive Op.MakesFunction (a : Analysis) : Op → Prop
  | constant {span : Span} {id : FunctionId} {signature : Signature} :
    MakesFunction a ⟨span, .constant (.function id signature)⟩
  | function {span region : Span} {params : List Param} {returns : Ty} {body : Op}
    {template : Template} {captures : List CapturePlan} (plain : ∀ p ∈ params, p.default = none)
    (takes : ∀ plan ∈ captures, plan.Takes a) :
    MakesFunction a ⟨span, .function params returns body template captures region⟩

/-- Outside all functions a definition is captured from its cell. -/
theorem CapturePlan.takes_of_capturePlan? (ready : a.arena.Ready) {plan : CapturePlan}
    (definition : a.IsDefinition t) (h : a.capturePlan? σ none t = some plan) : plan.Takes a := by
  obtain ⟨path, found, leads⟩ := ready.absolutePath?_of_static definition.known definition.static
  simp only [Analysis.capturePlan?, Analysis.closureIndex?, Option.bind_none, found,
    Option.some.injEq] at h
  exact ⟨_, t, path, h.symm, definition, rfl, rfl, leads⟩

/-- The evaluation of a function literal gives a function, if it gives anything. -/
theorem Action.eval_function {params : List Param} {returns : Ty} {body : Op} {template : Template}
    {captures : List CapturePlan} {region : Span} {supply : Supply} {space : SpaceId}
    {M M' : Machine} {v : Value}
      (h : (Action.function params returns body template captures region).eval supply space M =
        .ok v M') : ∃ id signature, v = .function id signature := by
  -- Whatever comes before, a function is created in the end.
  have ends : ∀ {α : Type} (x : Eval α) {f : α → Eval Value} {M : Machine},
      (∀ u M₁, f u M₁ = .ok v M' → ∃ id signature, v = .function id signature) →
        (x >>= f) M = .ok v M' → ∃ id signature, v = .function id signature := by
    intro α x f M last h
    cases hx : x M with
    | ok u M₁ =>
      rw [Eval.bind_of_ok hx] at h
      exact last u M₁ h
    | error stop M₁ =>
      rw [Eval.bind_of_error hx] at h
      cases h
  rw [Action.eval] at h
  refine ends _ (fun defaults M₁ => ends _ fun captured M₂ => ends _ fun closure M₃ h => ?_) h
  cases h
  exact ⟨_, _, rfl⟩

/-- Completion leaves it at that, and creates functions that capture nothing in advance. -/
theorem Op.MakesFunction.finish {op : Op} (h : op.MakesFunction a)
    (options : Options) (m : Memory) :
    (op.finish options m).1.MakesFunction a := by
  have same : (if options.specialize = true then op.specialize else op) = op := by
    cases h <;> split <;> rfl
  simp only [Op.finish, same]
  split
  · unfold Op.fold
    split
    · exact h
    · next folds =>
      cases h with
      | constant => exact absurd rfl folds
      | @function span region params returns body template captures plain takes =>
        split
        · next v machine ran =>
          change Eval.located span _ _ = _ at ran
          unfold Eval.located at ran
          split at ran
          · cases ran
          · obtain ⟨id, signature, rfl⟩ := Action.eval_function ran
            exact .constant
        · exact .function plain takes
  · exact h

end Code

namespace Compiler

variable {c : Compiler} {units : UnitSet}

theorem params_plain {function : Option NodeId} (params : List CellScript.Param) (s : Compiling)
    (h : ∀ p ∈ params, p.default = none) :
    ∀ p ∈ (c.params function params s).1, p.default = none := by
  induction params generalizing s with
  | nil => exact fun p mem => by cases mem
  | cons p rest ih =>
    obtain ⟨node, name, ty, default⟩ := p
    rw [List.forall_mem_cons] at h
    obtain ⟨rfl, rest'⟩ := h
    exact List.forall_mem_cons.mpr ⟨rfl, ih _ rest'⟩

/-- **A function of a library or section becomes an operation that creates it**, whatever was
compiled before. -/
theorem expr_makesFunction (rooted : c.analysis.Rooted) (supplied : c.analysis.Supplied)
    {o : SymbolId} {R : ScopeId → NodeId → Prop}
    (kind : (c.analysis.arena.scope σ).kind = .members o) {e : Expr} (plain : e.IsPlainFunction)
    (sound : e.Sound c.analysis R σ) (s : Compiling) :
    (c.expr none e s).1.MakesFunction c.analysis := by
  cases e with
  | function node params returns body =>
    obtain ⟨-, inner, function, -⟩ := sound
    have definitions :=
      fun t => supplied.isDefinition (t := t) kind function.created function.enclosing
    obtain ⟨plans, found, -⟩ :=
      rooted.capturePlans_ok (.members kind) (c.analysis.closedOver node.id)
      fun t mem => supplied node.id inner σ t function.created function.enclosing mem
    rw [expr]
    simp only [function.created, function.standing, found]
    refine (Op.MakesFunction.function (params_plain params s plain) fun plan mem =>
      ?_).finish c.options _
    obtain ⟨t, captured, planned⟩ := exists_of_mapM _ found plan mem
    exact CapturePlan.takes_of_capturePlan? rooted.ready (definitions t captured) planned
  | _ => cases plain

theorem sound_of_soundVars {R : ScopeId → NodeId → Prop} {vars : List VarDef}
    (h : soundVars a R σ vars) : ∀ v ∈ vars, v.value.Sound a R σ := by
  induction vars with
  | nil => exact fun v mem => by cases mem
  | cons v rest ih =>
    obtain ⟨node, name, ty, value⟩ := v
    exact List.forall_mem_cons.mpr ⟨h.1, ih h.2⟩

/-- The slot is that of a definition which holds a function. -/
structure MakesFunction (a : Analysis) (slot : Slot) : Prop where
  ty : slot.ty = .any ∨ slot.ty = .function
  init : ∃ op, slot.init = some op ∧ op.MakesFunction a

/-- **The slots of variables among members are those of definitions**, and compute their values. -/
theorem Compiled.tabulated {s : Compiling} (h : Compiled a units s) (accepts : a.Accepts units)
    {o : SymbolId} {template : Template} (kind : (a.arena.scope σ).kind = .members o)
    (found : s.templates.get? σ = some template) {slot : Slot} (mem : slot ∈ template.slots)
    (isVariable : a.arena.IsVariable slot.symbol) :
    ∃ u ∈ units, ∃ g ∈ u.namedGroups, ∃ home table op, a.Group a.Reaches home g.1 g.2.1.id g.2.2 σ
      o ∧ Tabulates a g.2.2 table ∧ table.get? slot.symbol = some op ∧ slot.init = some op := by
  obtain ⟨-, symbols, -⟩ := (template_ok_iff template).mp
    (h.template _ (fun _ _ returns => returns) σ template found)
  obtain ⟨u, hu, g, hg, v, hv, defined, home, group⟩ := accepts.defined kind
    (by rw [← symbols]; exact List.mem_map.mpr ⟨slot, mem, rfl⟩) isVariable
  have listed : g.2 ∈ u.groups := by
    rw [← u.map_namedGroups]
    exact List.mem_map.mpr ⟨g, hg, rfl⟩
  obtain ⟨-, -, -, -, -, held⟩ := h.units u hu
  obtain ⟨σ', created, held⟩ := held g.2 listed
  rw [group.created] at created
  cases created
  obtain ⟨table, made, tabulates, -, all⟩ := held _ fun _ _ returns => returns
  rw [found] at made
  cases made
  obtain ⟨t, -, rfl⟩ := List.mem_map.mp mem
  obtain ⟨op, computes⟩ :=
    Option.isSome_iff_exists.mp (all _ (List.mem_map.mpr ⟨v, hv, rfl⟩) t defined)
  exact ⟨u, hu, g, hg, home, table, op, group, tabulates, computes, computes⟩

/-- **Where all definitions hold functions, so do all slots of variables in the templates.** -/
theorem Compiled.makesFunctions {s : Compiling} (h : Compiled a units s) (accepts : a.Accepts units)
    (functions : units.DefinesFunctions) {o : SymbolId} {template : Template}
    (kind : (a.arena.scope σ).kind = .members o) (found : s.templates.get? σ = some template) :
    ∀ slot ∈ template.slots, a.arena.IsVariable slot.symbol → MakesFunction a slot := by
  intro slot mem isVariable
  obtain ⟨-, -, slots⟩ := (template_ok_iff template).mp
    (h.template _ (fun _ _ returns => returns) σ template found)
  obtain ⟨u, hu, g, hg, home, table, op, group, tabulates, computes, init⟩ :=
    h.tabulated accepts kind found mem isVariable
  have function :=
    functions u hu g.2 (by rw [← u.map_namedGroups]; exact List.mem_map.mpr ⟨g, hg, rfl⟩)
  -- The symbol has the value of the definition that has declared it.
  obtain ⟨w, hw, defined, options, before, rfl⟩ := tabulates.get computes
  obtain ⟨t', defined', -, -, ty⟩ := group.named w hw
  rw [defined] at defined'
  cases defined'
  refine ⟨?_, _, init, ?_⟩
  · rw [(slots slot mem).ty, ty]
    exact (function w hw).ty
  · exact expr_makesFunction (c := ⟨a, options⟩) accepts.toRooted accepts.supplied kind
      (function w hw).value (sound_of_soundVars group.sound w hw) before

/-- **Every variable that is laid out once is computed.** -/
theorem Compiled.init_isSome {s : Compiling} (h : Compiled a units s) (accepts : a.Accepts units)
    {template : Template} (static : (a.arena.scope σ).kind.isDynamic = false)
    (found : s.templates.get? σ = some template) {slot : Slot} (mem : slot ∈ template.slots)
    (isVariable : a.arena.IsVariable slot.symbol) : slot.init.isSome = true := by
  obtain ⟨-, symbols, -⟩ := (template_ok_iff template).mp
    (h.template _ (fun _ _ returns => returns) σ template found)
  obtain ⟨i, place⟩ := List.getElem?_of_mem (symbols ▸ List.mem_map.mpr ⟨slot, mem, rfl⟩ :
    slot.symbol ∈ (a.arena.scope σ).slots)
  obtain ⟨known, home, -⟩ := accepts.ready.slot σ i _ place
  rcases accepts.ready.home _ known isVariable.direct isVariable.target with dynamic | ⟨o, kind⟩
  · rw [home, static] at dynamic
    cases dynamic
  · rw [home] at kind
    obtain ⟨-, -, -, -, -, -, op, -, -, -, init⟩ := h.tabulated accepts kind found mem isVariable
    rw [init]
    rfl

end Compiler

end CellScript
