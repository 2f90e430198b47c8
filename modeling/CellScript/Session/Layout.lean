import CellScript.Code.Compile

/-!
# Static memory

Units, libraries, sections and their definitions are laid out once, when a session starts. Each
member scope becomes a space inside the space of the scope around it. Modules come first, because
the sections of interactive units lie inside the space of their module.
-/

namespace CellScript

open Code (Options Template)

namespace Compiler

variable (c : Compiler)

/-- Compiles the groups of definitions of one unit. -/
def groups : List (Node × List VarDef) → Compile PUnit
  | [] => return ⟨⟩
  | (node, vars) :: rest => do
    match c.analysis.createdScopes.get? node.id with
    | some scope => discard (c.groupTemplate scope vars)
    | none => pure ⟨⟩
    groups rest

/-- Compiles one unit. -/
def unit (u : SourceUnit) : Compile PUnit := do
  match (c.analysis.unit? u.path).bind fun symbol => (c.analysis.arena.symbol symbol).members with
  | some members =>
    discard (c.groupTemplate members [])
    c.groups u.groups
  | none => return ⟨⟩

/-- Compiles all units. -/
def program (units : UnitSet) : Compile PUnit := do
  discard (c.groupTemplate Analysis.unitsScope [])
  units.forM c.unit

end Compiler

/-! ## Laying out -/

/-- State of laying out: memory, and the spaces of the scopes laid out so far. -/
structure Layout where
  memory : Memory
  spaces : Table ScopeId SpaceId

namespace Layout

/-- Steps of laying out. -/
abbrev Step (α : Type) := StateT Layout (Except Exception) α

variable (arena : Arena) (templates : Table ScopeId Template)

/-- Adds a space for a scope. -/
def add (scope : ScopeId) (create : Memory → SpaceId × Memory) : Step SpaceId :=
  modifyGet fun l =>
    let (space, memory) := create l.memory
    (space, { l with memory := memory, spaces := l.spaces.insert scope space })

/-- Lays out the members of some cells. -/
def members (layOut : ScopeId → Step SpaceId) : List CellId → Step PUnit
  | [] => return ⟨⟩
  | id :: rest => do
    match ((← get).memory.cell id).shape.members with
    | none => pure ⟨⟩
    | some scope =>
      let space ← layOut scope
      modify fun l =>
        { l with memory := l.memory.modifyCell id fun c => { c with members := some space } }
    members layOut rest

/-- A scope has members but was never compiled. -/
def noTemplate (id : ScopeId) : Exception :=
  .internal ("Scope ScopeId(" ++ toString id ++ ") has no template")

/-- Lays out a member scope and everything in it, at most `fuel` levels deep. It lies inside the
space of the scope around it, or else inside `parent`. -/
def scope : Nat → ScopeId → SpaceId → Step SpaceId
  | 0, id, _ => throw (noTemplate id)
  | fuel + 1, id, parent => do
    match templates.get? id with
    | none => throw (noTemplate id)
    | some template =>
      let enclosing := ((arena.scope id).enclosing.bind ((← get).spaces.get? ·)).getD parent
      let space ← add id (·.nested template enclosing)
      members (fun inner => scope fuel inner space) ((← get).memory.cellsOf space)
      return space

/-- The cells of the units, modules before interactive units. -/
def unitOrder (m : Memory) (units : SpaceId) : List CellId :=
  let isInteractive (id : CellId) : Bool :=
    (arena.symbol (m.cell id).shape.symbol).target == .interactive
  let (interactive, modules) := (m.cellsOf units).partition isInteractive
  modules ++ interactive

/-- Lays out the units and everything in them. -/
def program : Step SpaceId := do
  match templates.get? Analysis.unitsScope with
  | none => throw (.internal "Units scope has no template")
  | some template =>
    let units ← add Analysis.unitsScope (·.root template)
    let cells := unitOrder arena (← get).memory units
    members (fun id => scope arena templates (arena.scopes.size + 1) id units) cells
    return units

end Layout

end CellScript
