import CellScript.Scope.Arena
import CellScript.Syntax.Unit
import CellScript.Table

/-!
# What analysis finds out

The arena of a program together with tables from its nodes to scopes, symbols and references.
Evaluation reads these tables and never changes them.
-/

namespace CellScript

/-- How the value of a reference is reached. -/
inductive ReferenceClass where
  /-- The innermost function around the reference has captured it. -/
  | closure
  /-- One name, declared in the scope of the reference. -/
  | ownScope
  /-- One name, declared in the scope around that of the reference. -/
  | parentScope
  | general
  deriving DecidableEq, Repr, Inhabited

/-- A reference whose target is known. -/
structure ResolvedReference where
  /-- The scope in which the reference is evaluated. -/
  scope : ScopeId
  /-- What the last name of the path denotes, possibly a symbol that stands for another one. -/
  symbol : SymbolId
  /-- The symbol that holds the value. -/
  target : SymbolId
  kind : ReferenceClass
  deriving DecidableEq, Repr, Inhabited

/-- The result of analysis. -/
structure Analysis where
  arena : Arena
  /-- Unit symbols by path. -/
  units : Entries SymbolId
  references : Table NodeId (Except Fault ResolvedReference)
  /-- Scopes by the node that creates them. -/
  createdScopes : Table NodeId ScopeId
  /-- Scopes in which expressions and patterns are evaluated. -/
  nodeScopes : Table NodeId ScopeId
  /-- Symbols by the node that defines them. -/
  definitions : Table NodeId SymbolId
  /-- Captured symbols of each function, in the order of first use. -/
  closures : Table NodeId (List SymbolId)
  /-- Module of each section, both as symbols. -/
  sections : Table SymbolId SymbolId
  /-- Faults in the order in which they were found. -/
  faults : List Fault
  /-- Nodes with a position, in the order in which they were visited. -/
  positions : List (NodeId × Span)

namespace Analysis

/-- The scope of names known in the whole program. -/
def globalScope : ScopeId := 0

/-- The scope with one symbol for each unit. -/
def unitsScope : ScopeId := 1

/-- Nothing analysed: the two outermost scopes, without names. -/
def initial : Analysis :=
  let (_, arena) := Arena.empty.newScope .global none false
  let (_, arena) := arena.newScope .units (some globalScope) false
  { arena := arena, units := [], references := [], createdScopes := [], nodeScopes := [],
    definitions := [], closures := [], sections := [], faults := [], positions := [] }

def hasErrors (a : Analysis) : Bool := !a.faults.isEmpty

/-- The symbol of the unit at a path. -/
def unit? (a : Analysis) (path : String) : Option SymbolId := Entries.get? a.units path

/-- The symbols that a function captures. -/
def closedOver (a : Analysis) (function : NodeId) : List SymbolId :=
  (a.closures.get? function).getD []

/-- One step of `member?`: a name among the members, or else the public names, of a symbol. -/
def step? (a : Analysis) (current : SymbolId) (name : String) : Option SymbolId := do
  let target ← a.arena.targetOf? current
  let inMembers := (a.arena.symbol target).members.bind fun s => (a.arena.scope s).get? name
  let inPublic := (a.arena.publicScope? target).bind fun s => (a.arena.scope s).get? name
  inMembers.or inPublic

/-- What a path of names denotes in a unit. Private libraries are found too, so that tools can
address every definition. -/
def member? (a : Analysis) (unit : String) (path : List String) : Option SymbolId := do
  path.foldlM a.step? (← a.unit? unit)

end Analysis

end CellScript
