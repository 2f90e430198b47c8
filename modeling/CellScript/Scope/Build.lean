import CellScript.Scope.Analysis

/-!
# Building scopes

The first pass over a program: creates the scopes, declares the symbols, and notes every reference
with the number of symbols that were declared before it. In unordered scopes all names are declared
before any value is visited; in ordered scopes each name is declared just before its own value.
-/

namespace CellScript

/-- A reference that waits until everything is linked. -/
structure PendingReference where
  node : Node
  scope : ScopeId
  reference : Reference
  /-- Number of symbols declared before the reference was visited. -/
  visible : Nat
  deriving Repr, Inhabited

/-- State of the first pass. References and positions are in reverse order. -/
structure Building where
  analysis : Analysis
  pending : List PendingReference
  /-- Collect faults and go on, instead of ending at the first. -/
  recovery : Bool

/-- Steps of the first pass. -/
abbrev Build (α : Type) := StateT Building (Except Fault) α

namespace Build

/-- Notes a fault, or ends the pass with it. -/
def report (fault : Fault) : Build PUnit := do
  let b ← get
  if b.recovery then
    set { b with analysis := { b.analysis with faults := b.analysis.faults ++ [fault] } }
  else throw fault

def modifyAnalysis (f : Analysis → Analysis) : Build PUnit :=
  modify fun b => { b with analysis := f b.analysis }

/-- Remembers where a node stands, if it has a position. -/
def recordPosition (node : Node) : Build PUnit :=
  if node.span.hasPosition then
    modifyAnalysis fun a => { a with positions := (node.id, node.span) :: a.positions }
  else pure ⟨⟩

/-- Declares a symbol. A name that is taken is reported and gives no symbol. -/
def declare (scope : ScopeId) (d : Declaration) : Build (Option SymbolId) := do
  let a := (← get).analysis
  match a.arena.declare scope d with
  | .ok (id, arena) =>
    modifyAnalysis fun a =>
      { a with arena := arena, definitions := a.definitions.insert d.node.id id }
    recordPosition d.node
    return some id
  | .error fault =>
    report fault
    return none

/-- Creates a scope for a node. -/
def createScope (node : NodeId) (kind : ScopeKind) (enclosing : ScopeId) (ordered : Bool) :
    Build ScopeId := do
  let a := (← get).analysis
  let (scope, arena) := a.arena.newScope kind (some enclosing) ordered
  modifyAnalysis fun a =>
    { a with arena := arena, createdScopes := a.createdScopes.insert node scope }
  return scope

/-- Creates the member scope of a symbol. -/
def memberScope (owner : SymbolId) (enclosing : ScopeId) (node : NodeId) : Build ScopeId := do
  let scope ← createScope node (.members owner) enclosing false
  modifyAnalysis fun a => { a with arena := a.arena.setMembers owner scope }
  return scope

def blockScope (node : NodeId) (enclosing : ScopeId) (ordered : Bool) : Build ScopeId :=
  createScope node (.block node) enclosing ordered

/-- Declares names bound by a pattern or a catch clause. -/
def declareCaptures (scope : ScopeId) : List Capture → Build PUnit
  | [] => pure ⟨⟩
  | c :: rest => do
    let _ ← declare scope (.var c.name .any c.node)
    declareCaptures scope rest

/-- Declares the parameters of a function. -/
def declareParams (scope : ScopeId) : List Param → Build PUnit
  | [] => pure ⟨⟩
  | p :: rest => do
    let _ ← declare scope (.var p.name p.ty p.node)
    declareParams scope rest

/-- Notes the scope in which a node is evaluated, and its position. -/
def enter (node : Node) (scope : ScopeId) : Build PUnit := do
  modifyAnalysis fun a => { a with nodeScopes := a.nodeScopes.insert node.id scope }
  recordPosition node

/-- Notes a reference. -/
def await (node : Node) (scope : ScopeId) (r : Reference) : Build PUnit :=
  modify fun b =>
    { b with pending := ⟨node, scope, r, b.analysis.arena.symbols.size⟩ :: b.pending }

mutual

/-- Visits an expression that is evaluated in `scope`. -/
def visitExpr (scope : ScopeId) : Expr → Build PUnit
  | .constant node _ => enter node scope
  | .reference node r => do
    enter node scope
    await node scope r
  | .list node items => do
    enter node scope
    visitItems scope items
  | .dict node entries => do
    enter node scope
    visitEntries scope entries
  | .function node params _ body => do
    enter node scope
    visitDefaults scope params
    let inner ← createScope node.id (.function node.id) scope false
    declareParams inner params
    visitExpr inner body
  | .call node callee args => do
    enter node scope
    visitExpr scope callee
    visitArguments scope args
  | .curry node callee args => do
    enter node scope
    visitExpr scope callee
    visitNamed scope args
  | .letIn node bindings body => do
    enter node scope
    let inner ← blockScope node.id scope true
    visitBindings inner bindings
    visitExpr inner body
  | .ifElse node c t e => do
    enter node scope
    visitExpr scope c
    visitExpr scope t
    visitExpr scope e
  | .matchOn node subject lines => do
    enter node scope
    visitExpr scope subject
    visitLines scope lines
  | .forEach node heads body => do
    enter node scope
    let inner ← blockScope node.id scope true
    visitHeads inner heads
    visitExpr inner body
  | .binary node _ l r => do
    enter node scope
    visitExpr scope l
    visitExpr scope r
  | .unary node _ e => do
    enter node scope
    visitExpr scope e
  | .cast node e _ => do
    enter node scope
    visitExpr scope e
  | .isOf node e _ => do
    enter node scope
    visitExpr scope e
  | .access node c keys => do
    enter node scope
    visitExpr scope c
    visitExprs scope keys
  | .tryCatch node body clause error trace handler => do
    enter node scope
    visitExpr scope body
    let inner ← blockScope clause.id scope false
    recordPosition clause
    declareCaptures inner (error.toList ++ trace.toList)
    visitExpr inner handler
  | .throw node e => do
    enter node scope
    visitExpr scope e

def visitExprs (scope : ScopeId) : List Expr → Build PUnit
  | [] => pure ⟨⟩
  | e :: rest => do
    visitExpr scope e
    visitExprs scope rest

def visitOption (scope : ScopeId) : Option Expr → Build PUnit
  | none => pure ⟨⟩
  | some e => visitExpr scope e

def visitItems (scope : ScopeId) : List ListItem → Build PUnit
  | [] => pure ⟨⟩
  | .value e :: rest => do
    visitExpr scope e
    visitItems scope rest
  | .splat e :: rest => do
    visitExpr scope e
    visitItems scope rest

def visitEntries (scope : ScopeId) : List DictEntry → Build PUnit
  | [] => pure ⟨⟩
  | .pair k v :: rest => do
    visitExpr scope k
    visitExpr scope v
    visitEntries scope rest
  | .splat e :: rest => do
    visitExpr scope e
    visitEntries scope rest

/-- Defaults are evaluated where the function is created. -/
def visitDefaults (scope : ScopeId) : List Param → Build PUnit
  | [] => pure ⟨⟩
  | ⟨_, _, _, default⟩ :: rest => do
    visitOption scope default
    visitDefaults scope rest

def visitArguments (scope : ScopeId) : List Argument → Build PUnit
  | [] => pure ⟨⟩
  | .positional e :: rest => do
    visitExpr scope e
    visitArguments scope rest
  | .named _ e :: rest => do
    visitExpr scope e
    visitArguments scope rest
  | .splat e :: rest => do
    visitExpr scope e
    visitArguments scope rest

def visitNamed (scope : ScopeId) : List NamedExpr → Build PUnit
  | [] => pure ⟨⟩
  | ⟨_, e⟩ :: rest => do
    visitExpr scope e
    visitNamed scope rest

/-- Each binding is declared before its own value is visited, so that it can refer to itself. -/
def visitBindings (scope : ScopeId) : List VarDef → Build PUnit
  | [] => pure ⟨⟩
  | ⟨node, name, ty, e⟩ :: rest => do
    let _ ← declare scope (.var name ty node)
    visitExpr scope e
    visitBindings scope rest

/-- Expressions in a pattern are evaluated in the scope of the match; what the pattern captures is
declared in the scope of the line. -/
def visitLines (scope : ScopeId) : List MatchLine → Build PUnit
  | [] => pure ⟨⟩
  | ⟨node, pattern, guard, result⟩ :: rest => do
    let inner ← blockScope node.id scope false
    recordPosition node
    enter pattern.node scope
    visitPattern scope pattern
    declareCaptures inner pattern.captures
    visitOption inner guard
    visitExpr inner result
    visitLines scope rest

/-- The source of a generator does not see the generated name; a definition sees itself. -/
def visitHeads (scope : ScopeId) : List ForHead → Build PUnit
  | [] => pure ⟨⟩
  | .generator node name ty source :: rest => do
    visitExpr scope source
    let _ ← declare scope (.var name ty node)
    visitHeads scope rest
  | .definition node name ty e :: rest => do
    let _ ← declare scope (.var name ty node)
    visitExpr scope e
    visitHeads scope rest
  | .condition e :: rest => do
    visitExpr scope e
    visitHeads scope rest

/-- Visits the expressions of a pattern. -/
def visitPattern (scope : ScopeId) : Pattern → Build PUnit
  | ⟨_, shape, _⟩ => visitShape scope shape

def visitShape (scope : ScopeId) : PatternShape → Build PUnit
  | .expr e => visitExpr scope e
  | .wildcard => pure ⟨⟩
  | .default => pure ⟨⟩
  | .ofType _ => pure ⟨⟩
  | .list items => visitPatterns scope items
  | .headTail head _ => visitPatterns scope head
  | .initLast _ last => visitPatterns scope last
  | .middle head _ last => do
    visitPatterns scope head
    visitPatterns scope last
  | .dict entries => visitKeyPatterns scope entries
  | .openDict entries _ => visitKeyPatterns scope entries

def visitPatterns (scope : ScopeId) : List Pattern → Build PUnit
  | [] => pure ⟨⟩
  | p :: rest => do
    visitPattern scope p
    visitPatterns scope rest

def visitKeyPatterns (scope : ScopeId) : List KeyPattern → Build PUnit
  | [] => pure ⟨⟩
  | ⟨_, p⟩ :: rest => do
    visitPattern scope p
    visitKeyPatterns scope rest

end

/-! ## Units -/

def declareVars (scope : ScopeId) : List VarDef → Build PUnit
  | [] => pure ⟨⟩
  | v :: rest => do
    let _ ← declare scope (.var v.name v.ty v.node)
    declareVars scope rest

def visitValues (scope : ScopeId) : List VarDef → Build PUnit
  | [] => pure ⟨⟩
  | v :: rest => do
    visitExpr scope v.value
    visitValues scope rest

/-- Declares all definitions of a scope, then visits their values. -/
def visitVars (scope : ScopeId) (vars : List VarDef) : Build PUnit := do
  declareVars scope vars
  visitValues scope vars

/-- The declaration of a unit in the scope of units. -/
def unitDeclaration (u : SourceUnit) : Declaration :=
  match u.kind with
  | .module _ => .owner u.path .module u.node
  | .interactive _ => .owner u.path .interactive u.node

/-- Declares a unit with its scopes, and the global name of a module. -/
def declareUnit (u : SourceUnit) : Build (Option SymbolId) := do
  match ← declare Analysis.unitsScope (unitDeclaration u) with
  | none => return none
  | some symbol =>
    modifyAnalysis fun a => { a with units := a.units.insert u.path symbol }
    let _ ← memberScope symbol Analysis.unitsScope u.node.id
    match u.kind with
    | .interactive _ => return some symbol
    | .module m =>
      modifyAnalysis fun a =>
        let (scope, arena) := a.arena.newScope (.exports symbol) (some Analysis.unitsScope) false
        { a with arena := arena.setExports symbol scope }
      match m.globalName with
      | none => return some symbol
      | some name =>
        let _ ← declare Analysis.globalScope
          (.indirect name (.moduleImport u.path) ⟨u.node.id.asGlobalName, u.node.span⟩)
        return some symbol

def declareMembers (scope : ScopeId) (source : String) : List ImportMember → Build PUnit
  | [] => pure ⟨⟩
  | m :: rest => do
    let binding := match m.kind with
      | .name exported => Binding.nameImport source exported
      | .module => Binding.moduleImport source
    let _ ← declare scope (.indirect m.name binding m.node)
    declareMembers scope source rest

def declareImports (scope : ScopeId) : List Import → Build PUnit
  | [] => pure ⟨⟩
  | i :: rest => do
    declareMembers scope i.source i.members
    declareImports scope rest

def declareAliases (scope : ScopeId) : List Renaming → Build PUnit
  | [] => pure ⟨⟩
  | r :: rest => do
    let _ ← declare scope (.indirect r.name (.alias r.target scope) r.node)
    declareAliases scope rest

/-- Declares exports; their targets are looked up in the module itself. -/
def declareExports (scope exports : ScopeId) : List Renaming → Build PUnit
  | [] => pure ⟨⟩
  | r :: rest => do
    let _ ← declare exports
      { Declaration.indirect r.name (.export r.target scope) r.node with exported := true }
    declareExports scope exports rest

/-- Shows a library to other units. -/
def publish (exports : ScopeId) (name : String) (symbol : SymbolId) : Build PUnit := do
  match (← get).analysis.arena.publish exports name symbol with
  | .ok arena => modifyAnalysis fun a => { a with arena := arena }
  | .error fault => report fault

/-- Declares libraries with their definitions. A library whose name is taken is left out with
everything in it. -/
def visitLibraries (scope exports : ScopeId) : List Library → Build PUnit
  | [] => pure ⟨⟩
  | l :: rest => do
    match ← declare scope { Declaration.owner l.name .library
      l.node with exported := l.exported } with
    | none => visitLibraries scope exports rest
    | some symbol =>
      let members ← memberScope symbol scope l.node.id
      if l.exported then publish exports l.name symbol
      visitVars members l.vars
      visitLibraries scope exports rest

def visitModule (m : Module) (symbol : SymbolId) : Build PUnit := do
  let s := (← get).analysis.arena.symbol symbol
  match s.members, s.exports with
  | some scope, some exports =>
    declareImports scope m.imports
    declareAliases scope m.aliases
    visitLibraries scope exports m.libraries
    declareExports scope exports m.exports
  | _, _ => pure ⟨⟩

/-- Declares sections with their definitions. The scope of a section comes to lie inside its module
when the program is linked. -/
def visitSections (scope : ScopeId) : List Section → Build PUnit
  | [] => pure ⟨⟩
  | s :: rest => do
    match ← declare scope (.owner s.module .interactiveSection s.node) with
    | none => visitSections scope rest
    | some symbol =>
      let members ← memberScope symbol Analysis.unitsScope s.node.id
      visitVars members s.vars
      visitSections scope rest

def visitInteractive (sections : List Section) (symbol : SymbolId) : Build PUnit := do
  match ((← get).analysis.arena.symbol symbol).members with
  | some scope => visitSections scope sections
  | none => pure ⟨⟩

/-- Declares all units, so that they can name each other in any order. -/
def declareUnits : List SourceUnit → Build (List (SourceUnit × SymbolId))
  | [] => pure []
  | u :: rest => do
    match ← declareUnit u with
    | some symbol => return (u, symbol) :: (← declareUnits rest)
    | none => declareUnits rest

def visitUnits : List (SourceUnit × SymbolId) → Build PUnit
  | [] => pure ⟨⟩
  | (u, symbol) :: rest => do
    match u.kind with
    | .module m => visitModule m symbol
    | .interactive sections => visitInteractive sections symbol
    visitUnits rest

end Build

/-- Runs the first pass; gives the analysis so far and the references that wait. -/
def buildScopes (recovery : Bool) (units : UnitSet) :
    Except Fault (Analysis × List PendingReference) := do
  let start : Building := ⟨.initial, [], recovery⟩
  let pass : Build PUnit := do
    Build.visitUnits (← Build.declareUnits units)
  let (_, b) ← pass.run start
  return ({ b.analysis with positions := b.analysis.positions.reverse }, b.pending.reverse)

end CellScript
