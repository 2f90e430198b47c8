import CellScript.Scope.Analysis

/-!
# What functions capture

A function captures the symbols from outside that its body refers to, directly or from functions
inside it. A reference is walked past the functions around it, from the innermost outwards, until
one is reached inside which the target is declared; every function passed on the way captures the
target.
-/

namespace CellScript

/-- A function around the place that is being visited. -/
structure FunctionFrame where
  node : NodeId
  scope : ScopeId
  deriving Repr, Inhabited

/-- Steps of the walk. -/
abbrev Capturing (α : Type) := StateM Analysis α

namespace Capturing

/-- Adds a symbol to those that a function captures, once. -/
def capture (target : SymbolId) (function : NodeId) : Capturing PUnit :=
  modify fun a =>
    let captured := a.closedOver function
    if captured.contains target then a
    else { a with closures := a.closures.update function fun symbols => symbols ++ [target] }

/-- The functions that capture a symbol declared in `declaredIn`, innermost first. -/
def capturers (arena : Arena) (functions : List FunctionFrame) (declaredIn : ScopeId) :
    List FunctionFrame :=
  functions.takeWhile fun f => !arena.isWithin declaredIn f.scope

/-- Visits a reference inside `functions`, which are given innermost first. -/
def visitReference (functions : List FunctionFrame) (node : NodeId) : Capturing PUnit := do
  let a ← get
  match a.references.get? node with
  | some (.ok r) =>
    let by' := capturers a.arena functions (a.arena.symbol r.target).scope
    by'.forM fun f => capture r.target f.node
    if !by'.isEmpty then
      modify fun a =>
        { a with references := a.references.update node fun outcome =>
            outcome.map fun r => { r with kind := .closure } }
  | _ => pure ⟨⟩

/-- Notes a function that may capture nothing. -/
def noteFunction (node : NodeId) : Capturing PUnit :=
  modify fun a =>
    match a.closures.get? node with
    | some _ => a
    | none => { a with closures := a.closures.insert node [] }

mutual

/-- Visits an expression inside `functions`. The body of a function that was never given a scope is
left out. -/
def visitExpr (functions : List FunctionFrame) : Expr → Capturing PUnit
  | .constant _ _ => pure ⟨⟩
  | .reference node _ => visitReference functions node.id
  | .list _ items => visitItems functions items
  | .dict _ entries => visitEntries functions entries
  | .function node params _ body => do
    visitDefaults functions params
    match (← get).createdScopes.get? node.id with
    | none => pure ⟨⟩
    | some scope =>
      noteFunction node.id
      visitExpr (⟨node.id, scope⟩ :: functions) body
  | .call _ callee args => do
    visitExpr functions callee
    visitArguments functions args
  | .curry _ callee args => do
    visitExpr functions callee
    visitNamed functions args
  | .letIn _ bindings body => do
    visitBindings functions bindings
    visitExpr functions body
  | .ifElse _ c t e => do
    visitExpr functions c
    visitExpr functions t
    visitExpr functions e
  | .matchOn _ subject lines => do
    visitExpr functions subject
    visitLines functions lines
  | .forEach _ heads body => do
    visitHeads functions heads
    visitExpr functions body
  | .binary _ _ l r => do
    visitExpr functions l
    visitExpr functions r
  | .unary _ _ e => visitExpr functions e
  | .cast _ e _ => visitExpr functions e
  | .isOf _ e _ => visitExpr functions e
  | .access _ c keys => do
    visitExpr functions c
    visitExprs functions keys
  | .tryCatch _ body _ _ _ handler => do
    visitExpr functions body
    visitExpr functions handler
  | .throw _ e => visitExpr functions e

def visitExprs (functions : List FunctionFrame) : List Expr → Capturing PUnit
  | [] => pure ⟨⟩
  | e :: rest => do
    visitExpr functions e
    visitExprs functions rest

def visitOption (functions : List FunctionFrame) : Option Expr → Capturing PUnit
  | none => pure ⟨⟩
  | some e => visitExpr functions e

def visitItems (functions : List FunctionFrame) : List ListItem → Capturing PUnit
  | [] => pure ⟨⟩
  | .value e :: rest => do
    visitExpr functions e
    visitItems functions rest
  | .splat e :: rest => do
    visitExpr functions e
    visitItems functions rest

def visitEntries (functions : List FunctionFrame) : List DictEntry → Capturing PUnit
  | [] => pure ⟨⟩
  | .pair k v :: rest => do
    visitExpr functions k
    visitExpr functions v
    visitEntries functions rest
  | .splat e :: rest => do
    visitExpr functions e
    visitEntries functions rest

def visitDefaults (functions : List FunctionFrame) : List Param → Capturing PUnit
  | [] => pure ⟨⟩
  | ⟨_, _, _, default⟩ :: rest => do
    visitOption functions default
    visitDefaults functions rest

def visitArguments (functions : List FunctionFrame) : List Argument → Capturing PUnit
  | [] => pure ⟨⟩
  | .positional e :: rest => do
    visitExpr functions e
    visitArguments functions rest
  | .named _ e :: rest => do
    visitExpr functions e
    visitArguments functions rest
  | .splat e :: rest => do
    visitExpr functions e
    visitArguments functions rest

def visitNamed (functions : List FunctionFrame) : List NamedExpr → Capturing PUnit
  | [] => pure ⟨⟩
  | ⟨_, e⟩ :: rest => do
    visitExpr functions e
    visitNamed functions rest

def visitBindings (functions : List FunctionFrame) : List VarDef → Capturing PUnit
  | [] => pure ⟨⟩
  | ⟨_, _, _, e⟩ :: rest => do
    visitExpr functions e
    visitBindings functions rest

def visitLines (functions : List FunctionFrame) : List MatchLine → Capturing PUnit
  | [] => pure ⟨⟩
  | ⟨_, pattern, guard, result⟩ :: rest => do
    visitPattern functions pattern
    visitOption functions guard
    visitExpr functions result
    visitLines functions rest

def visitHeads (functions : List FunctionFrame) : List ForHead → Capturing PUnit
  | [] => pure ⟨⟩
  | .generator _ _ _ source :: rest => do
    visitExpr functions source
    visitHeads functions rest
  | .definition _ _ _ e :: rest => do
    visitExpr functions e
    visitHeads functions rest
  | .condition e :: rest => do
    visitExpr functions e
    visitHeads functions rest

def visitPattern (functions : List FunctionFrame) : Pattern → Capturing PUnit
  | ⟨_, shape, _⟩ => visitShape functions shape

def visitShape (functions : List FunctionFrame) : PatternShape → Capturing PUnit
  | .expr e => visitExpr functions e
  | .wildcard => pure ⟨⟩
  | .default => pure ⟨⟩
  | .ofType _ => pure ⟨⟩
  | .list items => visitPatterns functions items
  | .headTail head _ => visitPatterns functions head
  | .initLast _ last => visitPatterns functions last
  | .middle head _ last => do
    visitPatterns functions head
    visitPatterns functions last
  | .dict entries => visitKeyPatterns functions entries
  | .openDict entries _ => visitKeyPatterns functions entries

def visitPatterns (functions : List FunctionFrame) : List Pattern → Capturing PUnit
  | [] => pure ⟨⟩
  | p :: rest => do
    visitPattern functions p
    visitPatterns functions rest

def visitKeyPatterns (functions : List FunctionFrame) : List KeyPattern → Capturing PUnit
  | [] => pure ⟨⟩
  | ⟨_, p⟩ :: rest => do
    visitPattern functions p
    visitKeyPatterns functions rest

end

end Capturing

/-- Enters what every function of the program captures. -/
def Analysis.captureAll (a : Analysis) (units : UnitSet) : Analysis :=
  let vars := units.flatMap fun u => u.groups.flatMap (·.2)
  (Capturing.visitBindings [] vars |>.run a).2

end CellScript
