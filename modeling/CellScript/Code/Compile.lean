import CellScript.Code.Fold
import CellScript.Scope.Analysis
import CellScript.Value.Literal

/-!
# Compilation

Turns analysed expressions into operations. Every reference gets its address: the place among the
captured symbols of the innermost function, a path of slots from the units for definitions that are
laid out once, and otherwise the number of steps outwards. Each operation is completed as soon as
its parts are. What analysis could not make sense of becomes an operation that fails.
-/

namespace CellScript

open Code (Address CapturePlan CellRef Op Options Slot Template)

/-! ## Faults found by compilation -/

namespace Fault

/-- Analysis has given no scope or slot to a part of the program. -/
def noScope (what : String) (span : Span) : Fault :=
  ⟨.unresolvedReference, "No analysed scope for " ++ what, some span⟩

def notAnalysed : Fault := ⟨.unresolvedReference, "Reference was not analysed", none⟩

def notReachable (name : String) : Fault :=
  ⟨.unresolvedReference, name ++ " is not reachable from its reference", none⟩

/-- The fault with a region, unless it has one. -/
def orSpan (f : Fault) (span : Span) : Fault := { f with span := f.span.or (some span) }

end Fault

/-! ## Addresses -/

namespace Analysis

variable (a : Analysis)

/-- The slot of the symbol that a node defines. -/
def slotOf? (node : NodeId) : Option Nat :=
  (a.definitions.get? node).map fun symbol => (a.arena.symbol symbol).slot

/-- The slot of a captured name. -/
def captureSlot? (capture : Option Capture) : Option Nat :=
  capture.bind fun c => a.slotOf? c.node.id

/-- The place of a symbol among those that a function captures. -/
def closureIndex? (function : Option NodeId) (symbol : SymbolId) : Option Nat :=
  function.bind fun f => (a.closedOver f).idxOf? symbol

/-- The address of a resolved reference inside a function. -/
def addressOf (r : ResolvedReference) (function : Option NodeId) : Except Fault Address :=
  let target := a.arena.symbol r.target
  let index := if r.kind == .closure then a.closureIndex? function r.target else none
  match index, a.arena.absolutePath? r.target with
  | some index, _ => .ok (.closure index)
  | none, some path => .ok (.absolute path)
  | none, none =>
    match r.kind, a.arena.depth? r.scope target.scope with
    | .ownScope, _ | _, some 0 => .ok (.own target.slot)
    | .parentScope, _ | _, some 1 => .ok (.parent target.slot)
    | _, some depth => .ok (.frame depth target.slot)
    | _, none => .error (.notReachable target.name)

/-- The address and declared type of what a reference denotes. -/
def address (node : NodeId) (function : Option NodeId) : Except Fault (Address × Ty) :=
  match a.references.get? node with
  | none => .error .notAnalysed
  | some (.error fault) => .error fault
  | some (.ok r) => (a.addressOf r function).map fun address => (address,
      (a.arena.symbol r.target).ty)

/-- Where a function that is created in the scope `creation`, inside the function `enclosing`, finds
a symbol. -/
def capturePlan? (creation : ScopeId) (enclosing : Option NodeId) (symbol : SymbolId) :
    Option CapturePlan :=
  let target := a.arena.symbol symbol
  let cell (address : Address) : CapturePlan := .cell ⟨target.name, address, target.ty, none⟩
  match a.closureIndex? enclosing symbol, a.arena.absolutePath? symbol with
  | some index, _ => some (.propagate index)
  | none, some path => some (cell (.absolute path))
  | none, none =>
    (a.arena.depth? creation target.scope).map fun
      | 0 => cell (.own target.slot)
      | depth => cell (.frame depth target.slot)

/-- The cells of a scope; `inits` computes the values of some symbols. -/
def templateOf (scope : ScopeId) (inits : Table SymbolId Op) : Template :=
  ⟨scope, (a.arena.scope scope).slots.map fun id =>
    let symbol := a.arena.symbol id
    { symbol := id, name := symbol.name, ty := symbol.ty, span := symbol.span,
      init := inits.get? id, members := symbol.members }⟩

end Analysis

/-! ## The walk -/

/-- State of compilation: memory for folded values, and the templates laid out so far. -/
structure Compiling where
  memory : Memory
  templates : Table ScopeId Template

/-- Steps of compilation. -/
abbrev Compile (α : Type) := StateM Compiling α

/-- What compilation reads. -/
structure Compiler where
  analysis : Analysis
  options : Options

namespace Compiler

variable (c : Compiler)

/-- Completes an operation whose parts are complete. -/
def finish (op : Op) : Compile Op := modifyGet fun s =>
  let (op, memory) := op.finish c.options s.memory
  (op, { s with memory := memory })

/-- The template of a scope, made once. -/
def template (scope : ScopeId) (inits : Compile (Table SymbolId Op)) : Compile Template := do
  match (← get).templates.get? scope with
  | some t => return t
  | none =>
    let t := c.analysis.templateOf scope (← inits)
    modify fun s => { s with templates := s.templates.insert scope t }
    return t

/-- The operation of a reference inside a function. -/
def reference (node : Node) (r : Reference) (function : Option NodeId) : Op :=
  match c.analysis.address node.id function with
  | .ok (address, ty) => ⟨node.span, .reference ⟨r.text, address, ty, none⟩ node.id⟩
  | .error fault => .ofFault (fault.orSpan node.span) node.span

/-- The operation of a literal. -/
def constant (node : Node) (l : Literal) : Op :=
  match Value.ofLiteral l with
  | .ok v => ⟨node.span, .constant v⟩
  | .error e => .ofFault ⟨e.code, e.message, some node.span⟩ node.span

/-- An operation that fails for want of a scope. -/
def noScope (what : String) (span : Span) : Op := .ofFault (.noScope what span) span

mutual

/-- Compiles an expression that stands inside a function, or outside all of them. -/
def expr (function : Option NodeId) : Expr → Compile Op
  | .constant node l => return constant node l
  | .reference node r => return c.reference node r function
  | .list node es => do c.finish ⟨node.span, .list (← items function es)⟩
  | .dict node es => do c.finish ⟨node.span, .dict (← entries function es)⟩
  | .function node ps returns body => do
    match c.analysis.createdScopes.get? node.id, c.analysis.nodeScopes.get? node.id with
    | some scope, some creation =>
      let ps ← params function ps
      let template ← c.template scope (return [])
      let body ← expr (some node.id) body
      match (c.analysis.closedOver node.id).mapM (c.analysis.capturePlan? creation function) with
      | some captures =>
        c.finish ⟨node.span, .function ps returns body template captures node.span⟩
      | none => return noScope "function" node.span
    | _, _ => return noScope "function" node.span
  | .call node callee args => do
    let callee ← expr function callee
    c.finish ⟨node.span, .call callee (← arguments function args)⟩
  | .curry node callee args => do
    let callee ← expr function callee
    c.finish ⟨node.span, .curry callee (← named function args)⟩
  | .letIn node bindings body => do
    match c.analysis.createdScopes.get? node.id with
    | none => return noScope "let" node.span
    | some scope =>
      let template ← c.template scope (inits function bindings)
      c.finish ⟨node.span, .letIn template (← expr function body)⟩
  | .ifElse node condition thenBranch elseBranch => do
    let condition ← expr function condition
    let thenBranch ← expr function thenBranch
    c.finish ⟨node.span, .ifElse condition thenBranch (← expr function elseBranch)⟩
  | .matchOn node subject ls => do
    match ← lines function ls with
    | .error fault => return fault
    | .ok ls => c.finish ⟨node.span, .matchOn (← expr function subject) ls⟩
  | .forEach node hs body => do
    match c.analysis.createdScopes.get? node.id with
    | none => return noScope "for" node.span
    | some scope =>
      let template ← c.template scope (headInits function hs)
      match ← heads function hs with
      | .error fault => return fault
      | .ok hs => c.finish ⟨node.span, .forEach template hs (← expr function body)⟩
  | .binary node op l r => do
    let l ← expr function l
    c.finish ⟨node.span, .binary op .generic l (← expr function r)⟩
  | .unary node op e => do c.finish ⟨node.span, .unary op (← expr function e)⟩
  | .cast node e ty => do c.finish ⟨node.span, .cast (← expr function e) ty⟩
  | .isOf node e ty => do c.finish ⟨node.span, .isOf (← expr function e) ty⟩
  | .access node container keys => do
    let container ← expr function container
    c.finish ⟨node.span, .access container (← exprs function keys)⟩
  | .tryCatch node body clause error trace handler => do
    match c.analysis.createdScopes.get? clause.id with
    | none => return noScope "catch" clause.span
    | some scope =>
      let body ← expr function body
      let template ← c.template scope (return [])
      let handler ← expr function handler
      c.finish ⟨node.span, .tryCatch body template (c.analysis.captureSlot? error)
        (c.analysis.captureSlot? trace) handler⟩
  | .throw node e => do c.finish ⟨node.span, .throw (← expr function e)⟩

def exprs (function : Option NodeId) : List Expr → Compile (List Op)
  | [] => return []
  | e :: rest => do
    let op ← expr function e
    return op :: (← exprs function rest)

def option (function : Option NodeId) : Option Expr → Compile (Option Op)
  | none => return none
  | some e => return some (← expr function e)

def items (function : Option NodeId) : List ListItem → Compile (List Code.Item)
  | [] => return []
  | .value e :: rest => do
    let op ← expr function e
    return .value op :: (← items function rest)
  | .splat e :: rest => do
    let op ← expr function e
    return .splat op :: (← items function rest)

def entries (function : Option NodeId) : List DictEntry → Compile (List Code.Entry)
  | [] => return []
  | .pair k v :: rest => do
    let k ← expr function k
    let v ← expr function v
    return .pair k v :: (← entries function rest)
  | .splat e :: rest => do
    let op ← expr function e
    return .splat op :: (← entries function rest)

def params (function : Option NodeId) : List Param → Compile (List Code.Param)
  | [] => return []
  | ⟨_, name, ty, default⟩ :: rest => do
    let default ← option function default
    return ⟨name, ty, default⟩ :: (← params function rest)

def arguments (function : Option NodeId) : List Argument → Compile (List Code.Argument)
  | [] => return []
  | .positional e :: rest => do
    let op ← expr function e
    return .positional op :: (← arguments function rest)
  | .named name e :: rest => do
    let op ← expr function e
    return .named name op :: (← arguments function rest)
  | .splat e :: rest => do
    let op ← expr function e
    return .splat op :: (← arguments function rest)

def named (function : Option NodeId) : List NamedExpr → Compile (List Code.Named)
  | [] => return []
  | ⟨name, e⟩ :: rest => do
    let op ← expr function e
    return ⟨name, op⟩ :: (← named function rest)

/-- The values of definitions by their symbols. A definition without a symbol is left out. -/
def inits (function : Option NodeId) : List VarDef → Compile (Table SymbolId Op)
  | [] => return []
  | ⟨node, _, _, value⟩ :: rest => do
    match c.analysis.definitions.get? node.id with
    | none => inits function rest
    | some symbol =>
      let op ← expr function value
      return Table.insert (← inits function rest) symbol op

/-- The values of the definitions among the heads of a comprehension. -/
def headInits (function : Option NodeId) : List ForHead → Compile (Table SymbolId Op)
  | [] => return []
  | .generator _ _ _ _ :: rest => headInits function rest
  | .condition _ :: rest => headInits function rest
  | .definition node _ _ value :: rest => do
    match c.analysis.definitions.get? node.id with
    | none => headInits function rest
    | some symbol =>
      let op ← expr function value
      return Table.insert (← headInits function rest) symbol op

/-- Heads of a comprehension; a head without a slot fails as a whole. -/
def heads (function : Option NodeId) : List ForHead → Compile (Except Op (List Code.Head))
  | [] => return .ok []
  | .generator node _ ty source :: rest => do
    match c.analysis.slotOf? node.id with
    | none => return .error (noScope "generator" node.span)
    | some slot =>
      let source ← expr function source
      return (← heads function rest).map (.generator slot ty source :: ·)
  | .definition node _ _ _ :: rest => do
    match c.analysis.slotOf? node.id with
    | none => return .error (noScope "definition" node.span)
    | some slot => return (← heads function rest).map (.definition slot :: ·)
  | .condition e :: rest => do
    let op ← expr function e
    return (← heads function rest).map (.condition op :: ·)

/-- Lines of a match; a line without a scope fails as a whole. -/
def lines (function : Option NodeId) : List MatchLine → Compile (Except Op (List Code.Line))
  | [] => return .ok []
  | ⟨node, p, guard, result⟩ :: rest => do
    match c.analysis.createdScopes.get? node.id with
    | none => return .error (noScope "match clause" node.span)
    | some scope =>
      let p ← pattern function p
      let template ← c.template scope (return [])
      let guard ← option function guard
      let result ← expr function result
      return (← lines function rest).map (⟨p, template, guard, result⟩ :: ·)

def pattern (function : Option NodeId) : Pattern → Compile Code.Pattern
  | ⟨_, s, whole⟩ => return ⟨← shape function s, c.analysis.captureSlot? whole⟩

def shape (function : Option NodeId) : PatternShape → Compile Code.Shape
  | .expr e => return .expr (← expr function e)
  | .wildcard => return .any
  | .default => return .any
  | .ofType ty => return .ofType ty
  | .list ps => return .list (← patterns function ps)
  | .headTail head tail =>
    return .headTail (← patterns function head) (c.analysis.captureSlot? tail)
  | .initLast init last =>
    return .initLast (c.analysis.captureSlot? init) (← patterns function last)
  | .middle head mid last => do
    let head ← patterns function head
    return .middle head (c.analysis.captureSlot? mid) (← patterns function last)
  | .dict es => return .dict (← keyPatterns function es)
  | .openDict es rest => return .openDict (← keyPatterns function es) (c.analysis.captureSlot? rest)

def patterns (function : Option NodeId) : List Pattern → Compile (List Code.Pattern)
  | [] => return []
  | p :: rest => do
    let p ← pattern function p
    return p :: (← patterns function rest)

def keyPatterns (function : Option NodeId) : List KeyPattern → Compile (List Code.KeyPattern)
  | [] => return []
  | ⟨key, p⟩ :: rest => do
    let p ← pattern function p
    return ⟨key, p⟩ :: (← keyPatterns function rest)

end

/-- The template of a group of definitions. -/
def groupTemplate (scope : ScopeId) (vars : List VarDef) : Compile Template :=
  c.template scope (c.inits none vars)

end Compiler

end CellScript
