import CellScript.Syntax.Basic

/-!
# Expressions and units

The tree of an expression, with its patterns. Every node that can own a scope or be asked about
carries a `Node`.

A program is a set of units in load order. A module declares imports, aliases, libraries of
definitions and exports; an interactive unit holds sections of definitions, each standing inside a
module that is loaded already.
-/

namespace CellScript

/-- A name bound by a pattern or a catch clause. -/
structure Capture where
  node : Node
  name : String
  deriving DecidableEq, Repr, Inhabited

mutual

/-- An expression. -/
inductive Expr where
  | constant (node : Node) (literal : Literal)
  | reference (node : Node) (target : Reference)
  | list (node : Node) (items : List ListItem)
  | dict (node : Node) (entries : List DictEntry)
  | function (node : Node) (params : List Param) (returns : Ty) (body : Expr)
  | call (node : Node) (callee : Expr) (args : List Argument)
  | curry (node : Node) (callee : Expr) (args : List NamedExpr)
  | letIn (node : Node) (bindings : List VarDef) (body : Expr)
  | ifElse (node : Node) (condition thenBranch elseBranch : Expr)
  | matchOn (node : Node) (subject : Expr) (lines : List MatchLine)
  | forEach (node : Node) (heads : List ForHead) (body : Expr)
  | binary (node : Node) (op : BinaryOp) (left right : Expr)
  | unary (node : Node) (op : UnaryOp) (operand : Expr)
  | cast (node : Node) (operand : Expr) (target : Ty)
  | isOf (node : Node) (operand : Expr) (ty : Ty)
  | access (node : Node) (container : Expr) (keys : List Expr)
  | tryCatch (node : Node) (body : Expr) (clause : Node) (error trace : Option Capture)
      (handler : Expr)
  | throw (node : Node) (value : Expr)

/-- An item of a list literal; a splat spreads a list. -/
inductive ListItem where
  | value (e : Expr)
  | splat (e : Expr)

/-- An entry of a dictionary literal; a splat spreads a dictionary. -/
inductive DictEntry where
  | pair (key value : Expr)
  | splat (e : Expr)

/-- A parameter with its default, which is evaluated when the function is created. -/
structure Param where
  node : Node
  name : String
  ty : Ty
  default : Option Expr

/-- An argument of a call; a splat spreads a list by position and a dictionary by name. -/
inductive Argument where
  | positional (e : Expr)
  | named (name : String) (e : Expr)
  | splat (e : Expr)

/-- A value for a named parameter. -/
structure NamedExpr where
  name : String
  value : Expr

/-- A named definition. -/
structure VarDef where
  node : Node
  name : String
  ty : Ty
  value : Expr

/-- A line of a match: pattern, optional guard and result. -/
structure MatchLine where
  node : Node
  pattern : Pattern
  guard : Option Expr
  result : Expr

/-- A head of a comprehension. -/
inductive ForHead where
  | generator (node : Node) (name : String) (ty : Ty) (source : Expr)
  | definition (node : Node) (name : String) (ty : Ty) (value : Expr)
  | condition (e : Expr)

/-- A pattern, with the name that binds the whole subject. -/
structure Pattern where
  node : Node
  shape : PatternShape
  whole : Option Capture

/-- What a pattern asks of the subject. -/
inductive PatternShape where
  /-- Equal to the value of the expression, or accepted by it if that is a function. -/
  | expr (e : Expr)
  | wildcard
  | default
  | ofType (ty : Ty)
  | list (items : List Pattern)
  | headTail (head : List Pattern) (tail : Option Capture)
  | initLast (init : Option Capture) (last : List Pattern)
  | middle (head : List Pattern) (mid : Option Capture) (last : List Pattern)
  | dict (entries : List KeyPattern)
  | openDict (entries : List KeyPattern) (rest : Option Capture)

/-- A pattern for the value under a key. -/
structure KeyPattern where
  key : String
  pattern : Pattern

end

instance : Inhabited Expr := ⟨.constant default .nil⟩

namespace Expr

/-- The node of an expression. -/
def node : Expr → Node
  | constant node _ | reference node _ | list node _ | dict node _ | function node _ _ _
  | call node _ _ | curry node _ _ | letIn node _ _ | ifElse node _ _ _ | matchOn node _ _
  | forEach node _ _ | binary node _ _ _ | unary node _ _ | cast node _ _ | isOf node _ _
  | access node _ _ | tryCatch node _ _ _ _ _ | throw node _ => node

/-- The same expression with another region. -/
def withSpan (e : Expr) (span : Span) : Expr :=
  match e with
  | constant n l => constant { n with span } l
  | reference n r => reference { n with span } r
  | list n items => list { n with span } items
  | dict n entries => dict { n with span } entries
  | function n params returns body => function { n with span } params returns body
  | call n callee args => call { n with span } callee args
  | curry n callee args => curry { n with span } callee args
  | letIn n bindings body => letIn { n with span } bindings body
  | ifElse n c t e => ifElse { n with span } c t e
  | matchOn n subject lines => matchOn { n with span } subject lines
  | forEach n heads body => forEach { n with span } heads body
  | binary n op l r => binary { n with span } op l r
  | unary n op e => unary { n with span } op e
  | cast n e ty => cast { n with span } e ty
  | isOf n e ty => isOf { n with span } e ty
  | access n c keys => access { n with span } c keys
  | tryCatch n body clause error trace handler =>
    tryCatch { n with span } body clause error trace handler
  | throw n e => throw { n with span } e

end Expr

namespace ListItem

def expr : ListItem → Expr
  | value e | splat e => e

end ListItem

namespace Argument

def expr : Argument → Expr
  | positional e | named _ e | splat e => e

end Argument

/-! ## What a pattern binds and evaluates -/

mutual

/-- The names a pattern binds, in binding order: parts first, the whole subject last. -/
def Pattern.captures : Pattern → List Capture
  | ⟨_, shape, whole⟩ => shape.captures ++ whole.toList

def PatternShape.captures : PatternShape → List Capture
  | .expr _ | .wildcard | .default | .ofType _ => []
  | .list items => capturesOfPatterns items
  | .headTail head tail => capturesOfPatterns head ++ tail.toList
  | .initLast init last => init.toList ++ capturesOfPatterns last
  | .middle head mid last => capturesOfPatterns head ++ mid.toList ++ capturesOfPatterns last
  | .dict entries => capturesOfEntries entries
  | .openDict entries rest => capturesOfEntries entries ++ rest.toList

def capturesOfPatterns : List Pattern → List Capture
  | [] => []
  | p :: rest => p.captures ++ capturesOfPatterns rest

def capturesOfEntries : List KeyPattern → List Capture
  | [] => []
  | ⟨_, p⟩ :: rest => p.captures ++ capturesOfEntries rest

end

mutual

/-- The expressions inside a pattern, which are evaluated where the match itself stands. -/
def Pattern.expressions : Pattern → List Expr
  | ⟨_, shape, _⟩ => shape.expressions

def PatternShape.expressions : PatternShape → List Expr
  | .expr e => [e]
  | .wildcard | .default | .ofType _ => []
  | .list items => expressionsOfPatterns items
  | .headTail head _ => expressionsOfPatterns head
  | .initLast _ last => expressionsOfPatterns last
  | .middle head _ last => expressionsOfPatterns head ++ expressionsOfPatterns last
  | .dict entries => expressionsOfEntries entries
  | .openDict entries _ => expressionsOfEntries entries

def expressionsOfPatterns : List Pattern → List Expr
  | [] => []
  | p :: rest => p.expressions ++ expressionsOfPatterns rest

def expressionsOfEntries : List KeyPattern → List Expr
  | [] => []
  | ⟨_, p⟩ :: rest => p.expressions ++ expressionsOfEntries rest

end

/-! ## Units -/

/-- What one member of an import brings in. -/
inductive ImportKind where
  /-- One exported name. -/
  | name (exported : String)
  /-- The module itself. -/
  | module
  deriving DecidableEq, Repr, Inhabited

/-- One member of an import, known here as `name`. -/
structure ImportMember where
  node : Node
  kind : ImportKind
  name : String
  deriving DecidableEq, Repr, Inhabited

/-- Members imported from the module at a path. -/
structure Import where
  node : Node
  source : String
  members : List ImportMember
  deriving DecidableEq, Repr, Inhabited

/-- Another name for what a reference denotes; used for aliases and for exports. -/
structure Renaming where
  node : Node
  target : Reference
  name : String
  deriving DecidableEq, Repr, Inhabited

/-- A library of definitions. -/
structure Library where
  node : Node
  name : String
  exported : Bool
  vars : List VarDef

/-- A module. -/
structure Module where
  /-- The name under which every unit can reach this module. -/
  globalName : Option String
  imports : List Import
  aliases : List Renaming
  libraries : List Library
  exports : List Renaming

/-- Definitions that see the members of the module at `module`. -/
structure Section where
  node : Node
  module : String
  vars : List VarDef

inductive UnitKind where
  | module (m : Module)
  | interactive (sections : List Section)

/-- A unit at a path. -/
structure SourceUnit where
  node : Node
  path : String
  file : Nat
  kind : UnitKind

namespace SourceUnit

/-- The groups of definitions of a unit, each with the node that owns it: libraries or sections. -/
def groups (u : SourceUnit) : List (Node × List VarDef) :=
  match u.kind with
  | .module m => m.libraries.map fun l => (l.node, l.vars)
  | .interactive sections => sections.map fun s => (s.node, s.vars)

end SourceUnit

/-- Units in load order, one for each path. -/
abbrev UnitSet := List SourceUnit

namespace UnitSet

/-- The unit at a path. -/
def get? (units : UnitSet) (path : String) : Option SourceUnit :=
  List.find? (fun u => u.path == path) units

/-- Adds a unit; one with the same path is replaced where it stands. -/
def insert (units : UnitSet) (u : SourceUnit) : UnitSet :=
  match units with
  | [] => [u]
  | v :: rest => if v.path == u.path then u :: rest else v :: UnitSet.insert rest u

end UnitSet

end CellScript
