import CellScript.ErrorCode
import CellScript.Syntax.Basic
import CellScript.Value.Entries

/-!
# Scopes and symbols

A scope is a table of names; a symbol is something that has a name. Every symbol is declared in one
scope, where it holds a slot, and some symbols own a scope of members. Symbols that stand for other
symbols (imports, aliases, exports and global names) are bound to their target by linking.
-/

namespace CellScript

/-- Index of a scope. -/
abbrev ScopeId := Nat

/-- Index of a symbol. -/
abbrev SymbolId := Nat

/-- What a scope belongs to. -/
inductive ScopeKind where
  /-- The names known in the whole program. -/
  | global
  /-- One symbol for each unit, named by its path. -/
  | units
  /-- The members of a module, library, interactive unit or section. -/
  | members (owner : SymbolId)
  /-- What a module shows to other units. -/
  | exports (owner : SymbolId)
  /-- Parameters of a function. -/
  | function (node : NodeId)
  /-- Names bound by `let`, `for`, a match line or a catch clause. -/
  | block (node : NodeId)
  deriving DecidableEq, Repr, Inhabited

namespace ScopeKind

/-- Memory for the scope is laid out anew for each evaluation. -/
def isDynamic : ScopeKind → Bool
  | function _ | block _ => true
  | _ => false

end ScopeKind

/-- A table of names. -/
structure Scope where
  kind : ScopeKind
  enclosing : Option ScopeId
  /-- A name is visible only after its declaration. -/
  ordered : Bool
  names : Entries SymbolId
  /-- Symbols declared here, in order. -/
  slots : List SymbolId
  deriving Repr, Inhabited

namespace Scope

/-- The symbol of a name. -/
def get? (s : Scope) (name : String) : Option SymbolId := Entries.get? s.names name

end Scope

/-- What kind of thing a symbol denotes. -/
inductive Target where
  | module
  | library
  | var
  | interactive
  | interactiveSection
  /-- Not known before linking. -/
  | unknown
  deriving DecidableEq, Repr, Inhabited

namespace Target

def name : Target → String
  | module => "MODULE"
  | library => "LIBRARY"
  | var => "VAR"
  | interactive => "INTERACTIVE"
  | interactiveSection => "INTERACTIVE_SECTION"
  | unknown => "UNKNOWN"

/-- Symbols of this kind own a scope. -/
def isScoped : Target → Bool
  | module | library | interactive | interactiveSection => true
  | var | unknown => false

end Target

/-- How a symbol comes to denote something. -/
inductive Binding where
  /-- It is the thing itself. -/
  | direct
  /-- An export of the module at a path. -/
  | nameImport (unit exported : String)
  /-- The module at a path. -/
  | moduleImport (unit : String)
  /-- What a reference denotes in a scope, for use inside the module. -/
  | alias (reference : Reference) (scope : ScopeId)
  /-- What a reference denotes in a scope, for use by other units. -/
  | export (reference : Reference) (scope : ScopeId)
  deriving DecidableEq, Repr, Inhabited

namespace Binding

/-- The symbol stands for another one. -/
def isIndirect : Binding → Bool
  | direct => false
  | _ => true

end Binding

/-- A symbol as it is declared. -/
structure Declaration where
  name : String
  binding : Binding
  target : Target
  node : Node
  ty : Ty
  exported : Bool
  deriving DecidableEq, Repr, Inhabited

namespace Declaration

/-- A definition, parameter or other name for a value. -/
def var (name : String) (ty : Ty) (node : Node) : Declaration :=
  ⟨name, .direct, .var, node, ty, false⟩

/-- A unit, library or section. -/
def owner (name : String) (target : Target) (node : Node) : Declaration :=
  ⟨name, .direct, target, node, .any, false⟩

/-- A symbol that stands for another one. -/
def indirect (name : String) (binding : Binding) (node : Node) : Declaration :=
  ⟨name, binding, .unknown, node, .any, false⟩

end Declaration

/-- A declared symbol. -/
structure Symbol extends Declaration where
  /-- Its number in the arena. -/
  id : SymbolId
  /-- The scope it is declared in. -/
  scope : ScopeId
  /-- Its place among the symbols of that scope. -/
  slot : Nat
  members : Option ScopeId
  exports : Option ScopeId
  /-- The symbol it stands for, once linked. -/
  resolved : Option SymbolId
  deriving DecidableEq, Repr, Inhabited

namespace Symbol

def span (s : Symbol) : Span := s.node.span

end Symbol

/-! ## What can be wrong with names -/

namespace Fault

private def faultAt (code : ErrorCode) (message : String) (span : Span) : Fault :=
  ⟨code, message, some span⟩

/-- The name was taken before, at `first`. -/
def alreadyDefined (name : String) (first span : Span) : Fault :=
  faultAt .alreadyDefined (name ++ " already defined at " ++ first.text) span

def alreadyExported (name : String) (span : Span) : Fault :=
  faultAt .alreadyDefined (name ++ " already exported") span

/-- Linking came back to a symbol that is still being linked. -/
def cyclicReference (chain : List String) (span : Span) : Fault :=
  faultAt .cyclicReference ("Cyclic reference: " ++ " -> ".intercalate chain) span

def missingModule (path : String) (span : Span) : Fault :=
  faultAt .unresolvedReference ("Cannot find module " ++ path) span

def missingExport (name unit : String) (span : Span) : Fault :=
  faultAt .cannotFindExport ("Cannot find export " ++ name ++ " in " ++ unit) span

def unresolved (reference : Reference) (span : Span) : Fault :=
  faultAt .unresolvedReference ("Cannot resolve reference " ++ reference.text) span

/-- A path goes on behind something that has no members. -/
def noMembers (reference : Reference) (name : String) (span : Span) : Fault :=
  faultAt .unresolvedReference
    ("Cannot resolve reference " ++ reference.text ++ ": " ++ name ++ " has no members") span

def notLinked (name : String) (span : Span) : Fault :=
  faultAt .unresolvedReference (name ++ " could not be linked") span

def beforeDefinition (reference : Reference) (span : Span) : Fault :=
  faultAt .unresolvedReference
    ("Cannot reference " ++ reference.text ++ " before its definition") span

def notAValue (target : Target) (span : Span) : Fault :=
  faultAt .invalidReferenceTarget ("Cannot reference " ++ target.name ++ ". Not a value.") span

end Fault

end CellScript
