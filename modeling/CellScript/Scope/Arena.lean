import CellScript.Scope.Basic

/-!
# The arena

All scopes and symbols of a program, numbered in the order of their creation. Nothing is ever
removed, so the numbers stay valid. Walks outwards (along enclosing scopes) and upwards (along
owners) are bounded by the number of scopes and symbols.
-/

namespace CellScript

/-- All scopes and symbols of a program. -/
structure Arena where
  scopes : Array Scope
  symbols : Array Symbol
  deriving Repr, Inhabited

namespace Arena

def empty : Arena := ⟨#[], #[]⟩

/-- The scope with a number; numbers out of range denote a scope without names. -/
def scope (a : Arena) (id : ScopeId) : Scope := a.scopes.getD id default

/-- The symbol with a number. -/
def symbol (a : Arena) (id : SymbolId) : Symbol := a.symbols.getD id default

/-! ## Growing -/

/-- Adds a scope without names. -/
def newScope (a : Arena) (kind : ScopeKind) (enclosing : Option ScopeId) (ordered : Bool) :
    ScopeId × Arena :=
  (a.scopes.size, { a with scopes := a.scopes.push ⟨kind, enclosing, ordered, [], []⟩ })

def modifyScope (a : Arena) (id : ScopeId) (f : Scope → Scope) : Arena :=
  { a with scopes := a.scopes.modify id f }

def modifySymbol (a : Arena) (id : SymbolId) (f : Symbol → Symbol) : Arena :=
  { a with symbols := a.symbols.modify id f }

/-- The symbol that a declaration becomes in the next slot of a scope. -/
def declared (a : Arena) (scope : ScopeId) (d : Declaration) : Symbol :=
  { d with
    id := a.symbols.size
    scope := scope
    slot := (a.scope scope).slots.length
    members := none
    exports := none
    resolved := none }

/-- The arena after a declaration in a scope where its name is free. -/
def withDeclared (a : Arena) (scope : ScopeId) (d : Declaration) : Arena :=
  let id := a.symbols.size
  let grown : Arena := { a with symbols := a.symbols.push (a.declared scope d) }
  grown.modifyScope scope fun s =>
    { s with names := s.names.insert d.name id, slots := s.slots ++ [id] }

/-- Declares a symbol in the next slot of a scope. A name can be declared once. -/
def declare (a : Arena) (scope : ScopeId) (d : Declaration) : Except Fault (SymbolId × Arena) :=
  match (a.scope scope).get? d.name with
  | some first => .error (.alreadyDefined d.name (a.symbol first).span d.node.span)
  | none => .ok (a.symbols.size, a.withDeclared scope d)

/-- Makes a declared symbol visible in a second scope, without a slot there. -/
def publish (a : Arena) (scope : ScopeId) (name : String) (symbol : SymbolId) :
    Except Fault Arena :=
  match (a.scope scope).get? name with
  | some _ => .error (.alreadyExported name (a.symbol symbol).span)
  | none => .ok (a.modifyScope scope fun s => { s with names := s.names.insert name symbol })

def setMembers (a : Arena) (symbol : SymbolId) (scope : ScopeId) : Arena :=
  a.modifySymbol symbol fun s => { s with members := some scope }

def setExports (a : Arena) (symbol : SymbolId) (scope : ScopeId) : Arena :=
  a.modifySymbol symbol fun s => { s with exports := some scope }

def setEnclosing (a : Arena) (scope : ScopeId) (enclosing : Option ScopeId) : Arena :=
  a.modifyScope scope fun s => { s with enclosing := enclosing }

/-- Binds a symbol to the one it stands for, whose kind it takes on. -/
def setResolved (a : Arena) (symbol target : SymbolId) : Arena :=
  let kind := (a.symbol target).target
  a.modifySymbol symbol fun s => { s with resolved := some target, target := kind }

/-! ## Asking -/

/-- The symbol that holds the value: the symbol itself, or the one it is linked to. -/
def targetOf? (a : Arena) (id : SymbolId) : Option SymbolId :=
  let s := a.symbol id
  if s.binding.isIndirect then s.resolved else some id

/-- The scope in which the next name of a path behind `id` is looked up. -/
def publicScope? (a : Arena) (id : SymbolId) : Option ScopeId :=
  let s := a.symbol id
  match s.target with
  | .module => s.exports
  | .library | .interactive | .interactiveSection => s.members
  | .var | .unknown => none

/-- The symbol that owns a scope. -/
def owner? (a : Arena) (scope : ScopeId) : Option SymbolId :=
  match (a.scope scope).kind with
  | .members owner | .exports owner => some owner
  | _ => none

/-- A scope and the scopes around it, innermost first, at most `fuel` of them. -/
def outwards (a : Arena) : Nat → ScopeId → List ScopeId
  | 0, _ => []
  | fuel + 1, scope =>
    scope :: match (a.scope scope).enclosing with
      | none => []
      | some enclosing => a.outwards fuel enclosing

/-- A scope and all scopes around it, innermost first. -/
def chain (a : Arena) (scope : ScopeId) : List ScopeId := a.outwards (a.scopes.size + 1) scope

/-- Steps outwards from one scope to another. -/
def depth? (a : Arena) (inner outer : ScopeId) : Option Nat := (a.chain inner).idxOf? outer

/-- The scope is the other one or lies inside it. -/
def isWithin (a : Arena) (inner outer : ScopeId) : Bool := (a.depth? inner outer).isSome

/-- Slots that lead from the units down to a symbol, over at most `fuel` owners. -/
def slotPath? (a : Arena) : Nat → SymbolId → Option (List Nat)
  | 0, _ => none
  | fuel + 1, id =>
    let s := a.symbol id
    match (a.scope s.scope).kind with
    | .units => some [s.slot]
    | .members owner => (a.slotPath? fuel owner).map (· ++ [s.slot])
    | _ => none

/-- Slots that lead from the units down to a symbol; none if its memory is laid out for each
evaluation. -/
def absolutePath? (a : Arena) (id : SymbolId) : Option (List Nat) :=
  a.slotPath? (a.symbols.size + 1) id

end Arena

end CellScript
