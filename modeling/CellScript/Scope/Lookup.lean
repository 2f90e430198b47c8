import CellScript.Scope.Arena

/-!
# Finding what a path denotes

The first name of a path is searched from the place that the anchor says; every further name is
looked up among the public names of what was found so far. How a symbol met on the way is replaced
by what it stands for is left open, because linking binds symbols while it walks.
-/

namespace CellScript.Arena

/-- The scope that encloses `scope` and belongs to an owner of this kind. -/
def memberScope? (a : Arena) (scope : ScopeId) (wanted : Target) : Option ScopeId :=
  (a.chain scope).find? fun id =>
    match (a.scope id).kind with
    | .members owner => (a.symbol owner).target == wanted
    | _ => false

/-- Names beyond this scope are not found by looking outwards. -/
def isOutermost (a : Arena) (scope : ScopeId) : Bool :=
  match (a.scope scope).kind with
  | .units | .global => true
  | _ => false

/-- The symbol of the first name of a path. -/
def firstSymbol? (a : Arena) (scope : ScopeId) (anchor : Anchor) (name : String) :
    Option SymbolId :=
  match anchor with
  | .global =>
    ((a.chain scope).find? fun id => (a.scope id).kind == .global).bind
      fun id => (a.scope id).get? name
  | .here =>
    ((a.chain scope).takeWhile fun id => !a.isOutermost id).findSome?
      fun id => (a.scope id).get? name
  | .module => (a.memberScope? scope .module).bind fun id => (a.scope id).get? name
  | .library => (a.memberScope? scope .library).bind fun id => (a.scope id).get? name

/-- The first symbol of a reference. -/
def first (a : Arena) (scope : ScopeId) (r : Reference) (span : Span) : Except Fault SymbolId :=
  match r.path.head?.bind (a.firstSymbol? scope r.anchor) with
  | some id => .ok id
  | none => .error (.unresolved r span)

/-- A name among the public names of a symbol. -/
def publicMember (a : Arena) (container : SymbolId) (name : String) (r : Reference) (span : Span) :
    Except Fault SymbolId :=
  match a.publicScope? container with
  | none => .error (.noMembers r (a.symbol container).name span)
  | some scope =>
    match (a.scope scope).get? name with
    | some id => .ok id
    | none => .error (.unresolved r span)

/-- What a symbol stands for, if it is linked. -/
def linked (a : Arena) (id : SymbolId) (span : Span) : Except Fault SymbolId :=
  match a.targetOf? id with
  | some target => .ok target
  | none => .error (.notLinked (a.symbol id).name span)

/-- Follows the names of a path from a symbol, using linked symbols only. -/
def follow (a : Arena) (r : Reference) (span : Span) : SymbolId → List String →
    Except Fault SymbolId
  | id, [] => .ok id
  | id, name :: rest =>
    match a.linked id span with
    | .error e => .error e
    | .ok container =>
      match a.publicMember container name r span with
      | .error e => .error e
      | .ok next => a.follow r span next rest

end CellScript.Arena
