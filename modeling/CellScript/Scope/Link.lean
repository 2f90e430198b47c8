import CellScript.Scope.Lookup

/-!
# Linking

Binds every symbol that stands for another one. A symbol met on the way is linked first. The chain
of symbols that are being linked is kept, so that coming back to one of them is noticed; the chain
never holds a symbol twice, which bounds the depth of linking by the number of symbols.

Linking keeps what it has bound even if it fails later on.
-/

namespace CellScript

/-- Computations that bind symbols and may fail, keeping what was bound before. -/
abbrev Linking (α : Type) := ExceptT Fault (StateM Arena) α

namespace Arena

/-- Reads something off the arena without changing it. -/
def asking {α : Type} (f : Arena → Except Fault α) : Linking α := fun a => (f a, a)

/-- The module at a path. -/
def module (a : Arena) (units : Entries SymbolId) (path : String) (span : Span) :
    Except Fault SymbolId :=
  match Entries.get? units path with
  | some id =>
    if (a.symbol id).target == .module then .ok id else .error (.missingModule path span)
  | none => .error (.missingModule path span)

/-- An export of a module. -/
def exported (a : Arena) (module : SymbolId) (name unit : String) (span : Span) :
    Except Fault SymbolId :=
  match (a.symbol module).exports.bind fun scope => (a.scope scope).get? name with
  | some id => .ok id
  | none => .error (.missingExport name unit span)

/-- Follows a path, replacing each symbol on the way by what `deref` gives for it. -/
def followLinking (deref : SymbolId → Linking SymbolId) (r : Reference) (span : Span) :
    SymbolId → List String → Linking SymbolId
  | id, [] => pure id
  | id, name :: rest => do
    let container ← deref id
    let next ← asking fun a => a.publicMember container name r span
    followLinking deref r span next rest

/-- What an indirect symbol stands for. -/
def denotation (deref : SymbolId → Linking SymbolId) (units : Entries SymbolId) (span : Span) :
    Binding → Linking SymbolId
  | .direct => asking fun _ => .error (.notLinked "" span)
  | .moduleImport unit => asking fun a => a.module units unit span
  | .nameImport unit name => do
    let module ← asking fun a => a.module units unit span
    let entry ← asking fun a => a.exported module name unit span
    deref entry
  | .alias r scope | .export r scope => do
    let start ← asking fun a => a.first scope r span
    let last ← followLinking deref r span start (r.path.drop 1)
    deref last

/-- Links a symbol and everything it depends on. Direct and linked symbols are left alone. -/
def linkChain (units : Entries SymbolId) : Nat → List SymbolId → SymbolId → Linking PUnit
  | 0, _, id => asking fun a => .error (.notLinked (a.symbol id).name (a.symbol id).span)
  | fuel + 1, chain, id => do
    let s := (← get).symbol id
    if !s.binding.isIndirect || s.resolved.isSome then
      return ⟨⟩
    else if chain.contains id then
      asking fun a =>
        .error (.cyclicReference ((chain ++ [id]).map fun s => (a.symbol s).name) s.span)
    else
      let deref (other : SymbolId) : Linking SymbolId := do
        linkChain units fuel (chain ++ [id]) other
        asking fun a => a.linked other s.span
      let target ← denotation deref units s.span s.binding
      modify fun a => a.setResolved id target

/-- Links a symbol. The arena keeps what was bound on the way, also when linking fails. -/
def link (a : Arena) (units : Entries SymbolId) (id : SymbolId) : Except Fault PUnit × Arena :=
  linkChain units (a.symbols.size + 2) [] id a

/-- The indirect symbols of a scope, in order. -/
def indirections (a : Arena) (scope : Option ScopeId) : List SymbolId :=
  match scope with
  | none => []
  | some scope => (a.scope scope).slots.filter fun id => (a.symbol id).binding.isIndirect

/-- Links symbols one after the other. With `recovery` the faults are collected, without it the
first one ends linking. -/
def linkAll (recovery : Bool) (units : Entries SymbolId) : List SymbolId → Arena →
    Except Fault (List Fault × Arena)
  | [], a => .ok ([], a)
  | id :: rest, a =>
    match a.link units id with
    | (.ok _, a) => linkAll recovery units rest a
    | (.error fault, a) =>
      if recovery then (linkAll recovery units rest a).map fun (faults, a) => (fault :: faults, a)
      else .error fault

end Arena

end CellScript
