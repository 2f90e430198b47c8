import CellScript.Listing.Basic
import CellScript.Scope.Inspect

/-!
# Listings of scopes, symbols and references
-/

namespace CellScript

open Json (orNull nat nats)

/-- What kind of expression or clause a node is, in a word. -/
abbrev NodeTags := NodeId → String

def ScopeKind.listing (tags : NodeTags) : ScopeKind → Json
  | .global => .string "global"
  | .units => .string "units"
  | .members owner => .array [.string "symbol", nat owner]
  | .exports owner => .array [.string "exports", nat owner]
  | .function _ => .string "function"
  | .block node => .array [.string "block", .string (tags node)]

def Scope.listing (tags : NodeTags) (s : Scope) : Json :=
  .object [("kind", s.kind.listing tags), ("enclosing", orNull nat s.enclosing),
    ("ordered", .bool s.ordered), ("dynamic", .bool s.kind.isDynamic), ("slots", nats s.slots),
    ("names", .array (s.names.map fun entry => .array [.string entry.1, nat entry.2]))]

/-- How a symbol comes to denote something, in a word. -/
def Binding.name : Binding → String
  | .direct => "Local"
  | .nameImport .. => "NameImport"
  | .moduleImport .. => "ModuleImport"
  | .alias .. => "Alias"
  | .export .. => "Export"

def Arena.symbolListing (a : Arena) (id : SymbolId) : Json :=
  let s := a.symbol id
  .object [("name", .string s.name), ("kind", .string s.binding.name),
    ("target", .string s.target.name), ("scope", nat s.scope), ("slot", nat s.slot),
    ("members", orNull nat s.members), ("exports", orNull nat s.exports),
    ("type", .string s.ty.name), ("export", .bool s.exported),
    ("resolved", orNull nat s.resolved), ("span", s.span.listing),
    ("path", orNull nats (a.absolutePath? id))]

def ReferenceClass.name : ReferenceClass → String
  | .closure => "Closure"
  | .ownScope => "SimpleLocal"
  | .parentScope => "SimpleParent"
  | .general => "Generic"

namespace Analysis

/-- Shows what became of a reference; one that was never visited is missing. -/
def referenceListing (a : Analysis) (node : NodeId) (r : Reference) : Json :=
  let name := ("name", Json.string r.text)
  match a.references.get? node with
  | none => .object [name, ("missing", .bool true)]
  | some (.error fault) => .object [name, ("failed", fault.listing)]
  | some (.ok o) =>
    .object [name, ("scope", nat o.scope), ("symbol", nat o.symbol), ("target", nat o.target),
      ("class", .string o.kind.name)]

/-- Captured symbols by function scope, in the order of scopes. -/
def closureListing (a : Analysis) : Json :=
  let closures := a.closures.filterMap fun entry =>
    (a.createdScopes.get? entry.1).map fun scope => (scope, entry.2)
  .array ((closures.mergeSort fun x y => x.1 ≤ y.1).map fun entry =>
    .array [nat entry.1, nats entry.2])

/-- Shows the whole analysis; `references` are the references of the program in reading order. -/
def listing (a : Analysis) (tags : NodeTags) (references : List (Node × Reference)) :
    List (String × Json) :=
  [("scopes", .array (a.arena.scopes.toList.map (Scope.listing tags))),
    ("symbols", .array ((List.range a.arena.symbols.size).map a.arena.symbolListing)),
    ("references", .array (references.map fun r => a.referenceListing r.1.id r.2)),
    ("closures", a.closureListing),
    ("sections", .array ((a.sections.mergeSort fun x y => x.1 ≤ y.1).map fun entry =>
      nats [entry.1, entry.2])),
    ("errors", .array (a.faults.map Fault.listing)),
    ("has_errors", .bool a.hasErrors)]

/-- Shows what stands at a position. -/
def inspectionListing (a : Analysis) (tags : NodeTags) : Inspection → Json
  | .symbol id => .object [("symbol", nat id)]
  | .scope id => .object [("scope", nat id)]
  | .node id =>
    let span := (a.positions.find? fun p => p.1 == id).map (·.2)
    .object [("node", .string (tags id)), ("span", orNull Span.listing span)]

end Analysis

end CellScript
