import CellScript.Scope.Analysis
import CellScript.SourceMap

/-!
# What stands at a position

Finds the innermost visited node that covers a position in a file. Of nodes with the same extent the
one visited last counts.
-/

namespace CellScript

/-- What was found at a position. -/
inductive Inspection where
  /-- A definition, or what a reference denotes. -/
  | symbol (id : SymbolId)
  | scope (id : ScopeId)
  | node (id : NodeId)
  deriving DecidableEq, Repr, Inhabited

namespace Analysis

/-- Takes a node over the best one so far, unless its region does not lie inside that one's. -/
def better (best : Option (NodeId × Span)) (hit : NodeId × Span) : Option (NodeId × Span) :=
  match best with
  | some current => if hit.2.within current.2 then some hit else some current
  | none => some hit

/-- The innermost node that covers a position. -/
def innermost? (positions : List (NodeId × Span)) (file line column : Nat) :
    Option (NodeId × Span) :=
  (positions.filter fun p => p.2.file == file && p.2.contains line column).foldl better none

/-- What a node has to show: what it refers to or defines, the scope it creates, or itself. -/
def describe (a : Analysis) (node : NodeId) : Inspection :=
  match a.references.get? node, a.definitions.get? node, a.createdScopes.get? node with
  | some (.ok r), _, _ => .symbol r.symbol
  | _, some symbol, _ => .symbol symbol
  | _, _, some scope => .scope scope
  | _, _, none => .node node

/-- What stands at a position of the unit at a path. A position that no node covers belongs to the
unit itself. -/
def inspect (a : Analysis) (files : SourceMap) (path : String) (line column : Nat) :
    Option Inspection := do
  let file ← files.fileId? path
  match innermost? a.positions file line column with
  | some (node, _) => return a.describe node
  | none =>
    let unit ← a.unit? path
    return .scope (← (a.arena.symbol unit).members)

end Analysis

end CellScript
