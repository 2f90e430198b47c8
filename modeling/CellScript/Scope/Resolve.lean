import CellScript.Scope.Build
import CellScript.Scope.Lookup

/-!
# Resolving references

Once everything is linked, each reference of the program is bound to the symbol that holds its
value. In an ordered scope only the symbols declared before the reference count. A reference that
cannot be resolved stays in the table as its fault, so that evaluation can fail where it is used.
-/

namespace CellScript

namespace Arena

/-- How a reference in `scope` reaches `target`, which the first name of its path denotes as
`first`. -/
def classify (a : Arena) (scope : ScopeId) (r : Reference) (first target : SymbolId) :
    ReferenceClass :=
  if r.isSimple && first == target then
    match a.depth? scope (a.symbol target).scope with
    | some 0 => .ownScope
    | some 1 => .parentScope
    | _ => .general
  else .general

/-- Binds a reference to its target. -/
def resolve (a : Arena) (p : PendingReference) : Except Fault ResolvedReference := do
  let span := p.node.span
  let first ← a.first p.scope p.reference span
  let last ← a.follow p.reference span first (p.reference.path.drop 1)
  if (a.scope (a.symbol first).scope).ordered && p.visible ≤ first then
    throw (.beforeDefinition p.reference span)
  let target ← a.linked last span
  let kind := (a.symbol target).target
  if kind != .var then
    throw (.notAValue kind span)
  return ⟨p.scope, last, target, a.classify p.scope p.reference first target⟩

end Arena

namespace Analysis

/-- Enters the outcome for each reference. With `recovery` faults are collected, without it the
first one ends the pass. -/
def resolveAll (recovery : Bool) : List PendingReference → Analysis → Except Fault Analysis
  | [], a => .ok a
  | p :: rest, a =>
    let outcome := a.arena.resolve p
    let entered := { a with references := a.references.insert p.node.id outcome }
    match outcome with
    | .ok _ => resolveAll recovery rest entered
    | .error fault =>
      if recovery then resolveAll recovery rest { entered with faults := entered.faults ++ [fault] }
      else .error fault

end Analysis

end CellScript
