import CellScript.Diagnostic
import CellScript.Scope.Analysis
import CellScript.Scope.Closure
import CellScript.Scope.Link
import CellScript.Scope.Resolve

/-!
# Analysis

Builds scopes, links, resolves references and finds captures. A program is linked from its global
names, then from the imports, aliases and exports of each module in load order, and finally every
section is placed inside its module. Without recovery the first fault ends analysis; with recovery
all faults are collected and what could be analysed is kept.
-/

namespace CellScript

namespace Analysis

/-- All symbols that stand for others, in the order in which they are linked. -/
def linkOrder (a : Analysis) : List SymbolId :=
  a.arena.indirections (some globalScope) ++
    (a.arena.scope unitsScope).slots.flatMap fun unit =>
      let s := a.arena.symbol unit
      if s.target == .module then a.arena.indirections s.members ++ a.arena.indirections s.exports
      else []

/-- The sections of all interactive units, in load order. -/
def sectionSymbols (a : Analysis) : List SymbolId :=
  (a.arena.scope unitsScope).slots.flatMap fun unit =>
    let s := a.arena.symbol unit
    if s.target == .interactive then
      match s.members with
      | some scope => (a.arena.scope scope).slots
      | none => []
    else []

/-- Places a section inside the module it names. -/
def placeSection (a : Analysis) (id : SymbolId) : Except Fault Analysis :=
  let s := a.arena.symbol id
  match a.arena.module a.units s.name s.span, s.members with
  | .ok module, some members =>
    let enclosing := (a.arena.symbol module).members
    .ok { a with
      arena := a.arena.setEnclosing members enclosing
      sections := a.sections.insert id module }
  | _, _ => .error (.missingModule s.name s.span)

/-- Places sections one after the other. With `recovery` the faults are collected, without it the
first one ends the pass. -/
def placeSections (recovery : Bool) : List SymbolId → Analysis →
    Except Fault (List Fault × Analysis)
  | [], a => .ok ([], a)
  | id :: rest, a =>
    match a.placeSection id with
    | .ok a => placeSections recovery rest a
    | .error fault =>
      if recovery then
        (placeSections recovery rest a).map fun (faults, a) => (fault :: faults, a)
      else .error fault

/-- Links a program. -/
def linkUnits (a : Analysis) (recovery : Bool) : Except Fault Analysis := do
  let (linkFaults, arena) ← Arena.linkAll recovery a.units a.linkOrder a.arena
  let a := { a with arena := arena }
  let (sectionFaults, a) ← placeSections recovery a.sectionSymbols a
  return { a with faults := a.faults ++ linkFaults ++ sectionFaults }

end Analysis

/-- Analyses a program. -/
def analyze (recovery : Bool) (units : UnitSet) : Except Fault Analysis := do
  let (built, pending) ← buildScopes recovery units
  let linked ← built.linkUnits recovery
  let resolved ← Analysis.resolveAll recovery pending linked
  return resolved.captureAll units

namespace Analysis

/-- The context under which faults are reported unless another one is given. -/
def reportContext : String := "analysis"

/-- One diagnostic for each fault. -/
def diagnostics (a : Analysis) (context : String) : List Diagnostic :=
  a.faults.map fun fault => (Diagnostic.ofFault fault).withContext context

end Analysis

/-- Analysis with recovery, as a report with one diagnostic for each fault. -/
def analyzeReport (units : UnitSet) (context : String) : Report Analysis :=
  match analyze true units with
  | .ok a => ⟨some a, a.diagnostics context⟩
  | .error fault => .failure context fault.text

end CellScript
