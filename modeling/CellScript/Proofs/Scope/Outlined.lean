import CellScript.Proofs.Linking.Program
import CellScript.Proofs.Scope.Analyzed
import CellScript.Proofs.Scope.Owners

/-!
# The outline of a program

What is laid out once is known as soon as the first pass has ended: the units, their libraries and
sections, and the definitions in these. Faults do not matter for it. Linking, resolving references
and finding captures keep the outline, with and without recovery.

* `Analysis.Outlined` — the arena is ready, and whatever has members is a unit or a group of one
* `analyze_outlined` — every analysis is outlined
-/

namespace CellScript

/-- The arena is ready, and whatever has members is a unit or one of its groups, which has created
them. -/
structure Analysis.Outlined (a : Analysis) (units : UnitSet) : Prop extends a.Rooted where
  owners : ∀ s σ, (a.arena.symbol s).members = some σ → ∃ u ∈ units, ∃ unit home,
    a.unit? u.path = some unit ∧ (a.arena.symbol unit).members = some home ∧
    (unit = s ∨ ∃ g ∈ u.groups, a.createdScopes.get? g.1.id = some σ)
  unit : ∀ path s, a.unit? path = some s → s < a.arena.symbols.size ∧
    (a.arena.symbol s).scope = Analysis.unitsScope

/-- Resolving references changes nothing but the references and the faults. -/
theorem Analysis.resolveAll_kept {recovery : Bool} {a a' : Analysis}
    (pending : List PendingReference) (h : resolveAll recovery pending a = .ok a') :
    a' = { a with references := a'.references, faults := a'.faults } := by
  induction pending generalizing a with
  | nil =>
    cases h
    rfl
  | cons p rest ih =>
    rw [resolveAll] at h
    cases hr : a.arena.resolve p with
    | ok r =>
      simp only [hr] at h
      exact (ih h).trans rfl
    | error fault =>
      simp only [hr] at h
      split at h
      · exact (ih h).trans rfl
      · cases h

/-- **Every analysis outlines its program**, with and without recovery. -/
theorem analyze_outlined {recovery : Bool} {units : UnitSet} {a : Analysis}
    (numbered : units.Numbered) (h : analyze recovery units = .ok a) : a.Outlined units := by
  obtain ⟨built, pending, linked, resolved, hb, hl, hr, rfl⟩ := analyze_eq_ok h
  obtain ⟨-, bound, binds, moved, ⟨unitsSame, createdSame⟩, ready, -⟩ := linkUnits_built hb hl
  obtain ⟨paths, owners⟩ := buildScopes_owners numbered hb
  obtain ⟨b, steps, rfl, rfl⟩ := buildScopes_steps hb
  have formed := steps.formed (Building.formed_start recovery)
  have kept := Analysis.resolveAll_kept _ hr
  have annotated := resolved.captureAll_annotated units
  have arena : (resolved.captureAll units).arena = linked.arena := by rw [annotated.arena, kept]
  have unit :
      ∀ path, (resolved.captureAll units).unit? path = Entries.get? b.analysis.units path := by
    intro path
    rw [Analysis.unit?, annotated.units, kept, unitsSame]
  have created : (resolved.captureAll units).createdScopes = b.analysis.createdScopes := by
    rw [annotated.createdScopes, kept, createdSame]
  have members : ∀ s, (linked.arena.symbol s).members = (b.arena.symbol s).members := by
    intro s
    rw [moved.symbol, (binds.sameBut s).members]
  refine ⟨⟨by rw [arena]; exact ready, ?_⟩, fun s σ hs => ?_, fun path s hs => ?_⟩
  · have root : (Building.start recovery).HasScope Analysis.globalScope := by
      show 0 < 2
      decide
    rw [arena, moved.kind, binds.scope]
    exact (steps.sameScope root).kind
  · rw [arena, members] at hs
    obtain ⟨u, mem, owner, home, found, hm, place⟩ := owners s σ hs
    refine ⟨u, mem, owner, home, (unit u.path).trans found, ?_, ?_⟩
    · rw [arena, members]
      exact hm
    · rw [created]
      exact place
  · rw [unit] at hs
    obtain ⟨owner, home, -⟩ := formed.unit path s hs
    rw [arena, moved.symbols, binds.size, moved.symbol, (binds.sameBut s).scope]
    exact ⟨owner.1, home⟩

end CellScript
