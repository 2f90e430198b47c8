import CellScript.Proofs.Scope.Ready
import CellScript.Proofs.Scope.Recovery

/-!
# The arena of a linked program

A program is linked in two parts, with or without recovery: first its symbols are bound, then its
sections are moved into their modules. The first part binds all that resolves; the second one
changes nothing but what encloses the members of sections.

* `Arena.Moved` — the same arena, with sections moved
* `linkUnits_spec` — linking a program, in both modes
-/

namespace CellScript

namespace Arena

/-- The symbol is declared among the members of an interactive unit. -/
def IsSection (a : Arena) (s : SymbolId) : Prop :=
  ∃ o, (a.scope (a.symbol s).scope).kind = .members o ∧ (a.symbol o).target = .interactive

/-- The second arena is the first one with some sections moved to where they see other members. -/
structure Moved (a b : Arena) : Prop where
  symbols : b.symbols = a.symbols
  scope : ∀ σ, b.scope σ = { a.scope σ with enclosing := (b.scope σ).enclosing }
  enclosing : ∀ σ, (b.scope σ).enclosing = (a.scope σ).enclosing ∨
    (∃ s, (a.scope σ).kind = .members s ∧ a.IsSection s) ∧
      ∀ outer, (b.scope σ).enclosing = some outer → ∃ s, (a.scope outer).kind = .members s

namespace Moved

variable {a b c : Arena}

theorem refl (a : Arena) : a.Moved a := ⟨rfl, fun _ => rfl, fun _ => .inl rfl⟩

theorem symbol (h : a.Moved b) (s : SymbolId) : b.symbol s = a.symbol s := by
  rw [Arena.symbol, Arena.symbol, h.symbols]

theorem kind (h : a.Moved b) (σ : ScopeId) : (b.scope σ).kind = (a.scope σ).kind := by
  rw [h.scope]

theorem get? (h : a.Moved b) (σ : ScopeId) (name : String) :
    (b.scope σ).get? name = (a.scope σ).get? name := by
  rw [h.scope]
  rfl

theorem isSection (h : a.Moved b) (s : SymbolId) : b.IsSection s ↔ a.IsSection s := by
  simp only [IsSection, h.symbol, h.kind]

theorem trans (h : a.Moved b) (h' : b.Moved c) : a.Moved c := by
  refine ⟨h'.symbols.trans h.symbols, fun σ => ?_, fun σ => ?_⟩
  · rw [h'.scope, h.scope]
  · rcases h'.enclosing σ with same | ⟨⟨s, kind, isSection⟩, outer⟩
    · rw [same]
      exact h.enclosing σ
    · rw [h.kind] at kind
      rw [h.isSection] at isSection
      exact .inr ⟨⟨s, kind, isSection⟩, by simpa only [h.kind] using outer⟩

end Moved

/-- Moving a section. -/
theorem moved_setEnclosing {a : Arena} {σ : ScopeId} {s : SymbolId} {enclosing : Option ScopeId}
    (kind : (a.scope σ).kind = .members s) (isSection : a.IsSection s)
    (inside : ∀ outer, enclosing = some outer → ∃ s, (a.scope outer).kind = .members s) :
    a.Moved (a.setEnclosing σ enclosing) := by
  have scope : ∀ id, (a.setEnclosing σ enclosing).scope id = a.scope id ∨
      id = σ ∧ (a.setEnclosing σ enclosing).scope id =
        { a.scope id with enclosing := enclosing } := by
    intro id
    rw [Arena.setEnclosing, scope_modifyScope]
    split
    · next he => exact .inr ⟨he.1, rfl⟩
    · exact .inl rfl
  refine ⟨rfl, fun id => ?_, fun id => ?_⟩
  · rcases scope id with hs | ⟨-, hs⟩ <;> rw [hs]
  · rcases scope id with hs | ⟨rfl, hs⟩ <;> rw [hs]
    · exact .inl rfl
    · exact .inr ⟨⟨s, kind, isSection⟩, inside⟩

end Arena

namespace Analysis

variable {a a' : Analysis}

/-- The sections of a program are declared in its interactive units. -/
theorem isSection_of_mem (ready : a.arena.Ready) {s : SymbolId} (h : s ∈ a.sectionSymbols) :
    a.arena.IsSection s := by
  simp only [sectionSymbols, List.mem_flatMap] at h
  obtain ⟨o, -, h⟩ := h
  split at h
  · next interactive =>
    cases hm : (a.arena.symbol o).members with
    | none =>
      rw [hm] at h
      cases h
    | some σ =>
      rw [hm] at h
      obtain ⟨i, hi⟩ := List.getElem?_of_mem h
      rw [Arena.IsSection, (ready.slot σ i s hi).2.1]
      exact ⟨o, ready.members o σ hm, by simpa using interactive⟩
  · cases h

theorem placeSection_moved (ready : a.arena.Ready) {s : SymbolId} (isSection : a.arena.IsSection s)
    (h : a.placeSection s = .ok a') :
    a.arena.Moved a'.arena ∧ a'.units = a.units ∧ a'.createdScopes = a.createdScopes := by
  simp only [placeSection] at h
  split at h
  · next module σ _ hs =>
    cases h
    exact ⟨Arena.moved_setEnclosing (ready.members s σ hs) isSection fun outer ho =>
      ⟨module, ready.members module outer ho⟩, rfl, rfl⟩
  · cases h

/-- Placing sections moves them, whether or not each of them finds its module. -/
theorem placeSections_moved {recovery : Bool} (ids : List SymbolId) {faults : List Fault}
    (ready : a.arena.Ready) (sections : ∀ s ∈ ids, a.arena.IsSection s)
    (h : placeSections recovery ids a = .ok (faults, a')) :
    a.arena.Moved a'.arena ∧ (a'.units = a.units ∧ a'.createdScopes = a.createdScopes) ∧
      a'.arena.Ready := by
  induction ids generalizing a faults with
  | nil =>
    cases h
    exact ⟨.refl _, ⟨rfl, rfl⟩, ready⟩
  | cons s rest ih =>
    rw [List.forall_mem_cons] at sections
    rw [placeSections] at h
    cases hp : a.placeSection s with
    | ok a₁ =>
      rw [hp] at h
      obtain ⟨moved, units, created⟩ := placeSection_moved ready sections.1 hp
      have ready₁ := (placeSection_ready ready hp).1
      obtain ⟨moved', ⟨units', created'⟩, ready'⟩ := ih ready₁
        (fun s' hs' => (moved.isSection s').mpr (sections.2 s' hs')) h
      exact ⟨moved.trans moved', ⟨units'.trans units, created'.trans created⟩, ready'⟩
    | error fault =>
      rw [hp] at h
      cases recovery with
      | false => cases h
      | true =>
        cases hr : placeSections true rest a with
        | error e =>
          simp only [if_true, hr] at h
          cases h
        | ok p =>
          simp only [if_true, hr] at h
          cases h
          exact ih ready sections.2 hr

end Analysis

/-- **Linking a program binds all that resolves and moves its sections**, with or without
recovery. -/
theorem linkUnits_spec {recovery : Bool} {built linked : Analysis} (formed : built.arena.Formed)
    (fresh : built.arena.Unlinked built.units)
    (unit : ∀ path s, Entries.get? built.units path = some s → built.arena.LaidOnce s)
    (h : built.linkUnits recovery = .ok linked) : ∃ bound : Arena,
      built.arena.Binds built.units bound ∧ bound.Moved linked.arena ∧
      (linked.units = built.units ∧ linked.createdScopes = built.createdScopes) ∧
      linked.arena.Ready ∧ ∀ s ∈ built.linkOrder, ∀ t, built.arena.Resolves built.units s t →
        Arena.Settled built.arena s bound := by
  obtain ⟨faults, bound, all, binds, -, settled⟩ :=
    Arena.linkAll_spec fresh built.linkOrder Arena.Binds.refl
  have ready := binds.ready formed fresh unit
  -- Without recovery linking gives the same arena, or nothing.
  have once : Arena.linkAll recovery built.units built.linkOrder built.arena =
      .ok (if recovery then faults else [], bound) ∨
      ∃ fault, Arena.linkAll recovery built.units built.linkOrder built.arena = .error fault := by
    cases recovery with
    | true => exact .inl all
    | false =>
      obtain ⟨faults', bound', all', strict⟩ :=
        Arena.linkAll_recovery built.units built.linkOrder built.arena
      rw [all] at all'
      cases all'
      cases faults with
      | nil => exact .inl strict
      | cons fault rest => exact .inr ⟨fault, strict⟩
  rcases once with once | ⟨fault, once⟩
  · simp only [Analysis.linkUnits, once, bind, Except.bind] at h
    cases hp : Analysis.placeSections recovery
        (Analysis.sectionSymbols { built with arena := bound }) { built with arena := bound } with
    | error fault =>
      rw [hp] at h
      cases h
    | ok p =>
      rw [hp] at h
      cases h
      obtain ⟨moved, units, ready'⟩ := Analysis.placeSections_moved _ ready
        (fun s hs => Analysis.isSection_of_mem ready hs) hp
      exact ⟨bound, binds, moved, units, ready', settled⟩
  · simp only [Analysis.linkUnits, once, bind, Except.bind] at h
    cases h

/-- What the first pass makes of a program is linked so. -/
theorem linkUnits_built {recovery : Bool} {units : UnitSet} {built linked : Analysis}
    {pending : List PendingReference} (hb : buildScopes recovery units = .ok (built, pending))
    (hl : built.linkUnits recovery = .ok linked) : built.arena.Formed ∧ ∃ bound : Arena,
      built.arena.Binds built.units bound ∧ bound.Moved linked.arena ∧
      (linked.units = built.units ∧ linked.createdScopes = built.createdScopes) ∧
      linked.arena.Ready ∧ ∀ s ∈ built.linkOrder, ∀ t, built.arena.Resolves built.units s t →
        Arena.Settled built.arena s bound := by
  have fresh := buildScopes_unlinked hb
  obtain ⟨b, steps, rfl, -⟩ := buildScopes_steps hb
  have formed := steps.formed (Building.formed_start recovery)
  have laidOnce : ∀ path s, Entries.get? b.analysis.units path = some s → b.arena.LaidOnce s := by
    intro path s hs
    obtain ⟨owner, home, -⟩ := formed.unit path s hs
    refine ⟨owner.1, ?_⟩
    rw [home, (formed.arena.units _).mpr rfl]
    rfl
  exact ⟨formed.arena, linkUnits_spec formed.arena fresh laidOnce hl⟩

end CellScript
