import CellScript.Proofs.Scope.Captures
import CellScript.Scope.Analyze

/-!
# Programs that analysis accepts

A program whose nodes are told apart and that analysis accepts without a fault is described by the
tables as evaluation needs it: each reference has something it is bound to and can reach it, and
whatever a function captures can be reached where the function is created.

* `analyze_eq_ok` — the passes of an analysis
* `Analysis.Rooted`, `Analysis.Covers` — what the tables hold for an accepted program
* `analyze_covers` — analysis without recovery establishes it
-/

namespace CellScript

/-- An analysis comes to an end through all of its passes. -/
theorem analyze_eq_ok {recovery : Bool} {units : UnitSet} {a : Analysis}
    (h : analyze recovery units = .ok a) : ∃ built pending linked resolved,
      buildScopes recovery units = .ok (built, pending) ∧ built.linkUnits recovery = .ok linked ∧
      Analysis.resolveAll recovery pending linked = .ok resolved ∧
        a = resolved.captureAll units := by
  simp only [analyze, bind, Except.bind] at h
  cases hb : buildScopes recovery units with
  | error fault =>
    rw [hb] at h
    cases h
  | ok p =>
    simp only [hb] at h
    cases hl : p.1.linkUnits recovery with
    | error fault =>
      rw [hl] at h
      cases h
    | ok linked =>
      simp only [hl] at h
      cases hr : Analysis.resolveAll recovery p.2 linked with
      | error fault =>
        rw [hr] at h
        cases h
      | ok resolved =>
        rw [hr] at h
        cases h
        exact ⟨p.1, p.2, linked, resolved, rfl, hl, hr, rfl⟩

/-- The arena is ready, with the scope of global names outermost. -/
structure Analysis.Rooted (a : Analysis) : Prop where
  ready : a.arena.Ready
  global : (a.arena.scope Analysis.globalScope).kind = .global

/-- The tables describe a program, and everything it refers to can be reached. -/
structure Analysis.Covers (a : Analysis) (units : UnitSet) : Prop extends a.Rooted where
  supplied : a.Supplied
  unit : ∀ path s, a.unit? path = some s → s < a.arena.symbols.size ∧
    (a.arena.symbol s).scope = Analysis.unitsScope ∧ (a.arena.symbol s).members.isSome = true
  describes : a.Describes a.Reaches units

/-! ## Resolving all references -/

namespace Analysis

variable {a a' : Analysis}

theorem resolveAll_same (pending : List PendingReference)
    (h : resolveAll false pending a = .ok a') : a' = { a with references := a'.references } := by
  induction pending generalizing a with
  | nil =>
    cases h
    rfl
  | cons p rest ih =>
    rw [resolveAll] at h
    cases hr : a.arena.resolve p with
    | error fault =>
      simp only [hr, Bool.false_eq_true, if_false] at h
      cases h
    | ok r =>
      simp only [hr] at h
      have same := ih h
      exact same

theorem resolveAll_other {recovery : Bool} {node : NodeId} (pending : List PendingReference)
    (other : ∀ p ∈ pending, p.node.id ≠ node) (h : resolveAll recovery pending a = .ok a') :
    a'.references.get? node = a.references.get? node := by
  induction pending generalizing a with
  | nil =>
    cases h
    rfl
  | cons p rest ih =>
    rw [List.forall_mem_cons] at other
    have entered : ∀ {outcome : Except Fault ResolvedReference} {faults : List Fault},
        resolveAll recovery rest { a with
          references := a.references.insert p.node.id outcome, faults := faults } = .ok a' →
        a'.references.get? node = a.references.get? node := fun h => by
      rw [ih other.2 h, Table.get?_insert, if_neg other.1]
    rw [resolveAll] at h
    cases hr : a.arena.resolve p with
    | ok r =>
      simp only [hr] at h
      exact entered h
    | error fault =>
      simp only [hr] at h
      split at h
      · exact entered h
      · cases h

/-- Faults that were found are kept. -/
theorem resolveAll_faults {recovery : Bool} (pending : List PendingReference)
    (h : resolveAll recovery pending a = .ok a') : a.faults ⊆ a'.faults := by
  induction pending generalizing a with
  | nil =>
    cases h
    exact List.Subset.refl _
  | cons p rest ih =>
    rw [resolveAll] at h
    cases hr : a.arena.resolve p with
    | ok r =>
      simp only [hr] at h
      have kept := ih h
      exact kept
    | error fault =>
      simp only [hr] at h
      split at h
      · exact List.Subset.trans (List.subset_append_left ..) (ih h)
      · cases h

/-- A reference that is the only one of its node is entered with its outcome. A fault is collected,
or it ends the pass. -/
theorem resolveAll_outcome {recovery : Bool} (pending : List PendingReference)
    {p : PendingReference} (mem : p ∈ pending)
    (alone : ∀ q ∈ pending, q.node.id = p.node.id → q = p)
    (h : resolveAll recovery pending a = .ok a') :
    a'.references.get? p.node.id = some (a.arena.resolve p) ∧
      ∀ fault, a.arena.resolve p = .error fault → recovery = true ∧ fault ∈ a'.faults := by
  induction pending generalizing a with
  | nil => cases mem
  | cons q rest ih =>
    have later : ∀ q ∈ rest, q.node.id = p.node.id → q = p :=
      fun q hq => alone q (List.mem_cons_of_mem _ hq)
    -- The entry made at the end of the list stays, for no later one has the same node.
    have last : p ∉ rest → p = q ∧ ∀ q ∈ rest, q.node.id ≠ p.node.id := fun absent =>
      ⟨(List.mem_cons.mp mem).resolve_right absent, fun q hq same => absent (later q hq same ▸ hq)⟩
    rw [resolveAll] at h
    cases hr : a.arena.resolve q with
    | ok r =>
      simp only [hr] at h
      by_cases again : p ∈ rest
      · exact ih (a := { a with references := a.references.insert q.node.id (.ok r) }) again later h
      · obtain ⟨rfl, others⟩ := last again
        rw [resolveAll_other rest others h, Table.get?_insert, if_pos rfl, hr]
        exact ⟨rfl, fun fault hf => by cases hf⟩
    | error fault =>
      simp only [hr] at h
      split at h
      · next recovered =>
        by_cases again : p ∈ rest
        · exact ih (a := { a with
            references := a.references.insert q.node.id (.error fault)
            faults := a.faults ++ [fault] }) again later h
        · obtain ⟨rfl, others⟩ := last again
          rw [resolveAll_other rest others h, Table.get?_insert, if_pos rfl, hr]
          refine ⟨rfl, fun fault' hf => ⟨recovered, ?_⟩⟩
          cases hf
          exact resolveAll_faults rest h (List.mem_append_right _ (List.mem_singleton.mpr rfl))
      · cases h

/-- Without recovery every reference that is the only one of its node is bound. -/
theorem resolveAll_entry (pending : List PendingReference) {p : PendingReference}
    (mem : p ∈ pending) (alone : ∀ q ∈ pending, q.node.id = p.node.id → q = p)
    (h : resolveAll false pending a = .ok a') :
    ∃ r, a.arena.resolve p = .ok r ∧ a'.references.get? p.node.id = some (.ok r) := by
  obtain ⟨entry, faults⟩ := resolveAll_outcome pending mem alone h
  cases hr : a.arena.resolve p with
  | ok r => exact ⟨r, rfl, hr ▸ entry⟩
  | error fault => cases (faults fault hr).1

end Analysis

/-! ## Captures of the whole program -/

namespace Capturing

variable {a₀ : Analysis}

theorem visitBindings_append (fs : List FunctionFrame) (vars rest : List VarDef) :
    visitBindings fs (vars ++ rest) =
      (visitBindings fs vars >>= fun _ => visitBindings fs rest) := by
  induction vars with
  | nil => rfl
  | cons v vars ih =>
    obtain ⟨node, name, ty, e⟩ := v
    rw [List.cons_append, visitBindings, visitBindings, ih]
    rfl

/-- Groups lie outside all functions, each in its own scope; each comes with the scope in which it
is declared. -/
theorem visitGroups_walks (ready : a₀.arena.Ready)
    (groups : List (ScopeId × String × Node × List VarDef))
    (h : ∀ g ∈ groups, a₀.GroupOf a₀.BoundAt g.1 g.2.1 g.2.2.1.id g.2.2.2) :
    Walks a₀ [] (visitBindings [] (groups.flatMap (·.2.2.2)))
      fun af => ∀ g ∈ groups, af.GroupOf af.Reaches g.1 g.2.1 g.2.2.1.id g.2.2.2 := by
  induction groups with
  | nil => exact .pure fun _ _ g hg => by cases hg
  | cons g rest ih =>
    rw [List.forall_mem_cons] at h
    obtain ⟨⟨σ, s, group⟩, others⟩ := h
    rw [List.flatMap_cons, visitBindings_append]
    refine ((visitBindings_walks ready (.members group.kind) _ group.sound).seq (ih others)).mono
      fun af goes after => ?_
    rw [List.forall_mem_cons]
    refine ⟨⟨σ, s, ?_⟩, after.2⟩
    constructor
    case created => rw [goes.created]; exact group.created
    case fills => exact goes.fills group.fills
    case named =>
      intro v hv
      rw [Analysis.DefinesVar, goes.definitions, goes.arena]
      exact group.named v hv
    case sound => exact after.1
    all_goals rw [goes.arena]
    exacts [group.kind, group.known, group.members, group.node, group.home, group.name]

end Capturing

/-! ## The whole analysis -/

/-- Nothing is captured before the first pass has ended. -/
theorem Build.Steps.closures {ids : List NodeId} {b b' : Building} (s : Build.Steps ids b b') :
    b'.analysis.closures = b.analysis.closures := by
  induction s with
  | refl => rfl
  | tail _ last ih =>
    rw [← ih]
    cases last <;> rfl

theorem Finished.mono {b : Building} {a : Analysis} {R S : ScopeId → NodeId → Prop}
    (h : Finished b a R) (all : ∀ σ node, R σ node → S σ node) : Finished b a S :=
  { h with reference := fun p hp alone => all _ _ (h.reference p hp alone) }

/-- The node is a reference in a scope, entered as it was resolved from there. -/
def Analysis.ResolvedAt (a : Analysis) (σ : ScopeId) (node : NodeId) : Prop :=
  ∃ p r, p.scope = σ ∧ p.node.id = node ∧ a.arena.resolve p = .ok r ∧
    a.references.get? node = some (.ok r)

theorem Analysis.ResolvedAt.boundAt {a : Analysis} {σ : ScopeId} {node : NodeId}
    (ready : a.arena.Ready) (h : a.ResolvedAt σ node) : a.BoundAt σ node := by
  obtain ⟨p, r, rfl, -, resolves, entry⟩ := h
  exact ⟨r, entry, ready.bound_of_resolve resolves⟩

/-- Every reference is resolved once linking and resolving have ended. -/
theorem finished_of_resolveAll {b : Building} {linked resolved : Analysis}
    (same : Analysis.Relinked { b.analysis with positions := b.analysis.positions.reverse } linked)
    (h : Analysis.resolveAll false b.pending.reverse linked = .ok resolved) :
    Finished b resolved resolved.ResolvedAt := by
  have eq := Analysis.resolveAll_same _ h
  have arena : resolved.arena = linked.arena := by rw [eq]
  have fields : resolved.createdScopes = linked.createdScopes ∧
      resolved.nodeScopes = linked.nodeScopes ∧ resolved.definitions = linked.definitions ∧
      resolved.units = linked.units := by
    rw [eq]
    exact ⟨rfl, rfl, rfl, rfl⟩
  refine ⟨?_, fields.1.trans same.created, fields.2.1.trans same.nodeScopes,
    fields.2.2.1.trans same.definitions, ?_, ?_, ?_, ?_, ?_, ?_, ?_, fields.2.2.2.trans same.units,
    fun p hp alone => ?_⟩
  · rw [arena]
    exact same.kind
  · rw [arena]
    exact same.dynamic
  · rw [arena]
    exact same.size
  · rw [arena]
    exact same.slots
  · rw [arena]
    exact fun t => ⟨(same.symbol t).scope, (same.symbol t).ty⟩
  · rw [arena]
    exact fun t => ⟨(same.symbol t).node, (same.symbol t).name, (same.symbol t).binding⟩
  · rw [arena]
    exact same.direct
  · rw [arena]
    exact fun t => (same.symbol t).members
  · obtain ⟨r, resolves, entry⟩ := Analysis.resolveAll_entry _ (List.mem_reverse.mpr hp)
      (fun q hq => alone q (List.mem_reverse.mp hq)) h
    exact ⟨p, r, rfl, rfl, by rw [arena]; exact resolves, entry⟩

/-- **Analysis without recovery accepts only programs in which everything can be reached.** -/
theorem analyze_covers {units : UnitSet} {a : Analysis} (numbered : units.Numbered)
    (h : analyze false units = .ok a) : a.Covers units := by
  obtain ⟨built, pending, linked, resolved, hb, hl, hr, rfl⟩ := analyze_eq_ok h
  have fresh := buildScopes_unlinked hb
  obtain ⟨b, steps, rfl, rfl, groups⟩ := buildScopes_groups numbered hb
  have formed := steps.formed (Building.formed_start false)
  obtain ⟨ready, same⟩ := linkUnits_ready
    (show Analysis.arena { b.analysis with positions := b.analysis.positions.reverse } |>.Formed
      from formed.arena) fresh (fun path s hs => by
    obtain ⟨owner, home, -⟩ := formed.unit path s hs
    refine ⟨owner.1, ?_⟩
    show (b.arena.scope (b.arena.symbol s).scope).kind.isDynamic = false
    rw [home, (formed.arena.units _).mpr rfl]
    rfl) hl
  have eq := Analysis.resolveAll_same _ hr
  have ready' : resolved.arena.Ready := by
    rw [eq]
    exact ready
  have fin := (finished_of_resolveAll same hr).mono fun _ _ h => h.boundAt ready'
  have empty : resolved.closures = [] := by
    rw [eq]
    exact same.closures.trans steps.closures
  have supplied : resolved.Supplied := by
    intro n σ outer t _ _ mem
    rw [Analysis.closedOver, empty] at mem
    cases mem
  have described := groups fin
  choose! symbol home entered node members bare group using described.group
  have walks := Capturing.visitGroups_walks ready'
      (units.flatMap fun u => u.namedGroups.map fun g => (home u, g)) fun g hg => by
    obtain ⟨u, hu, hg⟩ := List.mem_flatMap.mp hg
    obtain ⟨named, mem, rfl⟩ := List.mem_map.mp hg
    exact group u hu named mem
  obtain ⟨goes, supplied', after⟩ := walks resolved (.refl _) supplied fun f hf => by cases hf
  have vars : ((units.flatMap fun u => u.namedGroups.map fun g => (home u, g)).flatMap
      (·.2.2.2)) = units.flatMap fun u => u.groups.flatMap (·.2) := by
    rw [List.flatMap_assoc]
    congr 1
    funext u
    rw [List.flatMap_map, ← u.map_namedGroups, List.flatMap_map]
  have final : (Capturing.visitBindings [] (units.flatMap fun u => u.groups.flatMap (·.2))
      resolved).2 = resolved.captureAll units := rfl
  rw [vars, final] at goes supplied' after
  refine ⟨⟨by rw [goes.arena]; exact ready', ?_⟩, supplied', fun path s hs => ?_,
    fun path s hs => ?_, fun s σ hs => ?_, fun u hu s hs => ?_, fun u hu => ?_⟩
  · have root : (Building.start false).HasScope Analysis.globalScope := by
      show 0 < 2
      decide
    rw [goes.arena, eq]
    exact (same.kind _).trans (steps.sameScope root).kind
  · have unit : resolved.units = b.analysis.units := by
      rw [eq]
      exact same.units
    rw [Analysis.unit?, goes.units, unit] at hs
    obtain ⟨owner, home, members⟩ := formed.unit path s hs
    have arena : (resolved.captureAll units).arena = linked.arena := by
      rw [goes.arena, eq]
    rw [arena, same.size, (same.symbol s).scope, (same.symbol s).members]
    exact ⟨owner.1, home, members⟩
  · rw [Analysis.unit?, goes.units] at hs
    exact described.path path s hs
  · rw [goes.arena] at hs
    rcases described.owner s σ hs with ⟨path, found⟩ | ⟨u, hu, g, hg, created⟩
    · exact .inl ⟨path, by rw [Analysis.unit?, goes.units]; exact found⟩
    · exact .inr ⟨u, hu, g, hg, by rw [goes.created]; exact created⟩
  · rw [Analysis.unit?, goes.units] at hs
    rw [goes.arena]
    exact described.target u hu s hs
  · refine ⟨symbol u, home u, ?_, ?_, ?_, ?_, fun g hg => ?_⟩
    · rw [Analysis.unit?, goes.units]
      exact entered u hu
    · rw [goes.arena]
      exact node u hu
    · rw [goes.arena]
      exact members u hu
    · rw [goes.arena]
      exact bare u hu
    · exact after _ (.refl _) (home u, g)
        (List.mem_flatMap.mpr ⟨u, hu, List.mem_map.mpr ⟨g, hg, rfl⟩⟩)

end CellScript
