import CellScript.Proofs.Scope.Reordered

/-!
# Scopes and symbols under other numbers

The first pass over the same units in another order makes the same scopes and symbols. What differs
are their numbers: those of units and global names are given out when the units are declared, all
others when the unit that they belong to is visited, one behind the other.

* `Arena.Renumbers` — two arenas that differ in numbers only
* `Build.Twice.pairing` — which numbers stand for each other
* `Build.Twice.renumbers` — the arenas after all visits
* `Build.Twice.tables` — the tables after all visits
-/

namespace CellScript

/-- The arenas differ in numbers only: each scope and symbol of one stands for one of the other. -/
structure Arena.Renumbers (ρ : Pairing) (a a' : Arena) : Prop where
  alike : a.Alike ρ a'
  once : ρ.OneToOne
  scope : ∀ σ, σ < a.scopes.size → ∃ σ', ρ.scope σ σ'
  scope' : ∀ σ', σ' < a'.scopes.size → ∃ σ, ρ.scope σ σ'
  symbol : ∀ t, t < a.symbols.size → ∃ t', ρ.symbol t t'
  symbol' : ∀ t', t' < a'.symbols.size → ∃ t, ρ.symbol t t'
  scopeRange : ∀ σ σ', ρ.scope σ σ' → σ < a.scopes.size ∧ σ' < a'.scopes.size
  symbolRange : ∀ t t', ρ.symbol t t' → t < a.symbols.size ∧ t' < a'.symbols.size

namespace Build

variable {b b' c c' d d' c₂ d₂ final final' : Building} {u u₂ : SourceUnit} {t t' t₂ : SymbolId}
  {ps ps' before after : List (SourceUnit × SymbolId)} {units units' : UnitSet}

/-! ## One run -/

/-- No unit is visited twice. -/
theorem Prepared.others (h : Prepared units ps b) (split : ps = before ++ (u, t) :: after) :
    ∀ p ∈ before ++ after, p ∈ ps ∧ p.1 ≠ u ∧ p.2 ≠ t := by
  have units : (ps.map (·.1)).Nodup := by
    rw [h.units]
    exact h.numbered.rooted.nodup.of_map
  have symbols := h.nodup
  rw [split, (List.perm_middle.map _).nodup_iff, List.map_cons, List.nodup_cons] at units symbols
  intro p mem
  refine ⟨?_, fun same => units.1 (List.mem_map.mpr ⟨p, mem, same⟩),
    fun same => symbols.1 (List.mem_map.mpr ⟨p, mem, same⟩)⟩
  rw [split]
  exact List.perm_middle.symm.subset (List.mem_cons_of_mem _ mem)

theorem Frame.mono {S S' : ScopeId → Prop} (h : Frame S c d) (more : ∀ σ, S σ → S' σ) :
    Frame S' c d :=
  { h with scope := fun σ known outside => h.scope σ known (mt (more σ) outside) }

/-- The visits of some units change what belongs to these. -/
theorem Prepared.segment (h : Prepared units ps b) {S : ScopeId → Prop} {ids : List NodeId}
    {v : PUnit} (frame : Frame S b c) (steps : Steps ids b c) (sub : before ⊆ ps)
    (run : visitUnits before c = .ok (v, d)) : Frame (fun σ => ∃ p ∈ before, b.Houses p.2 σ) c d ∧
      Steps (before.flatMap fun p => p.1.nodeIds) c d := by
  constructor
  · refine (visitUnits_frame frame.strict
      (fun p hp => (h.vacant (sub hp)).toHosted.stays frame) run).mono fun σ ⟨p, hp, houses⟩ => ?_
    exact ⟨p, hp, (frame.houses (h.vacant (sub hp)).known σ).mp houses⟩
  · exact visitUnits_steps before (fun p hp id hid => List.mem_flatMap.mpr ⟨p, hp, hid⟩)
      (steps.formed h.formed) (fun p hp => (h.housed p (sub hp)).stays steps) run

/-- What a visit changes, and what the visits of other units leave alone. -/
structure Between (b : Building) (u : SourceUnit) (t : SymbolId) (c d final : Building) : Prop where
  vacant : Vacant c u t
  formed : Formed d
  tabled : d.arena.Tabled
  before : ∃ S ids, Frame S b c ∧ Steps ids b c ∧ (∀ σ, S σ → σ < b.arena.scopes.size) ∧
    (∀ σ, b.Houses t σ → ¬ S σ) ∧ ids.Disjoint u.nodeIds
  here : Frame (b.Houses t) c d ∧ Steps u.nodeIds c d
  after : ∃ S ids, Frame S d final ∧ Steps ids d final ∧ (∀ σ, S σ → σ < b.arena.scopes.size) ∧
    (∀ σ, b.Houses t σ → ¬ S σ) ∧ ids.Disjoint u.nodeIds

theorem Visit.between (h : Prepared units ps b) (visit : Visit ps b final u t c d) :
    Between b u t c d final := by
  obtain ⟨⟨before, after, split, first, last⟩, here⟩ := visit
  have others := h.others split
  have mem : (u, t) ∈ ps := split ▸ List.mem_append_right _ (List.mem_cons_self ..)
  have known : u ∈ units := h.units ▸ List.mem_map.mpr ⟨_, mem, rfl⟩
  -- What the visits of some other units change.
  have apart : ∀ qs : List (SourceUnit × SymbolId), qs ⊆ before ++ after →
      (∀ σ, (∃ p ∈ qs, b.Houses p.2 σ) → σ < b.arena.scopes.size) ∧
      (∀ σ, b.Houses t σ → ¬ ∃ p ∈ qs, b.Houses p.2 σ) ∧
      (qs.flatMap fun p => p.1.nodeIds).Disjoint u.nodeIds := by
    intro qs sub
    refine ⟨fun σ ⟨p, hp, houses⟩ => (h.vacant (others p (sub hp)).1).created σ houses,
      fun σ houses ⟨p, hp, houses'⟩ => (others p (sub hp)).2.2 ?_, fun id hid hu => ?_⟩
    · exact ((h.vacant mem).owner (h.vacant (others p (sub hp)).1) houses houses').symm
    · obtain ⟨p, hp, hid⟩ := List.mem_flatMap.mp hid
      have other := others p (sub hp)
      have known' : p.1 ∈ units := h.units ▸ List.mem_map.mpr ⟨_, other.1, rfl⟩
      exact h.numbered.disjoint known' known other.2.1 hid hu
  have whole : before ++ after ⊆ ps := fun p hp => (others p hp).1
  have subBefore : before ⊆ before ++ after := List.subset_append_left ..
  have subAfter : after ⊆ before ++ after := List.subset_append_right ..
  have run : visitUnits [(u, t)] c = .ok (⟨⟩, d) := by
    rw [visitUnits_cons_eq]
    exact bind_eq_ok.mpr ⟨_, d, here, rfl⟩
  obtain ⟨frame₁, steps₁⟩ := h.segment (Frame.refl h.opening.strict : Frame (fun _ => False) b b)
    (Steps.refl : Steps [] b b) (List.Subset.trans subBefore whole) first
  obtain ⟨frame₂, steps₂⟩ :=
    h.segment frame₁ steps₁ (fun p hp => (List.mem_singleton.mp hp).symm ▸ mem) run
  obtain ⟨frame₃, steps₃⟩ := h.segment (frame₁.trans frame₂)
    ((steps₁.mono (List.subset_append_left ..)).trans (steps₂.mono (List.subset_append_right ..)))
    (List.Subset.trans subAfter whole) last
  have formed₁ := steps₁.formed h.formed
  rw [List.flatMap_singleton] at steps₂
  exact
    { vacant := ((split ▸ h).reached first).2
      formed := steps₂.formed formed₁
      tabled := steps₂.tabled formed₁ (steps₁.tabled h.formed h.tabled)
      before := ⟨_, _, frame₁, steps₁, apart before subBefore⟩
      here := ⟨frame₂.mono fun σ ⟨p, hp, houses⟩ =>
        (by rwa [List.mem_singleton.mp hp] at houses), steps₂⟩
      after := ⟨_, _, frame₃, steps₃, apart after subAfter⟩ }

/-- What holds after all visits held before them, or one of them has brought it about. -/
theorem exists_visit_of (P : Building → Prop) {v : PUnit} (run : visitUnits ps b = .ok (v, final))
    (holds : P final) : P b ∨ ∃ u t c d, Visit ps b final u t c d ∧ ¬ P c ∧ P d := by
  have all : ∀ (after before : List (SourceUnit × SymbolId)) (c : Building), ps = before ++ after →
      visitUnits before b = .ok (⟨⟩, c) → visitUnits after c = .ok (⟨⟩, final) →
      P c ∨ ∃ u t c d, Visit ps b final u t c d ∧ ¬ P c ∧ P d := by
    intro after
    induction after with
    | nil =>
      intro before c split first last
      cases last
      exact .inl holds
    | cons p rest ih =>
      obtain ⟨u, t⟩ := p
      intro before c split first last
      rw [visitUnits_cons_eq, bind_eq_ok] at last
      obtain ⟨_, d, here, last⟩ := last
      by_cases old : P c
      · exact .inl old
      rcases ih (before ++ [(u, t)]) d (by rw [split, List.append_assoc]; rfl)
        ((visitUnits_append _ _).mpr ⟨c, first, by
          rw [visitUnits_cons_eq]
          exact bind_eq_ok.mpr ⟨_, d, here, rfl⟩⟩) last with new | later
      · exact .inr ⟨u, t, c, d, ⟨⟨before, rest, split, first, last⟩, here⟩, old, new⟩
      · exact .inr later
  exact all ps [] b rfl rfl run

/-- What is visited later finds what has been visited. -/
theorem Visit.frame_of_before {more : List (SourceUnit × SymbolId)} (h : Prepared units ps b)
    (visit : Visit ps b final u t c d) (split : ps = before ++ (u, t) :: more ++ (u₂, t₂) :: after)
    (first : visitUnits before b = .ok (⟨⟩, c))
    (last : visitUnits (before ++ (u, t) :: more) b = .ok (⟨⟩, c₂)) :
    u ≠ u₂ ∧ ∃ S, Frame S d c₂ := by
  have between := visit.between h
  obtain ⟨S, ids, frame, steps, -⟩ := between.before
  obtain ⟨frame', steps'⟩ := between.here
  have other := h.others split (u, t) (List.mem_append_left _
    (List.mem_append_right _ (List.mem_cons_self ..)))
  rw [visitUnits_append] at last
  obtain ⟨c', first', last⟩ := last
  rw [first] at first'
  cases first'
  rw [visitUnits_cons_eq, bind_eq_ok] at last
  obtain ⟨_, d', here', last⟩ := last
  rw [visit.here] at here'
  cases here'
  refine ⟨other.2.1, _,
    (h.segment (frame.trans frame') ((steps.mono (List.subset_append_left ..)).trans
      (steps'.mono (List.subset_append_right ..))) (fun p hp => ?_) last).1⟩
  rw [split]
  exact List.mem_append_left _ (List.mem_append_right _ (List.mem_cons_of_mem _ hp))

/-- After the same units, one unit is visited in one way. -/
theorem Visit.once {after' : List (SourceUnit × SymbolId)} (visit : Visit ps b final u t c d)
    (visit' : Visit ps b final u₂ t₂ c₂ d₂)
    (next : (u, t) :: after = (u₂, t₂) :: after') (first : visitUnits before b = .ok (⟨⟩, c))
    (first' : visitUnits before b = .ok (⟨⟩, c₂)) : u = u₂ ∧ t = t₂ ∧ c = c₂ ∧ d = d₂ := by
  cases next
  rw [first] at first'
  cases first'
  have here := visit.here
  rw [visit'.here] at here
  cases here
  exact ⟨rfl, rfl, rfl, rfl⟩

/-- One of two units is visited after the other. -/
theorem Visit.order (h : Prepared units ps b) (visit : Visit ps b final u t c d)
    (visit' : Visit ps b final u₂ t₂ c₂ d₂) : (u = u₂ ∧ t = t₂ ∧ c = c₂ ∧ d = d₂) ∨ u ≠ u₂ ∧
      ((∃ S, Frame S d c₂) ∨ ∃ S, Frame S d₂ c) := by
  obtain ⟨before, after, split, first, -⟩ := visit.around
  obtain ⟨before', after', split', first', -⟩ := visit'.around
  rcases List.append_eq_append_iff.mp (split.symm.trans split') with ⟨mid, hb, ha⟩ | ⟨mid, hb, ha⟩
  · cases mid with
    | nil =>
      rw [List.append_nil] at hb
      subst hb
      exact .inl (visit.once visit' ha first first')
    | cons p more =>
      injection ha with same
      subst same hb
      obtain ⟨other, frame⟩ := visit.frame_of_before h split' first first'
      exact .inr ⟨other, .inl frame⟩
  · cases mid with
    | nil =>
      rw [List.append_nil] at hb
      subst hb
      exact .inl (visit.once visit' ha.symm first first')
    | cons p more =>
      injection ha with same
      subst same hb
      obtain ⟨other, frame⟩ := visit'.frame_of_before h split first' first
      exact .inr ⟨other.symm, .inr frame⟩

/-! ## What has been declared -/

/-- The units are found by their paths. -/
theorem Prepared.unit_of_path (h : Prepared units ps b) {path : String}
    (found : (b.arena.scope Analysis.unitsScope).get? path = some t) :
    ∃ u m, (u, t) ∈ ps ∧ u.path = path ∧ Lodges b u t m := by
  obtain ⟨u, known, rfl⟩ := h.opening.paths path t found
  rw [← h.units] at known
  obtain ⟨⟨v, s⟩, mem, same⟩ := List.mem_map.mp known
  have same : v = u := same
  subst same
  obtain ⟨m, lodged⟩ := h.lodges _ mem
  have path := lodged.path
  rw [found] at path
  cases path
  exact ⟨v, m, mem, rfl, lodged⟩

/-- Scopes of units are neither that of all units nor that of global names. -/
theorem Lodges.later_of_houses {m : ScopeId} (h : Lodges b u t m) {σ : ScopeId}
    (houses : b.Houses t σ) :
    Analysis.unitsScope < σ := by
  rcases houses with members | exports
  · rw [h.members] at members
    cases members
    exact h.later
  · exact (h.shows exports).2.2.1

/-- What is found among units and global names has been declared there under that name. -/
theorem Prepared.declared (h : Prepared units ps b) {σ : ScopeId} {name : String}
    (outermost : σ = Analysis.globalScope ∨ σ = Analysis.unitsScope)
    (found : (b.arena.scope σ).get? name = some t) :
    t < b.arena.symbols.size ∧ (b.arena.symbol t).scope = σ ∧ (b.arena.symbol t).name = name := by
  obtain ⟨known, called, home | published⟩ := h.tabled.names σ name t (Entries.mem_of_get? found)
  · exact ⟨known, home, called⟩
  · obtain ⟨s, kind, -⟩ := published.module
    rw [(h.outermost σ outermost).kind] at kind
    rcases outermost with rfl | rfl <;> cases kind

section Declared

variable {σ σ' τ τ' : ScopeId}

theorem Rooms.flip (h : Rooms b b' t t' σ σ') : Rooms b' b t' t σ' σ := h.imp And.symm And.symm

theorem Twice.flip (h : Twice units units' ps ps' b b') : Twice units' units ps' ps b' b :=
  ⟨h.second, h.first, h.perm.symm⟩

theorem declaredPairing_flip : (declaredPairing b b').flip = declaredPairing b' b := by
  unfold declaredPairing Pairing.flip
  congr 1
  · funext σ' σ
    refine propext ⟨?_, ?_⟩
    · rintro (⟨rfl, out⟩ | ⟨path, t, t', ht, ht', rooms⟩)
      · exact .inl ⟨rfl, out⟩
      · exact .inr ⟨path, t', t, ht', ht, rooms.flip⟩
    · rintro (⟨rfl, out⟩ | ⟨path, t, t', ht, ht', rooms⟩)
      · exact .inl ⟨rfl, out⟩
      · exact .inr ⟨path, t', t, ht', ht, rooms.flip⟩
  · funext t' t
    exact propext ⟨fun ⟨σ, name, out, h, h'⟩ => ⟨σ, name, out, h', h⟩,
      fun ⟨σ, name, out, h, h'⟩ => ⟨σ, name, out, h', h⟩⟩

/-- Symbols that are found by the same path are those of the same unit. -/
theorem Twice.unit_of_path (h : Twice units units' ps ps' b b') {path : String}
    (found : (b.arena.scope Analysis.unitsScope).get? path = some t)
    (found' : (b'.arena.scope Analysis.unitsScope).get? path = some t') :
    ∃ u m m', (u, t) ∈ ps ∧ (u, t') ∈ ps' ∧ u.path = path ∧ Lodges b u t m ∧ Lodges b' u t' m' := by
  obtain ⟨u, m, mem, rfl, lodged⟩ := h.first.unit_of_path found
  obtain ⟨u', m', mem', same, lodged'⟩ := h.second.unit_of_path found'
  have known : u' ∈ ps.map (·.1) := by
    rw [h.first.units, h.perm.mem_iff, ← h.second.units]
    exact List.mem_map.mpr ⟨_, mem', rfl⟩
  obtain ⟨⟨v, s⟩, memv, same'⟩ := List.mem_map.mp known
  have same' : v = u' := same'
  subst same'
  obtain ⟨_, lodgedv⟩ := h.first.lodges _ memv
  have path := lodgedv.path
  rw [same, found] at path
  cases path
  have pair := List.inj_on_of_nodup_map h.first.nodup mem memv rfl
  cases pair
  exact ⟨u, m, m', mem, mem', rfl, lodged, lodged'⟩

/-- Each unit is found by its path in both runs. -/
theorem Twice.unit (h : Twice units units' ps ps' b b') (known : u ∈ units) :
    ∃ t t' m m', (u, t) ∈ ps ∧ (u, t') ∈ ps' ∧ Lodges b u t m ∧ Lodges b' u t' m' := by
  have first := known
  have second := h.perm.mem_iff.mp known
  rw [← h.first.units] at first
  rw [← h.second.units] at second
  obtain ⟨⟨v, t⟩, mem, same⟩ := List.mem_map.mp first
  obtain ⟨⟨v', t'⟩, mem', same'⟩ := List.mem_map.mp second
  have same : v = u := same
  have same' : v' = u := same'
  subst same same'
  obtain ⟨m, lodged⟩ := h.first.lodges _ mem
  obtain ⟨m', lodged'⟩ := h.second.lodges _ mem'
  exact ⟨t, t', m, m', mem, mem', lodged, lodged'⟩

theorem Twice.declared_scope_range (h : Twice units units' ps ps' b b')
    (paired : (declaredPairing b b').scope σ σ') :
    σ < b.arena.scopes.size ∧ σ' < b'.arena.scopes.size := by
  have known := h.first.opening.known
  have known' := h.second.opening.known
  rcases paired with ⟨rfl, rfl | rfl⟩ | ⟨path, t, t', found, found', rooms⟩
  · exact ⟨Nat.zero_lt_of_lt known, Nat.zero_lt_of_lt known'⟩
  · exact ⟨known, known'⟩
  · obtain ⟨u, m, m', -, -, -, lodged, lodged'⟩ := h.unit_of_path found found'
    exact ⟨lodged.hosted.created σ rooms.houses.1, lodged'.hosted.created σ' rooms.houses.2⟩

theorem Twice.declared_symbol_range (h : Twice units units' ps ps' b b')
    (paired : (declaredPairing b b').symbol t t') :
    t < b.arena.symbols.size ∧ t' < b'.arena.symbols.size := by
  obtain ⟨σ, name, outermost, found, found'⟩ := paired
  exact ⟨(h.first.declared outermost found).1, (h.second.declared outermost found').1⟩

/-- A symbol has been declared in one scope under one name. -/
theorem Prepared.declared_inj (h : Prepared units ps b) {name name₂ : String}
    (outermost : σ = Analysis.globalScope ∨ σ = Analysis.unitsScope)
    (outermost₂ : τ = Analysis.globalScope ∨ τ = Analysis.unitsScope)
    (found : (b.arena.scope σ).get? name = some t)
    (found₂ : (b.arena.scope τ).get? name₂ = some t) :
    σ = τ ∧ name = name₂ := by
  obtain ⟨-, home, called⟩ := h.declared outermost found
  obtain ⟨-, home₂, called₂⟩ := h.declared outermost₂ found₂
  exact ⟨home.symm.trans home₂, called.symm.trans called₂⟩

/-- A scope belongs to a unit of one path. -/
theorem Prepared.path_of_houses (h : Prepared units ps b) {path path₂ : String}
    (found : (b.arena.scope Analysis.unitsScope).get? path = some t)
    (found₂ : (b.arena.scope Analysis.unitsScope).get? path₂ = some t₂) (houses : b.Houses t σ)
    (houses₂ : b.Houses t₂ σ) : path = path₂ := by
  obtain ⟨u, m, mem, -, -⟩ := h.unit_of_path found
  obtain ⟨u₂, m₂, mem₂, -, -⟩ := h.unit_of_path found₂
  have owner : t = t₂ := (h.vacant mem).owner (h.vacant mem₂) houses houses₂
  subst owner
  exact (h.declared_inj (.inr rfl) (.inr rfl) found found₂).2

/-- The scopes of a unit come after that of all units in both runs. -/
theorem Twice.later_of_rooms (h : Twice units units' ps ps' b b') {path : String}
    (found : (b.arena.scope Analysis.unitsScope).get? path = some t)
    (found' : (b'.arena.scope Analysis.unitsScope).get? path = some t')
    (rooms : Rooms b b' t t' σ σ') : Analysis.unitsScope < σ ∧ Analysis.unitsScope < σ' := by
  obtain ⟨u, m, m', -, -, -, lodged, lodged'⟩ := h.unit_of_path found found'
  exact ⟨lodged.later_of_houses rooms.houses.1, lodged'.later_of_houses rooms.houses.2⟩

/-- What has been declared stands for each other one to one. -/
theorem Twice.declared_once (h : Twice units units' ps ps' b b') :
    (declaredPairing b b').OneToOne := by
  have outer : ∀ {σ : Nat}, σ = Analysis.globalScope ∨ σ = Analysis.unitsScope → ∀ {τ : Nat},
      Analysis.unitsScope < τ → σ ≠ τ := by
    rintro σ (rfl | rfl) τ later
    · exact Nat.ne_of_lt (Nat.zero_lt_of_lt later)
    · exact Nat.ne_of_lt later
  constructor
  · rintro σ σ' τ τ' (⟨rfl, out⟩ | ⟨path, t, t', found, found', rooms⟩)
      (⟨rfl, out'⟩ | ⟨path₂, s, s', foundS, foundS', rooms₂⟩)
    · exact Iff.rfl
    · have later := h.later_of_rooms foundS foundS' rooms₂
      exact iff_of_false (outer out later.1) (outer out later.2)
    · have later := h.later_of_rooms found found' rooms
      exact iff_of_false (outer out' later.1).symm (outer out' later.2).symm
    · by_cases same : path = path₂
      · subst same
        cases found.symm.trans foundS
        cases found'.symm.trans foundS'
        obtain ⟨u, m, m', mem, mem', -⟩ := h.unit_of_path found found'
        have vacant := h.first.vacant mem
        have vacant' := h.second.vacant mem'
        exact rooms.eq_iff vacant vacant' rooms₂
      · refine iff_of_false (fun shared => same ?_) fun shared => same ?_
        · exact h.first.path_of_houses found foundS rooms.houses.1 (shared ▸ rooms₂.houses.1)
        · exact h.second.path_of_houses found' foundS' rooms.houses.2 (shared ▸ rooms₂.houses.2)
  · rintro s s' t t' ⟨σ, name, out, found, found'⟩ ⟨τ, name₂, out₂, foundT, foundT'⟩
    constructor
    · rintro rfl
      obtain ⟨rfl, rfl⟩ := h.first.declared_inj out out₂ found foundT
      exact Option.some.inj (found'.symm.trans foundT')
    · rintro rfl
      obtain ⟨rfl, rfl⟩ := h.second.declared_inj out out₂ found' foundT'
      exact Option.some.inj (found.symm.trans foundT)

/-- Every scope that was created before the visits stands for one of the other run. -/
theorem Twice.exists_declared_scope (h : Twice units units' ps ps' b b')
    (known : σ < b.arena.scopes.size) : ∃ σ', (declaredPairing b b').scope σ σ' := by
  rcases h.first.opening.scopes σ known with rfl | rfl | ⟨u, mem, t, found, owns⟩
  · exact ⟨_, .inl ⟨rfl, .inl rfl⟩⟩
  · exact ⟨_, .inl ⟨rfl, .inr rfl⟩⟩
  · obtain ⟨s, t', m, m', -, -, lodged, lodged'⟩ := h.unit mem
    have path := lodged.path
    rw [found] at path
    cases path
    rcases owns with members | exports
    · exact ⟨m', .inr ⟨u.path, t, t', found, lodged'.path, .inl ⟨members, lodged'.members⟩⟩⟩
    · obtain ⟨e, he, -⟩ := lodged'.exports (lodged.shows exports).1
      exact ⟨e, .inr ⟨u.path, t, t', found, lodged'.path, .inr ⟨exports, he⟩⟩⟩

/-- Every symbol that was declared before the visits stands for one of the other run. -/
theorem Twice.exists_declared_symbol (h : Twice units units' ps ps' b b')
    (known : t < b.arena.symbols.size) : ∃ t', (declaredPairing b b').symbol t t' := by
  obtain ⟨u, mem, found⟩ := h.first.opening.symbols t known
  obtain ⟨s, t', m, m', -, -, lodged, lodged'⟩ := h.unit mem
  rcases found with found | ⟨name, called, found⟩
  · exact ⟨t', _, u.path, .inr rfl, found, lodged'.path⟩
  · obtain ⟨g, -, found', -⟩ := lodged'.global name called
    exact ⟨g, _, name, .inl rfl, found, found'⟩

end Declared

/-! ## What has been visited -/

/-- A unit is visited in both runs. -/
structure BothVisit (ps ps' : List (SourceUnit × SymbolId)) (b b' final final' : Building)
    (u : SourceUnit) (t t' : SymbolId) (c c' d d' : Building) : Prop where
  first : Visit ps b final u t c d
  second : Visit ps' b' final' u t' c' d'

/-- The numbers are given out in both runs as the same one counted from the beginning of a visit. -/
def Counterparts (ps ps' : List (SourceUnit × SymbolId)) (b b' final final' : Building)
    (size : Building → Nat) (n n' : Nat) : Prop :=
  ∃ u t t' c c' d d', BothVisit ps ps' b b' final final' u t t' c c' d d' ∧
    ∃ i, n = size c + i ∧ n' = size c' + i ∧ n < size d

/-- Which numbers stand for each other after all visits. -/
def visitedPairing (ps ps' : List (SourceUnit × SymbolId))
    (b b' final final' : Building) : Pairing where
  scope σ σ' := (declaredPairing b b').scope σ σ' ∨
    Counterparts ps ps' b b' final final' (fun c => c.arena.scopes.size) σ σ'
  symbol t t' := (declaredPairing b b').symbol t t' ∨
    Counterparts ps ps' b b' final final' (fun c => c.arena.symbols.size) t t'

/-- A number that grows in each visit as much as in the visit of the same unit in the other run. -/
structure Counts (ps ps' : List (SourceUnit × SymbolId)) (b b' final final' : Building)
    (size : Building → Nat) : Prop where
  grows : ∀ {S c d}, Frame S c d → size c ≤ size d
  same : ∀ {u t t' c c' d d'}, BothVisit ps ps' b b' final final' u t t' c c' d d' →
    size d + size c' = size d' + size c

section Visited

variable {v v' : PUnit} {size : Building → Nat} {n n' m m' : Nat}

theorem Twice.counts_scopes (h : Twice units units' ps ps' b b') :
    Counts ps ps' b b' final final' fun c => c.arena.scopes.size :=
  ⟨Frame.moreScopes, fun both => (h.abreast both.first both.second).arena.sameScopes⟩

theorem Twice.counts_symbols (h : Twice units units' ps ps' b b') :
    Counts ps ps' b b' final final' fun c => c.arena.symbols.size :=
  ⟨Frame.moreSymbols, fun both => (h.abreast both.first both.second).arena.sameSymbols⟩

theorem Counterparts.flip (counts : Counts ps ps' b b' final final' size)
    (h : Counterparts ps ps' b b' final final' size n n') :
    Counterparts ps' ps b' b final' final size n' n := by
  obtain ⟨u, t, t', c, c', d, d', both, i, rfl, rfl, within⟩ := h
  have same := counts.same both
  exact ⟨u, t', t, c', c, d', d, ⟨both.second, both.first⟩, i, rfl, rfl, by omega⟩

/-- What is given out during visits was not there before, and is there afterwards. -/
theorem Counterparts.range (h : Prepared units ps b) (counts : Counts ps ps' b b' final final' size)
    (paired : Counterparts ps ps' b b' final final' size n n') : size b ≤ n ∧ n < size final := by
  obtain ⟨u, t, t', c, c', d, d', both, i, rfl, rfl, within⟩ := paired
  have between := both.first.between h
  obtain ⟨S, ids, before, -⟩ := between.before
  obtain ⟨S', ids', after, -⟩ := between.after
  have := counts.grows before
  have := counts.grows after
  omega

/-- The visits of different units give out different numbers. -/
theorem Counterparts.eq_iff (h : Twice units units' ps ps' b b')
    (counts : Counts ps ps' b b' final final' size)
    (paired : Counterparts ps ps' b b' final final' size n n')
    (paired' : Counterparts ps ps' b b' final final' size m m') : n = m ↔ n' = m' := by
  obtain ⟨u, t, t', c, c', d, d', both, i, rfl, rfl, within⟩ := paired
  obtain ⟨u₂, t₂, t₂', c₂, c₂', d₂, d₂', both₂, j, rfl, rfl, within₂⟩ := paired'
  have same := counts.same both
  have same₂ := counts.same both₂
  rcases both.first.order h.first both₂.first with ⟨rfl, rfl, rfl, rfl⟩ | ⟨other, order⟩
  · rcases both.second.order h.second both₂.second with ⟨-, rfl, rfl, rfl⟩ | ⟨other, -⟩
    · omega
    · exact absurd rfl other
  · rcases both.second.order h.second both₂.second with ⟨hu, -⟩ | ⟨-, order'⟩
    · exact absurd hu other
    · refine iff_of_false ?_ ?_
      · rcases order with ⟨S, frame⟩ | ⟨S, frame⟩
        · have := counts.grows frame
          omega
        · have := counts.grows frame
          omega
      · rcases order' with ⟨S, frame⟩ | ⟨S, frame⟩
        · have := counts.grows frame
          omega
        · have := counts.grows frame
          omega

/-- What is given out in one run is given out in the other run. -/
theorem Twice.exists_counterpart (h : Twice units units' ps ps' b b')
    (run : visitUnits ps b = .ok (v, final)) (run' : visitUnits ps' b' = .ok (v', final'))
    (size : Building → Nat) (known : n < size final) :
    n < size b ∨ ∃ n', Counterparts ps ps' b b' final final' size n n' := by
  refine (exists_visit_of (n < size ·) run known).imp_right
    fun ⟨u, t, c, d, visit, least, within⟩ => ?_
  obtain ⟨before, after, split, -⟩ := visit.around
  have mem : (u, t) ∈ ps := split ▸ List.mem_append_right _ (List.mem_cons_self ..)
  obtain ⟨s, t', -, -, -, mem', -⟩ := h.unit (h.first.units ▸ List.mem_map.mpr ⟨_, mem, rfl⟩)
  obtain ⟨c', d', visit'⟩ := exists_visit run' mem'
  exact ⟨size c' + (n - size c), u, t, t', c, c', d, d', ⟨visit, visit'⟩,
    n - size c, by omega, rfl, within⟩

/-- Numbers given out before all visits and numbers given out during visits are apart. -/
theorem Twice.eq_iff_of_parts (h : Twice units units' ps ps' b b')
    (counts : Counts ps ps' b b' final final' size) {R : Nat → Nat → Prop}
    (old : ∀ {n n'}, R n n' → n < size b ∧ n' < size b')
    (once : ∀ {n n' m m'}, R n n' → R m m' → (n = m ↔ n' = m'))
    (paired : R n n' ∨ Counterparts ps ps' b b' final final' size n n')
    (paired' : R m m' ∨ Counterparts ps ps' b b' final final' size m m') : n = m ↔ n' = m' := by
  have new : ∀ {n n'}, Counterparts ps ps' b b' final final' size n n' →
      size b ≤ n ∧ size b' ≤ n' := by
    intro n n' both
    refine ⟨(both.range h.first counts).1, ?_⟩
    exact ((both.flip counts).range h.second
      ⟨counts.grows, fun both => (counts.same ⟨both.second, both.first⟩).symm⟩).1
  rcases paired with paired | paired
  · rcases paired' with paired' | paired'
    · exact once paired paired'
    · have := old paired
      have := new paired'
      omega
  · rcases paired' with paired' | paired'
    · have := new paired
      have := old paired'
      omega
    · exact paired.eq_iff h counts paired'

/-- All numbers stand for each other one to one. -/
theorem Twice.visited_once (h : Twice units units' ps ps' b b') :
    (visitedPairing ps ps' b b' final final').OneToOne where
  scope := h.eq_iff_of_parts h.counts_scopes h.declared_scope_range h.declared_once.scope
  symbol := h.eq_iff_of_parts h.counts_symbols h.declared_symbol_range h.declared_once.symbol

/-- The scopes of units are as the visits of these units left them, and so is what these created. -/
theorem Between.scope (between : Between b u t c d final) {σ : Nat}
    (mine : b.Houses t σ ∨ c.arena.scopes.size ≤ σ) (known : σ < d.arena.scopes.size) :
    final.arena.scope σ = d.arena.scope σ := by
  obtain ⟨S, ids, after, -, old, apart, -⟩ := between.after
  obtain ⟨S', ids', before, -⟩ := between.before
  refine after.scope σ known fun other => ?_
  rcases mine with houses | new
  · exact apart σ houses other
  · exact Nat.not_lt.mpr (Nat.le_trans before.moreScopes new) (old σ other)

/-- What stands for each other during a visit does so in the end, if it has been given out. -/
theorem BothVisit.covers (both : BothVisit ps ps' b b' final final' u t t' c c' d d') :
    (twins c c' (declaredPairing b b') t t').pairing.Covers
      (visitedPairing ps ps' b b' final final') d.arena where
  scope _ _ known paired := paired.imp_right fun ⟨i, first, second⟩ =>
    ⟨u, t, t', c, c', d, d', both, i, first, second, known⟩
  symbol _ _ known paired := paired.imp_right fun ⟨i, first, second⟩ =>
    ⟨u, t, t', c, c', d, d', both, i, first, second, known⟩

theorem Between.inRange (between : Between b u t c d final) : d.arena.InRange :=
  between.formed.arena.inRange between.tabled

theorem Visit.mem (visit : Visit ps b final u t c d) : (u, t) ∈ ps := by
  obtain ⟨before, after, split, -⟩ := visit.around
  exact split ▸ List.mem_append_right _ (List.mem_cons_self ..)

/-- What stands for each other when a unit is about to be visited in both runs. -/
theorem BothVisit.rooted (h : Twice units units' ps ps' b b')
    (both : BothVisit ps ps' b b' final final' u t t' c c' d d') :
    Rooted₂ (declaredPairing b b') c c' t t' := by
  obtain ⟨S, ids, frame, -⟩ := (both.first.between h.first).before
  obtain ⟨S', ids', frame', -⟩ := (both.second.between h.second).before
  exact h.rooted both.first.mem both.second.mem frame frame'

theorem BothVisit.proper (h : Twice units units' ps ps' b b')
    (both : BothVisit ps ps' b b' final final' u t t' c c' d d') :
    (twins c c' (declaredPairing b b') t t').Proper :=
  twins_proper (both.first.between h.first).vacant (both.second.between h.second).vacant
    (both.rooted h)

/-- What a visit leaves of a scope is alike in both runs. -/
theorem BothVisit.alike_scope (h : Twice units units' ps ps' b b')
    (both : BothVisit ps ps' b b' final final' u t t' c c' d d') {σ σ' : Nat}
    (paired : (twins c c' (declaredPairing b b') t t').Open σ σ')
    (known : σ < d.arena.scopes.size) :
    (final.arena.scope σ).Alike (visitedPairing ps ps' b b' final final')
      (final'.arena.scope σ') := by
  have abreast := h.abreast both.first both.second
  have between := both.first.between h.first
  have between' := both.second.between h.second
  have known' := (abreast.arena.open_lt_iff (both.proper h) paired).mp known
  have alike := (abreast.arena.scope σ σ' paired known).covered between.inRange both.covers
  have mine : (b.Houses t σ ∨ c.arena.scopes.size ≤ σ) ∧
      (b'.Houses t' σ' ∨ c'.arena.scopes.size ≤ σ') := by
    rcases paired with rooms | ⟨i, rfl, rfl⟩
    · obtain ⟨S, ids, frame, -⟩ := between.before
      obtain ⟨S', ids', frame', -⟩ := between'.before
      have houses := rooms.houses
      rw [frame.houses (h.first.vacant both.first.mem).known,
        frame'.houses (h.second.vacant both.second.mem).known] at houses
      exact ⟨.inl houses.1, .inl houses.2⟩
    · exact ⟨.inr (Nat.le_add_right ..), .inr (Nat.le_add_right ..)⟩
  rw [between.scope mine.1 known, between'.scope mine.2 known']
  exact alike

/-- What a visit declares is alike in both runs. -/
theorem BothVisit.alike_symbol (h : Twice units units' ps ps' b b')
    (both : BothVisit ps ps' b b' final final' u t t' c c' d d') {s s' : Nat}
    (paired : (twins c c' (declaredPairing b b') t t').NewSymbol s s')
    (known : s < d.arena.symbols.size) :
    (final.arena.symbol s).Alike (visitedPairing ps ps' b b' final final')
      (final'.arena.symbol s') := by
  have abreast := h.abreast both.first both.second
  have between := both.first.between h.first
  have between' := both.second.between h.second
  obtain ⟨_, _, after, -⟩ := between.after
  obtain ⟨_, _, after', -⟩ := between'.after
  have alike := (abreast.arena.symbol s s' paired known).covered between.inRange both.covers known
  have same := abreast.arena.sameSymbols
  have known' : s' < d'.arena.symbols.size := by
    obtain ⟨i, rfl, rfl⟩ := paired
    have known : c.arena.symbols.size + i < d.arena.symbols.size := known
    have same : d.arena.symbols.size + c'.arena.symbols.size =
      d'.arena.symbols.size + c.arena.symbols.size := same
    show c'.arena.symbols.size + i < _
    omega
  rw [after.symbol s known, after'.symbol s' known']
  exact alike

/-- All visits together leave alone what has been declared, apart from the scopes of units. -/
theorem Prepared.frame (h : Prepared units ps b) (run : visitUnits ps b = .ok (v, final)) :
    Frame (fun σ => ∃ p ∈ ps, b.Houses p.2 σ) b final :=
  (h.segment (Frame.refl h.opening.strict : Frame (fun _ => False) b b) (Steps.refl : Steps [] b b)
    (List.Subset.refl _) run).1

/-- No unit owns one of the two outermost scopes. -/
theorem Prepared.outermost_apart (h : Prepared units ps b) {σ : ScopeId}
    (outermost : σ = Analysis.globalScope ∨ σ = Analysis.unitsScope) :
    ¬ ∃ p ∈ ps, b.Houses p.2 σ := by
  rintro ⟨p, mem, houses⟩
  obtain ⟨m, lodged⟩ := h.lodges p mem
  have later := lodged.later_of_houses houses
  rcases outermost with rfl | rfl
  · exact absurd later (by decide)
  · exact Nat.lt_irrefl _ later

/-- A name that has been declared in one run has been declared in the other. -/
theorem Twice.exists_declared_name (h : Twice units units' ps ps' b b') {σ : ScopeId}
    {name : String} (outermost : σ = Analysis.globalScope ∨ σ = Analysis.unitsScope)
    (found : (b.arena.scope σ).get? name = some t) :
    ∃ t', (b'.arena.scope σ).get? name = some t' := by
  rcases outermost with rfl | rfl
  · obtain ⟨u, mem, called⟩ := h.first.opening.names name t found
    obtain ⟨s, t', m, m', -, -, -, lodged'⟩ := h.unit mem
    obtain ⟨g, -, found', -⟩ := lodged'.global name called
    exact ⟨g, found'⟩
  · obtain ⟨u, mem, rfl⟩ := h.first.opening.paths name t found
    obtain ⟨s, t', m, m', -, -, -, lodged'⟩ := h.unit mem
    exact ⟨t', lodged'.path⟩

/-- The outermost scopes are alike. -/
theorem Twice.alike_outermost (h : Twice units units' ps ps' b b')
    (run : visitUnits ps b = .ok (v, final)) (run' : visitUnits ps' b' = .ok (v', final'))
    {σ : ScopeId} (outermost : σ = Analysis.globalScope ∨ σ = Analysis.unitsScope) :
    (final.arena.scope σ).Alike (visitedPairing ps ps' b b' final final')
      (final'.arena.scope σ) := by
  have known : ∀ {c : Building} {us : UnitSet}, Opening c us → (σ : Nat) < c.arena.scopes.size := by
    intro c us opening
    rcases outermost with rfl | rfl
    · exact Nat.zero_lt_of_lt opening.known
    · exact opening.known
  rw [(h.first.frame run).scope σ (known h.first.opening) (h.first.outermost_apart outermost),
    (h.second.frame run').scope σ (known h.second.opening) (h.second.outermost_apart outermost)]
  have same := h.first.outermost σ outermost
  have same' := h.second.outermost σ outermost
  refine ⟨?_, ?_, same.ordered.trans same'.ordered.symm, fun name => ?_, fun global units => ?_⟩
  · rw [same.kind, same'.kind]
    rcases outermost with rfl | rfl
    · exact .global
    · exact .units
  · rw [same.enclosing, same'.enclosing]
    rcases outermost with rfl | rfl
    · exact .none
    · exact .some (.inl (.inl ⟨rfl, .inl rfl⟩))
  · cases found : (b.arena.scope σ).get? name with
    | some t =>
      obtain ⟨t', found'⟩ := h.exists_declared_name outermost found
      rw [found']
      exact .some (.inl ⟨σ, name, outermost, found, found'⟩)
    | none =>
      cases found' : (b'.arena.scope σ).get? name with
      | none => exact .none
      | some t' =>
        obtain ⟨t, found''⟩ := h.flip.exists_declared_name outermost found'
        rw [found] at found''
        cases found''
  · rw [same.kind] at global units
    rcases outermost with rfl | rfl
    · exact absurd rfl global
    · exact absurd rfl units

/-- The symbols of a unit that has been declared in two runs are alike. -/
theorem Lodges.alike {ρ : Pairing} {m m' : ScopeId} (lodged : Lodges b u t m)
    (lodged' : Lodges b' u t' m') (home : ρ.scope Analysis.unitsScope Analysis.unitsScope)
    (rooms : ∀ σ σ', Rooms b b' t t' σ σ' → ρ.scope σ σ') :
    (b.arena.symbol t).Alike ρ (b'.arena.symbol t') := by
  have declared : (b.arena.symbol t).toDeclaration = (b'.arena.symbol t').toDeclaration :=
    lodged.declared.trans lodged'.declared.symm
  have direct : (b.arena.symbol t).binding = .direct := by
    obtain ⟨target, same, -⟩ := unitDeclaration_eq u
    exact (congrArg Declaration.binding lodged.declared).trans (congrArg Declaration.binding same)
  refine ⟨⟨congrArg Declaration.name declared, ?_, congrArg Declaration.target declared,
    congrArg Declaration.node declared, congrArg Declaration.ty declared,
    congrArg Declaration.exported declared⟩, ?_, ?_, ?_, ?_⟩
  · rw [← congrArg Declaration.binding declared, direct]
    exact .direct
  · rw [lodged.home, lodged'.home]
    exact home
  · rw [lodged.members, lodged'.members]
    exact .some (rooms _ _ (.inl ⟨lodged.members, lodged'.members⟩))
  · cases hm : u.kind.isModule with
    | false =>
      rw [lodged.closed hm, lodged'.closed hm]
      exact .none
    | true =>
      obtain ⟨e, he, -⟩ := lodged.exports hm
      obtain ⟨e', he', -⟩ := lodged'.exports hm
      rw [he, he']
      exact .some (rooms _ _ (.inr ⟨he, he'⟩))
  · rw [lodged.unresolved, lodged'.unresolved]
    exact .none

/-- The symbols of units and global names are alike. -/
theorem Twice.alike_declared (h : Twice units units' ps ps' b b')
    (run : visitUnits ps b = .ok (v, final)) (run' : visitUnits ps' b' = .ok (v', final'))
    (paired : (declaredPairing b b').symbol t t') :
    (final.arena.symbol t).Alike (visitedPairing ps ps' b b' final final')
      (final'.arena.symbol t') := by
  obtain ⟨known, known'⟩ := h.declared_symbol_range paired
  rw [(h.first.frame run).symbol t known, (h.second.frame run').symbol t' known']
  obtain ⟨σ, name, rfl | rfl, found, found'⟩ := paired
  · obtain ⟨u, mem, called⟩ := h.first.opening.names name t found
    obtain ⟨_, _, m, m', -, -, lodged, lodged'⟩ := h.unit mem
    obtain ⟨g, slot, foundG, -, symbol, -⟩ := lodged.global name called
    obtain ⟨g', slot', foundG', -, symbol', -⟩ := lodged'.global name called
    rw [found] at foundG
    rw [found'] at foundG'
    cases foundG
    cases foundG'
    rw [symbol, symbol']
    exact ⟨⟨rfl, .moduleImport u.path, rfl, rfl, rfl, rfl⟩, .inl (.inl ⟨rfl, .inl rfl⟩), .none,
      .none, .none⟩
  · obtain ⟨u, m, m', mem, mem', rfl, lodged, lodged'⟩ := h.unit_of_path found found'
    exact lodged.alike lodged' (.inl (.inl ⟨rfl, .inr rfl⟩)) fun σ σ' rooms =>
      .inl (.inr ⟨u.path, t, t', found, found', rooms⟩)

/-- Every unit is visited in both runs. -/
theorem Twice.exists_both (h : Twice units units' ps ps' b b')
    (run : visitUnits ps b = .ok (v, final)) (run' : visitUnits ps' b' = .ok (v', final'))
    (known : u ∈ units) :
    ∃ t t' c c' d d', BothVisit ps ps' b b' final final' u t t' c c' d d' := by
  obtain ⟨t, t', -, -, mem, mem', -⟩ := h.unit known
  obtain ⟨c, d, visit⟩ := exists_visit run mem
  obtain ⟨c', d', visit'⟩ := exists_visit run' mem'
  exact ⟨t, t', c, c', d, d', visit, visit'⟩

/-- Scopes that stand for each other are alike. -/
theorem Twice.alike_scope (h : Twice units units' ps ps' b b')
    (run : visitUnits ps b = .ok (v, final)) (run' : visitUnits ps' b' = .ok (v', final'))
    {σ σ' : ScopeId} (paired : (visitedPairing ps ps' b b' final final').scope σ σ') :
    (final.arena.scope σ).Alike (visitedPairing ps ps' b b' final final')
      (final'.arena.scope σ') := by
  rcases paired with (⟨rfl, outermost⟩ | ⟨path, t, t', found, found', rooms⟩) | paired
  · exact h.alike_outermost run run' outermost
  · obtain ⟨u, m, m', mem, mem', rfl, lodged, lodged'⟩ := h.unit_of_path found found'
    obtain ⟨c, d, visit⟩ := exists_visit run mem
    obtain ⟨c', d', visit'⟩ := exists_visit run' mem'
    have both : BothVisit ps ps' b b' final final' u t t' c c' d d' := ⟨visit, visit'⟩
    have between := visit.between h.first
    obtain ⟨S, ids, frame, -⟩ := between.before
    obtain ⟨S', ids', frame', -⟩ := (visit'.between h.second).before
    refine both.alike_scope h (.inl ?_) ?_
    · show Rooms c c' t t' σ σ'
      rw [Rooms, frame.symbol t lodged.known, frame'.symbol t' lodged'.known]
      exact rooms
    · exact Nat.lt_of_lt_of_le (lodged.hosted.created σ rooms.houses.1)
        (Nat.le_trans frame.moreScopes between.here.1.moreScopes)
  · obtain ⟨u, t, t', c, c', d, d', both, i, first, second, known⟩ := paired
    exact both.alike_scope h (.inr ⟨i, first, second⟩) known

/-- Symbols that stand for each other are alike. -/
theorem Twice.alike_symbol (h : Twice units units' ps ps' b b')
    (run : visitUnits ps b = .ok (v, final)) (run' : visitUnits ps' b' = .ok (v', final'))
    (paired : (visitedPairing ps ps' b b' final final').symbol t t') :
    (final.arena.symbol t).Alike (visitedPairing ps ps' b b' final final')
      (final'.arena.symbol t') := by
  rcases paired with paired | ⟨u, s, s', c, c', d, d', both, i, first, second, known⟩
  · exact h.alike_declared run run' paired
  · exact both.alike_symbol h ⟨i, first, second⟩ known

theorem Counterparts.flip_iff (counts : Counts ps ps' b b' final final' size)
    (counts' : Counts ps' ps b' b final' final size) :
    Counterparts ps ps' b b' final final' size n n' ↔
      Counterparts ps' ps b' b final' final size n' n :=
  ⟨fun both => both.flip counts, fun both => both.flip counts'⟩

theorem Twice.visitedPairing_flip (h : Twice units units' ps ps' b b') :
    (visitedPairing ps ps' b b' final final').flip = visitedPairing ps' ps b' b final' final := by
  unfold visitedPairing Pairing.flip
  rw [← declaredPairing_flip (b := b)]
  congr 1
  · funext σ' σ
    exact congrArg _ (propext (Counterparts.flip_iff h.counts_scopes h.flip.counts_scopes))
  · funext t' t
    exact congrArg _ (propext (Counterparts.flip_iff h.counts_symbols h.flip.counts_symbols))

/-- All numbers of the first run stand for numbers of the second one. -/
theorem Twice.total (h : Twice units units' ps ps' b b')
    (run : visitUnits ps b = .ok (v, final)) (run' : visitUnits ps' b' = .ok (v', final')) :
    (∀ σ : Nat, σ < final.arena.scopes.size →
      ∃ σ', (visitedPairing ps ps' b b' final final').scope σ σ') ∧
    ∀ t : Nat, t < final.arena.symbols.size →
      ∃ t', (visitedPairing ps ps' b b' final final').symbol t t' := by
  refine ⟨fun σ known => ?_, fun t known => ?_⟩
  · rcases h.exists_counterpart run run' (fun c => c.arena.scopes.size) known with old | ⟨σ', both⟩
    · exact (h.exists_declared_scope old).imp fun _ => .inl
    · exact ⟨σ', .inr both⟩
  · rcases h.exists_counterpart run run' (fun c => c.arena.symbols.size) known with old | ⟨t', both⟩
    · exact (h.exists_declared_symbol old).imp fun _ => .inl
    · exact ⟨t', .inr both⟩

/-- Only numbers that have been given out stand for others. -/
theorem Twice.range (h : Twice units units' ps ps' b b') (run : visitUnits ps b = .ok (v, final))
    (final' : Building) :
    (∀ σ σ' : Nat, (visitedPairing ps ps' b b' final final').scope σ σ' →
      σ < final.arena.scopes.size) ∧
    ∀ t t' : Nat, (visitedPairing ps ps' b b' final final').symbol t t' →
      t < final.arena.symbols.size := by
  have frame := h.first.frame run
  refine ⟨fun σ σ' paired => ?_, fun t t' paired => ?_⟩
  · rcases paired with paired | paired
    · exact Nat.lt_of_lt_of_le (h.declared_scope_range paired).1 frame.moreScopes
    · exact (paired.range h.first h.counts_scopes).2
  · rcases paired with paired | paired
    · exact Nat.lt_of_lt_of_le (h.declared_symbol_range paired).1 frame.moreSymbols
    · exact (paired.range h.first h.counts_symbols).2

/-- **The arenas of two runs differ in numbers only.** -/
theorem Twice.renumbers (h : Twice units units' ps ps' b b')
    (run : visitUnits ps b = .ok (v, final)) (run' : visitUnits ps' b' = .ok (v', final')) :
    final.arena.Renumbers (visitedPairing ps ps' b b' final final') final'.arena := by
  have flip : (visitedPairing ps ps' b b' final final').flip = _ := h.visitedPairing_flip
  have total' := h.flip.total run' run
  have range' := h.flip.range run' final
  rw [← flip] at total' range'
  exact
    { alike := ⟨fun _ _ => h.alike_scope run run', fun _ _ => h.alike_symbol run run'⟩
      once := h.visited_once
      scope := (h.total run run').1
      scope' := total'.1
      symbol := (h.total run run').2
      symbol' := total'.2
      scopeRange := fun σ σ' paired => ⟨(h.range run final').1 σ σ' paired, range'.1 σ' σ paired⟩
      symbolRange := fun t t' paired => ⟨(h.range run final').2 t t' paired, range'.2 t' t paired⟩ }

end Visited

end Build

end CellScript
