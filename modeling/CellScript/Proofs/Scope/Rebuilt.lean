import CellScript.Proofs.Scope.Transport

/-!
# The first pass in another order

After the first pass over the same units in another order the tables hold the same entries under
other numbers, and the same references wait. How many symbols had been declared when a reference was
met depends on the order, but not which of the names around the reference were among them.

* `Build.Listed` — what the tables hold exists
* `Building.Rebuilt` — two states that differ in numbers only
* `buildScopes_perm` — the first pass over units in another order
-/

namespace CellScript

namespace Build

variable {ids : List NodeId} {b b' c c' d d' final final' : Building} {u : SourceUnit}
  {t t' : SymbolId} {ps ps' : List (SourceUnit × SymbolId)} {units units' : UnitSet} {v v' : PUnit}

/-! ## What the tables hold exists -/

/-- The numbers that are entered denote scopes and symbols. -/
structure Listed (b : Building) : Prop where
  created : ∀ n σ, b.analysis.createdScopes.get? n = some σ → b.HasScope σ
  definitions : ∀ n t, b.analysis.definitions.get? n = some t → t < b.arena.symbols.size

/-- Only two kinds of entries are made: the scope that has just been created, and the symbol that
has just been declared. -/
theorem Step.entries (step : Step ids b b') :
    (∀ n σ, b'.analysis.createdScopes.get? n = some σ →
      b.analysis.createdScopes.get? n = some σ ∨ b'.HasScope σ) ∧
    ∀ n t, b'.analysis.definitions.get? n = some t →
      b.analysis.definitions.get? n = some t ∨ t < b'.arena.symbols.size := by
  -- The entry made in a table is its latest one.
  have entered : ∀ (table : Table NodeId Nat) (node : NodeId) (i : Nat) (n : NodeId) (j : Nat),
      (table.insert node i).get? n = some j → table.get? n = some j ∨ j = i := by
    intro table node i n j found
    rw [Table.get?_insert] at found
    split at found
    · cases found
      exact .inr rfl
    · exact .inl found
  have new : ∀ {i j k : Nat}, j = i → k = i + 1 → j < k := fun hj hk => by omega
  cases step with
  | declare mem known free admits opened =>
    exact ⟨fun n σ => .inl, fun n t found => (entered _ _ _ n t found).imp_right
      fun same => new same (Arena.size_symbols_withDeclared ..)⟩
  | scope mem dynamic hosts =>
    exact ⟨fun n σ found => (entered _ _ _ n σ found).imp_right
      fun same => new same (Array.size_push ..), fun n t => .inl⟩
  | members mem declared own owning nested bare nests around =>
    exact ⟨fun n σ found => (entered _ _ _ n σ found).imp_right
      fun same => new same (Array.size_push ..), fun n t => .inl⟩
  | unit mem name declared own called owning home bare early =>
    exact ⟨fun n σ found => (entered _ _ _ n σ found).imp_right
      fun same => new same (Array.size_push ..), fun n t => .inl⟩
  | _ => exact ⟨fun n σ => .inl, fun n t => .inl⟩

theorem Step.listed (step : Step ids b b') (h : Listed b) : Listed b' := by
  have kept : Steps ids b b' := .single step
  refine ⟨fun n σ found => ?_, fun n t found => ?_⟩
  · exact (step.entries.1 n σ found).elim (fun old => kept.hasScope (h.created n σ old)) id
  · exact (step.entries.2 n t found).elim (fun old =>
      (kept.sameSymbol (h.definitions n t old)).1) id

theorem Steps.listed (s : Steps ids b b') (h : Listed b) : Listed b' :=
  s.preserve (fun _ _ => Step.listed) h

/-- What has been entered for units exists. -/
theorem Prepared.listed (h : Prepared units ps b) : Listed b := by
  refine ⟨fun n σ found => ?_, fun n t found => ?_⟩
  · obtain ⟨u, mem, rfl⟩ := h.opening.created n σ found
    obtain ⟨t, m, lodged⟩ := h.opening.unit u mem
    rw [lodged.node] at found
    cases found
    exact lodged.created
  · obtain ⟨u, mem, rfl | ⟨rfl, named⟩⟩ := h.opening.definitions n t found
    · obtain ⟨s, m, lodged⟩ := h.opening.unit u mem
      rw [lodged.definition] at found
      cases found
      exact lodged.known
    · obtain ⟨s, m, lodged⟩ := h.opening.unit u mem
      obtain ⟨name, called⟩ := Option.isSome_iff_exists.mp named
      obtain ⟨g, slot, -, known, -, entry⟩ := lodged.global name called
      rw [entry] at found
      cases found
      exact known

/-! ## The tables -/

/-- A table from nodes to numbers, which visits of a unit change only under the nodes of the
unit. -/
structure Tracked (table : Building → Table NodeId Nat) (numbers : Pairing → Nat → Nat → Prop)
    (size : Building → Nat) : Prop where
  same : ∀ {c d n}, SameEntries c d n → (table d).get? n = (table c).get? n
  listed : ∀ {c n i}, Listed c → (table c).get? n = some i → i < size c
  declared : ∀ {ps ps' b b' final final' i j}, numbers (declaredPairing b b') i j →
    numbers (visitedPairing ps ps' b b' final final') i j
  visited : ∀ {ps ps' b b' final final' u t t' c c' d d' i j},
    BothVisit ps ps' b b' final final' u t t' c c' d d' → i < size d →
    numbers (twins c c' (declaredPairing b b') t t').pairing i j →
    numbers (visitedPairing ps ps' b b' final final') i j

theorem tracked_created : Tracked (fun c => c.analysis.createdScopes) Pairing.scope
    fun c => c.arena.scopes.size where
  same h := h.created
  listed h := h.created _ _
  declared := .inl
  visited both known := both.covers.scope _ _ known

theorem tracked_definitions : Tracked (fun c => c.analysis.definitions) Pairing.symbol
    fun c => c.arena.symbols.size where
  same h := h.definition
  listed h := h.definitions _ _
  declared := .inl
  visited both known := both.covers.symbol _ _ known

section Entries

variable {table : Building → Table NodeId Nat} {numbers : Pairing → Nat → Nat → Prop}
  {size : Building → Nat} {n : NodeId}

/-- What is entered under the nodes of a unit is what its visit has entered. -/
theorem Tracked.between (tracked : Tracked table numbers size) (between : Between b u t c d final)
    (inside : n ∈ u.nodeIds) :
    (table final).get? n = (table d).get? n ∧ (table c).get? n = (table b).get? n := by
  obtain ⟨_, _, _, before, _, _, apart⟩ := between.before
  obtain ⟨_, _, _, after, _, _, apart'⟩ := between.after
  exact ⟨tracked.same (after.sameEntries fun other => apart' other inside),
    tracked.same (before.sameEntries fun other => apart other inside)⟩

/-- Visits enter nothing under other nodes. -/
theorem Tracked.outside (tracked : Tracked table numbers size) (h : Prepared units ps b)
    (run : visitUnits ps b = .ok (v, final)) (outside : ∀ u ∈ units, n ∉ u.nodeIds) :
    (table final).get? n = (table b).get? n := by
  have steps := (h.segment (Frame.refl h.opening.strict : Frame (fun _ => False) b b)
    (Steps.refl : Steps [] b b) (List.Subset.refl _) run).2
  refine tracked.same (steps.sameEntries fun mem => ?_)
  obtain ⟨p, hp, inside⟩ := List.mem_flatMap.mp mem
  exact outside p.1 (h.units ▸ List.mem_map.mpr ⟨p, hp, rfl⟩) inside

/-- A tracked table holds the same entries after two runs if it did so before them and visits enter
the same. -/
theorem Twice.entries (h : Twice units units' ps ps' b b') (run : visitUnits ps b = .ok (v, final))
    (run' : visitUnits ps' b' = .ok (v', final')) (tracked : Tracked table numbers size)
    (declared : ∀ n, Option.Rel (numbers (declaredPairing b b')) ((table b).get? n)
      ((table b').get? n))
    (entered : ∀ {u t t' c c' d d'}, BothVisit ps ps' b b' final final' u t t' c c' d d' →
      TwinRuns.Entered (numbers (twins c c' (declaredPairing b b') t t').pairing) (table c)
        (table d) (table c') (table d')) (n : NodeId) :
    Option.Rel (numbers (visitedPairing ps ps' b b' final final')) ((table final).get? n)
      ((table final').get? n) := by
  have old : Option.Rel (numbers (visitedPairing ps ps' b b' final final')) ((table b).get? n)
      ((table b').get? n) := optionRel_mono (declared n) fun _ _ _ => tracked.declared
  by_cases visited : ∃ u ∈ units, n ∈ u.nodeIds
  · obtain ⟨u, mem, inside⟩ := visited
    obtain ⟨t, t', c, c', d, d', both⟩ := h.exists_both run run' mem
    have between := both.first.between h.first
    obtain ⟨later, earlier⟩ := tracked.between between inside
    obtain ⟨later', earlier'⟩ := tracked.between (both.second.between h.second) inside
    rw [later, later']
    rcases entered both n with ⟨same, same'⟩ | ⟨i, j, found, found', related⟩
    · rw [same, same', earlier, earlier']
      exact old
    · rw [found, found']
      obtain ⟨_, _, _, before, _⟩ := between.before
      have listed := between.here.2.listed (before.listed h.first.listed)
      exact .some (tracked.visited both (tracked.listed listed found) related)
  · have outside : ∀ u ∈ units, n ∉ u.nodeIds := fun u mem inside => visited ⟨u, mem, inside⟩
    rw [tracked.outside h.first run outside,
      tracked.outside h.second run' fun u mem => outside u (h.perm.mem_iff.mpr mem)]
    exact old

end Entries

/-- What is entered in one run is entered in the other, if that is so in either order. -/
theorem optionRel_of_some {R : Nat → Nat → Prop} {x y : Option Nat}
    (first : ∀ i, x = some i → ∃ j, y = some j ∧ R i j) (second : ∀ j, y = some j →
      x.isSome = true) :
    Option.Rel R x y := by
  cases x with
  | some i =>
    obtain ⟨j, rfl, related⟩ := first i rfl
    exact .some related
  | none =>
    cases y with
    | none => exact .none
    | some j => cases second j rfl

theorem Twice.created_of_some (h : Twice units units' ps ps' b b') {n : NodeId} {σ : ScopeId}
    (found : b.analysis.createdScopes.get? n = some σ) :
    ∃ σ', b'.analysis.createdScopes.get? n = some σ' ∧ (declaredPairing b b').scope σ σ' := by
  obtain ⟨u, mem, rfl⟩ := h.first.opening.created n σ found
  obtain ⟨t, t', m, m', -, -, lodged, lodged'⟩ := h.unit mem
  rw [lodged.node] at found
  cases found
  exact ⟨m', lodged'.node, .inr ⟨u.path, t, t', lodged.path, lodged'.path,
    .inl ⟨lodged.members, lodged'.members⟩⟩⟩

theorem Twice.definition_of_some (h : Twice units units' ps ps' b b') {n : NodeId}
    (found : b.analysis.definitions.get? n = some t) :
    ∃ t', b'.analysis.definitions.get? n = some t' ∧ (declaredPairing b b').symbol t t' := by
  obtain ⟨u, mem, rfl | ⟨rfl, named⟩⟩ := h.first.opening.definitions n t found
  · obtain ⟨s, t', m, m', -, -, lodged, lodged'⟩ := h.unit mem
    rw [lodged.definition] at found
    cases found
    exact ⟨t', lodged'.definition, _, u.path, .inr rfl, lodged.path, lodged'.path⟩
  · obtain ⟨s, t', m, m', -, -, lodged, lodged'⟩ := h.unit mem
    obtain ⟨name, called⟩ := Option.isSome_iff_exists.mp named
    obtain ⟨g, slot, path, -, -, entry⟩ := lodged.global name called
    obtain ⟨g', slot', path', -, -, entry'⟩ := lodged'.global name called
    rw [entry] at found
    cases found
    exact ⟨g', entry', _, name, .inl rfl, path, path'⟩

/-- The same scopes have been created for the same nodes. -/
theorem Twice.created (h : Twice units units' ps ps' b b') (run : visitUnits ps b = .ok (v, final))
    (run' : visitUnits ps' b' = .ok (v', final')) (n : NodeId) :
    Option.Rel (visitedPairing ps ps' b b' final final').scope (final.analysis.createdScopes.get? n)
      (final'.analysis.createdScopes.get? n) := by
  refine h.entries run run' tracked_created (fun n => ?_)
    (fun both => (h.abreast both.first both.second).created) n
  refine optionRel_of_some (fun σ => h.created_of_some) fun σ' found => ?_
  obtain ⟨σ, same, -⟩ := h.flip.created_of_some found
  rw [same]
  rfl

/-- The same symbols have been declared by the same nodes. -/
theorem Twice.definitions (h : Twice units units' ps ps' b b')
    (run : visitUnits ps b = .ok (v, final)) (run' : visitUnits ps' b' = .ok (v', final'))
    (n : NodeId) :
    Option.Rel (visitedPairing ps ps' b b' final final').symbol (final.analysis.definitions.get? n)
      (final'.analysis.definitions.get? n) := by
  refine h.entries run run' tracked_definitions (fun n => ?_)
    (fun both => (h.abreast both.first both.second).definitions) n
  refine optionRel_of_some (fun t => h.definition_of_some) fun t' found => ?_
  obtain ⟨t, same, -⟩ := h.flip.definition_of_some found
  rw [same]
  rfl

/-- The same units are found by the same paths. -/
theorem Twice.paths (h : Twice units units' ps ps' b b') (run : visitUnits ps b = .ok (v, final))
    (run' : visitUnits ps' b' = .ok (v', final')) (path : String) :
    Option.Rel (visitedPairing ps ps' b b' final final').symbol
      (Entries.get? final.analysis.units path) (Entries.get? final'.analysis.units path) := by
  rw [(h.first.frame run).units, (h.second.frame run').units, h.first.opening.entered,
    h.second.opening.entered]
  refine optionRel_of_some (fun t found => ?_) fun t' found => ?_
  · obtain ⟨t', found'⟩ := h.exists_declared_name (.inr rfl) found
    exact ⟨t', found', .inl ⟨_, path, .inr rfl, found, found'⟩⟩
  · obtain ⟨t, same⟩ := h.flip.exists_declared_name (.inr rfl) found
    rw [same]
    rfl

/-! ## References that wait -/

/-- The same reference waits in both runs, and the same names around it had been declared. -/
structure Waits (ρ : Pairing) (a : Arena) (p p' : PendingReference) : Prop where
  node : p.node = p'.node
  scope : ρ.scope p.scope p'.scope
  reference : p.reference = p'.reference
  visible : ∀ t t' : Nat, ρ.symbol t t' → a.Inside p.scope (a.symbol t).scope →
    (p.visible ≤ t ↔ p'.visible ≤ t')

/-- What was declared before all visits belongs to no function or block. -/
theorem Twice.static_of_declared (h : Twice units units' ps ps' b b')
    (run : visitUnits ps b = .ok (v, final)) (formed : Formed final) {σ σ' : ScopeId}
    (paired : (declaredPairing b b').scope σ σ') :
    (final.arena.scope σ).kind.isDynamic = false := by
  have frame := h.first.frame run
  have known := (h.declared_scope_range paired).1
  rcases paired with ⟨rfl, outermost⟩ | ⟨path, t, t', found, found', rooms⟩
  · rw [frame.scope σ known (h.first.outermost_apart outermost),
      (h.first.outermost σ outermost).kind]
    rcases outermost with rfl | rfl <;> rfl
  · have symbol := frame.symbol t (h.first.declared (.inr rfl) found).1
    rcases rooms with ⟨members, -⟩ | ⟨exports, -⟩
    · rw [← symbol] at members
      rw [(formed.arena.members t σ members).1]
      rfl
    · rw [← symbol] at exports
      rw [formed.arena.exports t σ exports]
      rfl

/-- Functions and blocks around a scope that a visit has created have been created by that visit. -/
theorem BothVisit.inside (h : Twice units units' ps ps' b b')
    (run : visitUnits ps b = .ok (v, final)) (formed : Formed final)
    (both : BothVisit ps ps' b b' final final' u t t' c c' d d') {σ τ : ScopeId}
    (inside : final.arena.Inside σ τ) (least : c.arena.scopes.size ≤ σ)
    (within : σ < d.arena.scopes.size) :
    c.arena.scopes.size ≤ τ ∧ τ < d.arena.scopes.size := by
  have between := both.first.between h.first
  induction inside with
  | refl dynamic => exact ⟨least, within⟩
  | @step σ outer τ dynamic enclosing rest ih =>
    have abreast := h.abreast both.first both.second
    rw [between.scope (.inr least) within] at enclosing
    have known := between.inRange.enclosing σ outer enclosing
    have paired : (twins c c' (declaredPairing b b') t t').Open σ
        (c'.arena.scopes.size + (σ - c.arena.scopes.size)) :=
      .inr ⟨σ - c.arena.scopes.size, (Nat.add_sub_cancel' least).symm, rfl⟩
    have related := (abreast.arena.scope _ _ paired within).enclosing
    rw [enclosing] at related
    obtain ⟨outer', -, old | ⟨i, first, -⟩⟩ := optionRel_some related
    · have static := h.static_of_declared run formed old
      rw [rest.isDynamic.1] at static
      cases static
    · exact ih (first ▸ Nat.le_add_right ..) known

theorem forall₂_mem_left {α β : Type} {R : α → β → Prop} {l : List α} {l' : List β}
    (h : List.Forall₂ R l l') {x : α} (mem : x ∈ l) : ∃ y ∈ l', R x y := by
  induction h with
  | nil => cases mem
  | cons first _ ih =>
    rcases List.mem_cons.mp mem with rfl | mem
    · exact ⟨_, List.mem_cons_self .., first⟩
    · exact (ih mem).imp fun _ has => ⟨List.mem_cons_of_mem _ has.1, has.2⟩

/-- Functions and blocks are created by visits. -/
theorem Twice.new_of_dynamic (h : Twice units units' ps ps' b b')
    (run : visitUnits ps b = .ok (v, final)) (formed : Formed final) {σ σ' : ScopeId}
    (paired : (twins c c' (declaredPairing b b') t t').pairing.scope σ σ')
    (dynamic : (final.arena.scope σ).kind.isDynamic = true) : c.arena.scopes.size ≤ σ := by
  rcases paired with old | ⟨i, first, -⟩
  · have static := h.static_of_declared run formed old
    rw [dynamic] at static
    cases static
  · exact first ▸ Nat.le_add_right ..

/-- **Whether a name around a reference was declared before it does not depend on the order of
units.** A name in a function or block around the reference was declared by the visit in which the
reference was met, and so is counted from the beginning of this visit, as the reference is. -/
theorem BothVisit.visible_iff (h : Twice units units' ps ps' b b')
    (run : visitUnits ps b = .ok (v, final)) (formed : Formed final)
    (both : BothVisit ps ps' b b' final final' u t t' c c' d d') {p p' : PendingReference}
    (awaits : (twins c c' (declaredPairing b b') t t').Awaits p p')
    (hosts : p.scope < d.arena.scopes.size) {s s' : Nat}
    (paired : (visitedPairing ps ps' b b' final final').symbol s s')
    (inside : final.arena.Inside p.scope (final.arena.symbol s).scope) :
    p.visible ≤ s ↔ p'.visible ≤ s' := by
  have least := h.new_of_dynamic run formed awaits.scope inside.isDynamic.1
  obtain ⟨least, within⟩ := both.inside h run formed inside least hosts
  rcases paired with ⟨σ, name, outermost, found, found'⟩ | ⟨w, r, r', e, e', f, f', both', j,
    hs, hs', known⟩
  · -- Units and global names are declared in no function or block.
    have declared := h.first.declared outermost found
    have static : (declaredPairing b b').scope σ σ := .inl ⟨rfl, outermost⟩
    have static := h.static_of_declared run formed static
    rw [← declared.2.1, ← (h.first.frame run).symbol s declared.1, inside.isDynamic.2] at static
    cases static
  · have abreast := h.abreast both'.first both'.second
    have between := both'.first.between h.first
    have new : (twins e e' (declaredPairing b b') r r').NewSymbol s s' := ⟨j, hs, hs'⟩
    obtain ⟨S, ids, after, -⟩ := between.after
    have symbol := after.symbol s known
    have home := (abreast.arena.symbol s s' new known).scope
    rw [← symbol] at home
    have least' := h.new_of_dynamic run formed home inside.isDynamic.2
    have within' := between.inRange.home s known
    rw [← symbol] at within'
    -- The scope of the name has been created by the visits of both units.
    rcases both.first.order h.first both'.first with ⟨rfl, rfl, rfl, rfl⟩ | ⟨-,
      ⟨T, frame⟩ | ⟨T, frame⟩⟩
    · rcases both.second.order h.second both'.second with ⟨-, rfl, rfl, rfl⟩ | ⟨other, -⟩
      · obtain ⟨i, hp, hp'⟩ := awaits.visible
        have hp : p.visible = c.arena.symbols.size + i := hp
        have hp' : p'.visible = c'.arena.symbols.size + i := hp'
        have hs : s = c.arena.symbols.size + j := hs
        have hs' : s' = c'.arena.symbols.size + j := hs'
        omega
      · exact absurd rfl other
    · exact absurd within (Nat.not_lt.mpr (Nat.le_trans frame.moreScopes least'))
    · exact absurd within' (Nat.not_lt.mpr (Nat.le_trans frame.moreScopes least))

/-- The same references wait. -/
theorem Twice.waits (h : Twice units units' ps ps' b b') (run : visitUnits ps b = .ok (v, final))
    (run' : visitUnits ps' b' = .ok (v', final')) (formed : Formed final) {p : PendingReference}
    (mem : p ∈ final.pending) : ∃ p' ∈ final'.pending,
      Waits (visitedPairing ps ps' b b' final final') final.arena p p' := by
  rcases exists_visit_of (p ∈ ·.pending) run mem with old | ⟨u, t, c, d, visit, absent, here⟩
  · rw [h.first.opening.pending] at old
    cases old
  have known : u ∈ units := h.first.units ▸ List.mem_map.mpr ⟨_, visit.mem, rfl⟩
  obtain ⟨_, t', _, c', _, d', both⟩ := h.exists_both run run' known
  rcases visit.order h.first both.first with ⟨-, rfl, rfl, rfl⟩ | ⟨other, -⟩
  · have abreast := h.abreast both.first both.second
    have between := both.first.between h.first
    obtain ⟨l, l', hl, hl', awaits⟩ := abreast.pending
    have fresh : p ∈ l := by
      rw [hl] at here
      exact (List.mem_append.mp here).resolve_right absent
    obtain ⟨p', mem', awaits⟩ := forall₂_mem_left awaits fresh
    obtain ⟨S, ids, after, -⟩ := (both.second.between h.second).after
    obtain ⟨later, hlater⟩ := after.pending
    obtain ⟨_, _, _, before, -⟩ := between.before
    have hosts : d.Hosts p.scope := by
      refine between.here.2.pendingHosts (before.pendingHosts ?_) p here
      rw [h.first.opening.pending]
      exact fun q hq => by cases hq
    refine ⟨p', ?_, awaits.node, both.covers.scope _ _ hosts.1 awaits.scope, awaits.reference,
      fun s s' paired inside => both.visible_iff h run formed awaits hosts.1 paired inside⟩
    rw [hlater, hl']
    exact List.mem_append_right _ (List.mem_append_left _ mem')
  · exact absurd rfl other

theorem Waits.flip {ρ : Pairing} {a a' : Arena} (h : a.Renumbers ρ a') {p p' : PendingReference}
    (waits : Waits ρ a p p') : Waits ρ.flip a' p' p where
  node := waits.node.symm
  scope := waits.scope
  reference := waits.reference.symm
  visible s' s paired inside := (waits.visible s s' paired
    ((h.inside_iff waits.scope (h.alike.symbol s s' paired).scope).mpr inside)).symm

/-! ## The whole pass -/

/-- Declaring the units of a program prepares the visits. -/
theorem prepared_of_declareUnits (numbered : units.Numbered)
    (run : declareUnits units (.start false) = .ok (ps, b)) :
    Prepared units ps b ∧ units.Declarable := by
  obtain ⟨opening, firsts, declarable, lodges, -⟩ := declareUnits_opening opening_start
    (numbered.rooted : Rooted ([] ++ units)) ⟨List.nodup_nil, List.nodup_nil⟩ run
  have formed := Building.formed_start false
  have knownGlobal : (Building.start false).HasScope Analysis.globalScope := by
    show 0 < 2
    decide
  obtain ⟨steps, housed⟩ := declareUnits_steps units (List.Subset.refl _) formed knownGlobal rfl
    (Building.onlyUnits_start _) run
  refine ⟨⟨numbered, opening, firsts, lodges, fun p mem => (housed p mem).2, steps.formed formed,
    steps.tabled formed Arena.tabled_initial, fun σ outermost => steps.sameScope ?_⟩, declarable⟩
  show σ < 2
  rcases outermost with rfl | rfl <;> decide

/-- All visits together keep the state well-formed. -/
theorem Prepared.formed_after (h : Prepared units ps b) (run : visitUnits ps b = .ok (v, final)) :
    Formed final :=
  ((h.segment (Frame.refl h.opening.strict : Frame (fun _ => False) b b) (Steps.refl : Steps [] b b)
    (List.Subset.refl _) run).2).formed h.formed

/-- The whole pass, from its two parts. -/
theorem buildScopes_eq_ok (declares : declareUnits units (.start false) = .ok (ps, b))
    (visits : visitUnits ps b = .ok (v, final)) : buildScopes false units =
      .ok ({ final.analysis with positions := final.analysis.positions.reverse },
        final.pending.reverse) := by
  have run : (do visitUnits (← declareUnits units) : Build PUnit) (.start false) = .ok (v, final) :=
    bind_eq_ok.mpr ⟨ps, b, declares, visits⟩
  unfold buildScopes
  simp only [StateT.run, Building.start] at run ⊢
  rw [run]
  rfl

end Build

theorem UnitSet.Numbered.perm {units units' : UnitSet} (numbered : units.Numbered)
    (perm : List.Perm units units') : units'.Numbered := by
  have nodes : List.Perm units.nodeIds units'.nodeIds := perm.flatMap_right _
  exact ⟨nodes.nodup_iff.mp numbered.nodup, fun id mem => numbered.tree id (nodes.mem_iff.mpr mem)⟩

/-- After the first pass two programs differ in numbers only. -/
structure Rebuilt (ρ : Pairing) (a a' : Analysis)
    (pending pending' : List PendingReference) : Prop where
  arena : a.arena.Renumbers ρ a'.arena
  globalScope : ρ.scope Analysis.globalScope Analysis.globalScope
  unitsScope : ρ.scope Analysis.unitsScope Analysis.unitsScope
  units : Arena.Renumbers.SameUnits ρ a.units a'.units
  created : ∀ n, Option.Rel ρ.scope (a.createdScopes.get? n) (a'.createdScopes.get? n)
  definitions : ∀ n, Option.Rel ρ.symbol (a.definitions.get? n) (a'.definitions.get? n)
  waits : ∀ p ∈ pending, ∃ p' ∈ pending', Build.Waits ρ a.arena p p'
  waits' : ∀ p' ∈ pending', ∃ p ∈ pending, Build.Waits ρ a.arena p p'

/-- **The first pass over units in another order** comes to an end if it does so in one order, and
makes the same scopes and symbols under other numbers. -/
theorem buildScopes_perm {units units' : UnitSet} {a : Analysis} {pending : List PendingReference}
    (numbered : units.Numbered) (perm : List.Perm units units')
    (run : buildScopes false units = .ok (a, pending)) : ∃ ρ a' pending',
      buildScopes false units' = .ok (a', pending') ∧ Rebuilt ρ a a' pending pending' := by
  obtain ⟨ps, b, final, u, declares, visits, rfl, rfl⟩ := Build.pass_eq_ok run
  obtain ⟨prepared, declarable⟩ := Build.prepared_of_declareUnits numbered declares
  have numbered' := numbered.perm perm
  obtain ⟨ps', b', declares'⟩ := Build.declareUnits_ok Build.opening_start
    (numbered'.rooted : Build.Rooted ([] ++ units')) (declarable.perm perm)
  have twice : Build.Twice units units' ps ps' b b' :=
    ⟨prepared, (Build.prepared_of_declareUnits numbered' declares').1, perm⟩
  obtain ⟨final', visits'⟩ := twice.visitUnits_ok visits
  have formed := prepared.formed_after visits
  have formed' := twice.second.formed_after visits'
  have renumbers := twice.renumbers visits visits'
  have units := twice.paths visits visits'
  have waits : ∀ p ∈ final.pending, ∃ p' ∈ final'.pending, Build.Waits _ final.arena p p' :=
    fun p mem => twice.waits visits visits' formed mem
  have waits' : ∀ p' ∈ final'.pending, ∃ p ∈ final.pending, Build.Waits _ final'.arena p' p :=
    fun p' mem => twice.flip.waits visits' visits formed' mem
  rw [← twice.visitedPairing_flip] at waits'
  refine ⟨Build.visitedPairing ps ps' b b' final final', _, _,
    Build.buildScopes_eq_ok declares' visits', renumbers, .inl (.inl ⟨rfl, .inl rfl⟩),
    .inl (.inl ⟨rfl, .inr rfl⟩), units, twice.created visits visits',
      twice.definitions visits visits', fun p mem => ?_, fun p' mem => ?_⟩
  · obtain ⟨p', mem', waits⟩ := waits p (List.mem_reverse.mp mem)
    exact ⟨p', List.mem_reverse.mpr mem', waits⟩
  · obtain ⟨p, mem', waits⟩ := waits' p' (List.mem_reverse.mp mem)
    exact ⟨p, List.mem_reverse.mpr mem', waits.flip renumbers.flip⟩

end CellScript
