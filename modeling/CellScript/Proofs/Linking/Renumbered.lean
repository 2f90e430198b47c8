import CellScript.Proofs.Linking.Complete
import CellScript.Proofs.Scope.Rebuilt

/-!
# Linking under other numbers

Two programs that differ in numbers only are linked alike, in whatever order their symbols come:
what stands for another symbol is bound to symbols that stand for each other, and every section
comes to lie inside the same module.

* `Analysis.AsBuilt` — an analysis after the first pass
* `Arena.Renumbers.bound` — arenas in which everything that resolves is bound
* `Analysis.Renumbered.placed` — arenas in which sections have been placed
* `Rebuilt.linkUnits` — programs are linked alike
-/

namespace CellScript

/-- An analysis as the first pass leaves it. -/
structure Analysis.AsBuilt (a : Analysis) : Prop where
  formed : a.arena.Formed
  tabled : a.arena.Tabled
  fresh : a.arena.Unlinked a.units
  settling : a.arena.Settling
  unit : ∀ path s, Entries.get? a.units path = some s →
    s < a.arena.symbols.size ∧ (a.arena.symbol s).scope = Analysis.unitsScope
  sections : a.sections = []

/-- No section is placed before the program is linked. -/
theorem Build.Steps.sections {ids : List NodeId} {b b' : Building} (s : Build.Steps ids b b') :
    b'.analysis.sections = b.analysis.sections := by
  induction s with
  | refl => rfl
  | tail _ last ih =>
    rw [← ih]
    cases last <;> rfl

theorem buildScopes_asBuilt {recovery : Bool} {units : UnitSet} {built : Analysis}
    {pending : List PendingReference} (h : buildScopes recovery units = .ok (built, pending)) :
    built.AsBuilt := by
  have fresh := buildScopes_unlinked h
  have settling := buildScopes_settling h
  obtain ⟨b, steps, rfl, -⟩ := buildScopes_steps h
  have start := Building.formed_start recovery
  have formed := steps.formed start
  exact ⟨formed.arena, steps.tabled start Arena.tabled_initial, fresh, settling,
    fun path s found => ⟨(formed.unit path s found).1.1, (formed.unit path s found).2.1⟩,
      steps.sections⟩

namespace Arena

variable {ρ : Pairing} {a a' b b' : Arena} {units units' : Entries SymbolId} {s s' t t' : SymbolId}
  {σ σ' : ScopeId}

/-- A symbol that has been bound is bound to what it resolves to. -/
theorem Binds.symbol_eq (fresh : Unlinked a units) (h : Binds a units b)
    (indirect : (a.symbol s).binding.isIndirect = true) (resolves : Resolves a units s t)
    (settled : Settled a s b) : b.symbol s = a.boundTo s t := by
  obtain ⟨t', found⟩ := Option.isSome_iff_exists.mp (settled indirect)
  obtain ⟨resolves', same⟩ := h.resolves fresh found
  rw [same, resolves'.unique resolves]

namespace Renumbers

/-- Scopes and symbols that go on being alike, as many as before. -/
theorem of_sizes (h : a.Renumbers ρ a') (alike : b.Alike ρ b')
    (scopes : b.scopes.size = a.scopes.size) (scopes' : b'.scopes.size = a'.scopes.size)
    (symbols : b.symbols.size = a.symbols.size) (symbols' : b'.symbols.size = a'.symbols.size) :
    b.Renumbers ρ b' where
  alike := alike
  once := h.once
  scope := scopes ▸ h.scope
  scope' := scopes' ▸ h.scope'
  symbol := symbols ▸ h.symbol
  symbol' := symbols' ▸ h.symbol'
  scopeRange := by
    rw [scopes, scopes']
    exact h.scopeRange
  symbolRange := by
    rw [symbols, symbols']
    exact h.symbolRange

/-- The members of symbols that stand for each other. -/
theorem members (h : a.Renumbers ρ a') (paired : ρ.symbol s s')
    (members : (a.symbol s).members = some σ) :
    ∃ σ', (a'.symbol s').members = some σ' ∧ ρ.scope σ σ' := by
  have related := (h.alike.symbol s s' paired).members
  rw [members] at related
  exact optionRel_some related

/-- **Once everything that resolves is bound, the arenas still differ in numbers only.** -/
theorem bound (h : a.Renumbers ρ a') (same : SameUnits ρ units units') (outer : a.Descends)
    (outer' : a'.Descends) (fresh : Unlinked a units) (fresh' : Unlinked a' units')
    (binds : Binds a units b) (binds' : Binds a' units' b') (all : Saturated a units b)
    (all' : Saturated a' units' b') : b.Renumbers ρ b' := by
  have same' : SameUnits ρ.flip units' units := fun path => optionRel_flip (same path)
  refine h.of_sizes ⟨fun σ σ' paired => ?_, fun t t' paired => ?_⟩
    (congrArg Array.size binds.scopes) (congrArg Array.size binds'.scopes) binds.size binds'.size
  · rw [binds.scope, binds'.scope]
    exact h.alike.scope σ σ' paired
  · have alike := h.alike.symbol t t' paired
    rcases binds.symbol t with kept | ⟨indirect, u, resolves, -⟩
    · rcases binds'.symbol t' with kept' | ⟨indirect', u', resolves', -⟩
      · rw [kept, kept']
        exact alike
      · -- What is bound on one side resolves on the other, and is bound there.
        obtain ⟨u, resolves, -⟩ := h.flip.resolves same' outer' outer resolves' paired
        have settled := all t u resolves (alike.binding.isIndirect ▸ indirect')
        rw [kept, fresh.resolved] at settled
        cases settled
    · obtain ⟨u', resolves', related⟩ := h.resolves same outer outer' resolves paired
      rw [binds.symbol_eq fresh indirect resolves (all t u resolves),
        binds'.symbol_eq fresh' (alike.binding.isIndirect ▸ indirect) resolves'
          (all' t' u' resolves')]
      exact { alike with target := (h.alike.symbol u u' related).target, resolved := .some related }

/-- Slots hold symbols that stand for each other. -/
theorem mem_slots (h : a.Renumbers ρ a') (ready : a.Ready) (ready' : a'.Ready)
    (paired : ρ.symbol s s') (paired' : ρ.scope σ σ') (mem : s ∈ (a.scope σ).slots) :
    s' ∈ (a'.scope σ').slots := by
  obtain ⟨i, found⟩ := List.getElem?_of_mem mem
  obtain ⟨-, rfl, -⟩ := ready.slot σ i s found
  rw [(h.once.scope paired' (h.alike.symbol s s' paired).scope).mp rfl]
  exact ready'.mem_slots (h.symbolRange s s' paired).2

end Renumbers

end Arena

namespace Analysis

variable {ρ : Pairing} {a a' c c' : Analysis} {s s' : SymbolId}

/-- The sections of a program are the symbols declared in its interactive units. -/
theorem mem_sectionSymbols_iff : s ∈ a.sectionSymbols ↔
    ∃ o σ, o ∈ (a.arena.scope unitsScope).slots ∧ (a.arena.symbol o).target = .interactive ∧
      (a.arena.symbol o).members = some σ ∧ s ∈ (a.arena.scope σ).slots := by
  simp only [sectionSymbols, List.mem_flatMap]
  constructor
  · rintro ⟨o, mem, h⟩
    split at h
    · next interactive =>
      split at h
      · next σ members => exact ⟨o, σ, mem, by simpa using interactive, members, h⟩
      · cases h
    · cases h
  · rintro ⟨o, σ, mem, interactive, members, h⟩
    refine ⟨o, mem, ?_⟩
    simpa [interactive, members] using h

/-- Two analyses whose arenas are ready and differ in numbers only. -/
structure Renumbered (ρ : Pairing) (a a' : Analysis) : Prop where
  arena : a.arena.Renumbers ρ a'.arena
  ready : a.arena.Ready
  ready' : a'.arena.Ready
  units : Arena.Renumbers.SameUnits ρ a.units a'.units
  unitsScope : ρ.scope unitsScope unitsScope

namespace Renumbered

theorem flip (h : Renumbered ρ a a') : Renumbered ρ.flip a' a :=
  ⟨h.arena.flip, h.ready', h.ready, fun path => optionRel_flip (h.units path), h.unitsScope⟩

/-- Symbols have their own members each. -/
theorem apart (h : Renumbered ρ a a') : a.Apart := by
  intro s t σ members members'
  have kind := (h.ready.members s σ members).symm.trans (h.ready.members t σ members')
  cases kind
  rfl

/-- The sections of one program stand for those of the other. -/
theorem mem_sectionSymbols (h : Renumbered ρ a a') (paired : ρ.symbol s s')
    (mem : s ∈ a.sectionSymbols) : s' ∈ a'.sectionSymbols := by
  obtain ⟨o, σ, unit, interactive, members, mem⟩ := mem_sectionSymbols_iff.mp mem
  obtain ⟨i, found⟩ := List.getElem?_of_mem unit
  obtain ⟨o', owner⟩ := h.arena.symbol o (h.ready.slot _ i o found).1
  obtain ⟨σ', members', related⟩ := h.arena.members owner members
  exact mem_sectionSymbols_iff.mpr ⟨o', σ', h.arena.mem_slots h.ready h.ready' owner h.unitsScope
    unit, (h.arena.alike.symbol o o' owner).target ▸ interactive, members',
    h.arena.mem_slots h.ready h.ready' paired related mem⟩

theorem fits (h : Renumbered ρ a a') (paired : ρ.symbol s s') (fits : a.Fits s) : a'.Fits s' := by
  obtain ⟨m, σ, found, members⟩ := fits
  obtain ⟨σ', members', -⟩ := h.arena.members paired members
  obtain ⟨m', found', -⟩ := h.arena.isModule h.units found
  exact ⟨m', σ', (h.arena.alike.symbol s s' paired).name ▸ found', members'⟩

/-- A section comes to lie inside modules that stand for each other. -/
theorem section_placed (h : Renumbered ρ a a') (placed : Placed a.sectionSymbols a c)
    (placed' : Placed a'.sectionSymbols a' c') (paired : ρ.symbol s s')
    (mem : s ∈ a.sectionSymbols) :
    Option.Rel ρ.symbol (c.sections.get? s) (c'.sections.get? s') ∧
    ∃ σ σ', (a.arena.symbol s).members = some σ ∧ (a'.arena.symbol s').members = some σ' ∧
      Option.Rel ρ.scope (c.arena.scope σ).enclosing (c'.arena.scope σ').enclosing := by
  obtain ⟨m, σ, found, members, entry, enclosing⟩ := placed.placed s mem
  obtain ⟨m', σ', found', members', entry', enclosing'⟩ :=
    placed'.placed s' (h.mem_sectionSymbols paired mem)
  obtain ⟨n, module, related⟩ := h.arena.isModule h.units found
  rw [(h.arena.alike.symbol s s' paired).name] at module
  cases module.1.symm.trans found'.1
  obtain ⟨_, same, scopes⟩ := h.arena.members paired members
  cases same.symm.trans members'
  refine ⟨?_, σ, σ', members, members', ?_⟩
  · rw [entry, entry']
    exact .some related
  · rw [enclosing (h.arena.scopeRange _ _ scopes).1, enclosing' (h.arena.scopeRange _ _ scopes).2]
    exact (h.arena.alike.symbol m m' related).members

/-- What encloses scopes after sections have been placed. -/
theorem enclosing_placed (h : Renumbered ρ a a') (placed : Placed a.sectionSymbols a c)
    (placed' : Placed a'.sectionSymbols a' c') {σ σ' : ScopeId} (paired : ρ.scope σ σ') :
    Option.Rel ρ.scope (c.arena.scope σ).enclosing (c'.arena.scope σ').enclosing := by
  by_cases moved : ∃ s ∈ a.sectionSymbols, (a.arena.symbol s).members = some σ
  · obtain ⟨s, mem, members⟩ := moved
    obtain ⟨s', owner⟩ := h.arena.symbol s (h.ready.owner _ _ (h.ready.members s σ members)).1
    obtain ⟨-, τ, τ', members', members'', related⟩ := h.section_placed placed placed' owner mem
    cases members.symm.trans members'
    obtain ⟨_, same, scopes⟩ := h.arena.members owner members
    cases same.symm.trans members''
    rwa [← (h.arena.once.scope paired scopes).mp rfl] at related
  · have moved' : ∀ s' ∈ a'.sectionSymbols, (a'.arena.symbol s').members ≠ some σ' := by
      intro s' mem members
      obtain ⟨s, owner⟩ :=
        h.arena.symbol' s' (h.ready'.owner _ _ (h.ready'.members s' σ' members)).1
      obtain ⟨τ, members', scopes⟩ := h.flip.arena.members owner members
      rw [← (h.arena.once.scope paired scopes).mpr rfl] at members'
      exact moved ⟨s, h.flip.mem_sectionSymbols owner mem, members'⟩
    rw [placed.elsewhere σ fun s mem members => moved ⟨s, mem, members⟩,
      placed'.elsewhere σ' moved']
    exact (h.arena.alike.scope σ σ' paired).enclosing

/-- **Once sections have been placed, the arenas still differ in numbers only.** -/
theorem placed (h : Renumbered ρ a a') (placed : Placed a.sectionSymbols a c)
    (placed' : Placed a'.sectionSymbols a' c') : c.arena.Renumbers ρ c'.arena := by
  refine h.arena.of_sizes ⟨fun σ σ' paired => ?_, fun t t' paired => ?_⟩ placed.size placed'.size
    (congrArg Array.size placed.symbols) (congrArg Array.size placed'.symbols)
  · have enclosing := h.enclosing_placed placed placed' paired
    rw [placed.scope, placed'.scope]
    exact { h.arena.alike.scope σ σ' paired with enclosing := enclosing }
  · rw [placed.symbol, placed'.symbol]
    exact h.arena.alike.symbol t t' paired

/-- The modules of sections stand for each other, if there were none before. -/
theorem sections_placed (h : Renumbered ρ a a') (placed : Placed a.sectionSymbols a c)
    (placed' : Placed a'.sectionSymbols a' c') (empty : a.sections = []) (empty' : a'.sections = [])
    (paired : ρ.symbol s s') : Option.Rel ρ.symbol (c.sections.get? s) (c'.sections.get? s') := by
  by_cases mem : s ∈ a.sectionSymbols
  · exact (h.section_placed placed placed' paired mem).1
  · have mem' : s' ∉ a'.sectionSymbols := fun mem' => mem (h.flip.mem_sectionSymbols paired mem')
    rw [placed.others s mem, placed'.others s' mem', empty, empty']
    exact .none

end Renumbered

/-! ## Linking -/

/-- Only symbols that stand for others are linked. -/
theorem isIndirect_of_mem (mem : s ∈ a.linkOrder) :
    (a.arena.symbol s).binding.isIndirect = true := by
  have listed : ∀ {scope : Option ScopeId}, s ∈ a.arena.indirections scope →
      (a.arena.symbol s).binding.isIndirect = true := by
    intro scope mem
    cases scope with
    | none => cases mem
    | some σ => exact (List.mem_filter.mp mem).2
  rcases List.mem_append.mp mem with mem | mem
  · exact listed mem
  · obtain ⟨unit, -, mem⟩ := List.mem_flatMap.mp mem
    dsimp only at mem
    split at mem
    · exact (List.mem_append.mp mem).elim listed listed
    · cases mem

/-- What linking does without recovery, in its two parts. -/
theorem linkUnits_eq_ok (h : a.linkUnits false = .ok c) : ∃ linkFaults bound sectionFaults placed,
    Arena.linkAll false a.units a.linkOrder a.arena = .ok (linkFaults, bound) ∧
    placeSections false (sectionSymbols { a with arena := bound }) { a with arena := bound } =
      .ok (sectionFaults, placed) ∧
    c = { placed with faults := c.faults } := by
  simp only [linkUnits, bind, Except.bind] at h
  cases hl : Arena.linkAll false a.units a.linkOrder a.arena with
  | error fault =>
    rw [hl] at h
    cases h
  | ok p =>
    simp only [hl] at h
    cases hp : placeSections false (sectionSymbols { a with arena := p.2 })
      { a with arena := p.2 } with
    | error fault =>
      rw [hp] at h
      cases h
    | ok q =>
      rw [hp] at h
      cases h
      exact ⟨_, _, _, _, rfl, hp, rfl⟩

theorem linkUnits_ok {linkFaults sectionFaults : List Fault} {bound : Arena} {placed : Analysis}
    (links : Arena.linkAll false a.units a.linkOrder a.arena = .ok (linkFaults, bound))
    (places : placeSections false (sectionSymbols { a with arena := bound })
      { a with arena := bound } = .ok (sectionFaults, placed)) :
    ∃ faults, a.linkUnits false = .ok { placed with faults := faults } := by
  simp only [linkUnits, bind, Except.bind, links, places]
  exact ⟨_, rfl⟩

namespace AsBuilt

variable {bound : Arena} {faults : List Fault}

theorem laidOnce (h : a.AsBuilt) (path : String) (s : SymbolId)
    (found : Entries.get? a.units path = some s) : a.arena.LaidOnce s := by
  obtain ⟨known, home⟩ := h.unit path s found
  refine ⟨known, ?_⟩
  rw [home, (h.formed.units _).mpr rfl]
  rfl

/-- Linking all symbols without a fault binds each of them. -/
theorem saturated (h : a.AsBuilt)
    (run : Arena.linkAll false a.units a.linkOrder a.arena = .ok (faults, bound)) :
    a.arena.Binds a.units bound ∧ a.arena.Saturated a.units bound ∧ bound.Ready := by
  have binds := Arena.linkAll_binds h.fresh _ .refl run
  refine ⟨binds, fun s t resolves indirect => ?_, binds.ready h.formed h.fresh h.laidOnce⟩
  obtain ⟨found, after, linked, -, -, settled⟩ :=
    Arena.linkAll_spec h.fresh a.linkOrder (.refl : a.arena.Binds a.units a.arena)
  obtain ⟨_, _, linked', strict⟩ := Arena.linkAll_recovery a.units a.linkOrder a.arena
  cases linked.symm.trans linked'
  cases found with
  | cons fault rest =>
    rw [run] at strict
    cases strict
  | nil =>
    cases run.symm.trans strict
    exact settled s (linkOrder_complete h.formed h.settling indirect) t resolves indirect

end AsBuilt

end Analysis

open Analysis in
/-- **Programs that differ in numbers only are linked alike.** If one of them can be linked then so
can the other; after that their arenas still differ in numbers only, and sections lie in modules
that stand for each other. -/
theorem Rebuilt.linkUnits {ρ : Pairing} {a a' linked : Analysis}
    {pending pending' : List PendingReference} (h : Rebuilt ρ a a' pending pending')
    (built : a.AsBuilt) (built' : a'.AsBuilt) (run : a.linkUnits false = .ok linked) :
    ∃ linked', a'.linkUnits false = .ok linked' ∧ linked.arena.Renumbers ρ linked'.arena ∧
      ∀ s s', ρ.symbol s s' → Option.Rel ρ.symbol (linked.sections.get? s)
        (linked'.sections.get? s') := by
  obtain ⟨_, bound, _, placed, links, places, rest⟩ := linkUnits_eq_ok run
  obtain ⟨binds, all, ready⟩ := built.saturated links
  have outer : a.arena.Descends := built.formed.older
  have outer' : a'.arena.Descends := built'.formed.older
  -- What resolves here resolves there.
  have resolves := (Arena.linkAll_ok_iff built.fresh a.linkOrder .refl).mp ⟨_, links⟩
  obtain ⟨⟨_, bound'⟩, links'⟩ :=
    (Arena.linkAll_ok_iff built'.fresh a'.linkOrder .refl).mpr fun s' mem => by
      obtain ⟨s, paired⟩ := h.arena.symbol' s' (Arena.lt_size_of_isIndirect (isIndirect_of_mem mem))
      have alike := (h.arena.alike.symbol s s' paired).binding
      obtain ⟨t, resolves⟩ := resolves s (linkOrder_complete built.formed built.settling
        (alike.isIndirect ▸ isIndirect_of_mem mem))
      obtain ⟨t', resolves', -⟩ := h.arena.resolves h.units outer outer' resolves paired
      exact ⟨t', resolves'⟩
  obtain ⟨binds', all', ready'⟩ := built'.saturated links'
  have bindsAlike : Renumbered ρ { a with arena := bound } { a' with arena := bound' } :=
    ⟨h.arena.bound h.units outer outer' built.fresh built'.fresh binds binds' all all', ready,
      ready', h.units, h.unitsScope⟩
  -- The same sections fit.
  have fits := (placeSections_ok_iff _).mp ⟨_, places⟩
  obtain ⟨⟨_, placed'⟩, places'⟩ := (placeSections_ok_iff
      (sectionSymbols { a' with arena := bound' })).mpr fun s' mem => by
    obtain ⟨o, σ, -, -, -, slot⟩ := mem_sectionSymbols_iff.mp mem
    obtain ⟨i, found⟩ := List.getElem?_of_mem slot
    obtain ⟨s, paired⟩ := bindsAlike.arena.symbol' s' (ready'.slot σ i s' found).1
    exact bindsAlike.fits paired (fits s (bindsAlike.flip.mem_sectionSymbols paired mem))
  have after := placeSections_placed _ bindsAlike.apart places
  have after' := placeSections_placed _ bindsAlike.flip.apart places'
  obtain ⟨faults, run'⟩ := linkUnits_ok links' places'
  refine ⟨_, run', ?_, fun s s' paired => ?_⟩
  · rw [rest]
    show placed.arena.Renumbers ρ placed'.arena
    exact bindsAlike.placed after after'
  · rw [rest]
    show Option.Rel ρ.symbol (placed.sections.get? s) (placed'.sections.get? s')
    exact bindsAlike.sections_placed after after' built.sections built'.sections paired

end CellScript
