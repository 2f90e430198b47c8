import CellScript.Proofs.Scope.Pass
import CellScript.Proofs.Scope.Walks

/-!
# Arenas as indexed tables

All scopes and symbols are numbered, and whatever refers to one of them stores its number. Nobody
who reads an arena checks a number first. The first pass keeps the tables such that nobody has to:
slots and names agree with the symbols, every number that is stored denotes something, and whatever
lies around a scope is older than it.

* `Arena.Indexed` — the invariant of the representation
* `Build.Step.tables` — all that a step can do to the tables of a scope
* `Build.Steps.indexed` — the first pass keeps the invariant
* `Build.declare_taken`, `Build.publish_taken` — what fails changes nothing in the arena
-/

namespace CellScript

namespace Arena

/-- The scope shows a library to other units: the library is exported by the module that owns the
scope, and declared among the members of that module. -/
structure Publishes (a : Arena) (σ : ScopeId) (t : SymbolId) : Prop where
  direct : (a.symbol t).binding = .direct
  library : (a.symbol t).target = .library
  exported : (a.symbol t).exported = true
  module : ∃ s, (a.scope σ).kind = .exports s ∧ (a.scope (a.symbol t).scope).kind = .members s

/-- Whatever number is stored in the arena denotes a scope or symbol of it. -/
structure InRange (a : Arena) : Prop where
  home : ∀ t, t < a.symbols.size → (a.symbol t).scope < a.scopes.size
  slots : ∀ σ, ∀ t ∈ (a.scope σ).slots, t < a.symbols.size
  names : ∀ σ, ∀ entry ∈ (a.scope σ).names, entry.2 < a.symbols.size
  enclosing : ∀ σ outer, (a.scope σ).enclosing = some outer → outer < a.scopes.size
  owner : ∀ σ s, a.owner? σ = some s → s < a.symbols.size
  members : ∀ s σ, (a.symbol s).members = some σ → σ < a.scopes.size
  exports : ∀ s σ, (a.symbol s).exports = some σ → σ < a.scopes.size
  /-- The scopes in which paths of aliases and exports start. -/
  root : ∀ s σ, (a.symbol s).binding.root? = some σ → σ < a.scopes.size
  resolved : ∀ s t, (a.symbol s).resolved = some t → t < a.symbols.size

/-- The arena represents scopes and symbols by their numbers. -/
structure Indexed (a : Arena) : Prop where
  /-- Every symbol knows its own number. -/
  numbered : ∀ t, t < a.symbols.size → (a.symbol t).id = t
  slot : ∀ t, t < a.symbols.size → (a.scope (a.symbol t).scope).slots[(a.symbol t).slot]? = some t
  /-- The slots of a scope are the symbols declared in it, in the order of their numbers. -/
  slots : ∀ σ, (a.scope σ).slots =
    (List.range a.symbols.size).filter fun t => (a.symbol t).scope == σ
  named : ∀ σ, ∀ t ∈ (a.scope σ).slots, (a.scope σ).get? (a.symbol t).name = some t
  /-- Apart from its own symbols a scope names only libraries that it shows to other units. -/
  names : ∀ σ name t, (name, t) ∈ (a.scope σ).names →
    (a.symbol t).name = name ∧ (t ∈ (a.scope σ).slots ∨ a.Publishes σ t)
  /-- No name is bound twice. -/
  once : ∀ σ, ((a.scope σ).names.map Prod.fst).Nodup
  inRange : a.InRange
  descends : a.Descends
  elder : a.Elder

/-- **In an arena that is indexed, all walks end.** -/
theorem Indexed.walks {a : Arena} (h : a.Indexed) : a.Walks := Arena.walks h.descends h.elder

/-- The members of units come before those of libraries and sections. -/
def UnitsFirst (a : Arena) : Prop :=
  ∀ s σ, (a.symbol s).members = some σ → (a.symbol s).scope = Analysis.unitsScope →
    ∀ t τ, (a.symbol t).members = some τ → (a.symbol t).scope ≠ Analysis.unitsScope → σ < τ

/-- What the first pass keeps beyond a well-formed arena. -/
structure Tabled (a : Arena) : Prop where
  numbered : ∀ t, t < a.symbols.size → (a.symbol t).id = t
  ascending : ∀ σ, (a.scope σ).slots.Pairwise (· < ·)
  sorted : ∀ σ, (a.scope σ).names.Sorted
  names : ∀ σ name t, (name, t) ∈ (a.scope σ).names → t < a.symbols.size ∧
    (a.symbol t).name = name ∧ ((a.symbol t).scope = σ ∨ a.Publishes σ t)
  exporter : ∀ σ s, (a.scope σ).kind = .exports s → s < a.symbols.size
  unitsFirst : a.UnitsFirst

theorem tabled_initial : Analysis.initial.arena.Tabled := by
  have tables : ∀ σ, (Analysis.initial.arena.scope σ).slots = [] ∧
      (Analysis.initial.arena.scope σ).names = [] ∧
      ∀ s, (Analysis.initial.arena.scope σ).kind ≠ .exports s := by
    intro σ
    match σ with
    | 0 | 1 | _ + 2 => exact ⟨rfl, rfl, fun s h => by cases h⟩
  refine ⟨fun t ht => absurd ht (Nat.not_lt_zero t), fun σ => ?_, fun σ =>
    ?_, fun σ name t ht => ?_,
    fun σ s hs => absurd hs ((tables σ).2.2 s), fun s σ hs => by cases hs⟩
  · rw [(tables σ).1]
    exact List.Pairwise.nil
  · rw [(tables σ).2.1]
    exact Entries.sorted_nil
  · rw [(tables σ).2.1] at ht
    cases ht

/-! ## Well-formed arenas are indexed -/

/-- Symbols are declared in scopes that exist. -/
theorem Formed.home_lt {a : Arena} (h : a.Formed) {t : SymbolId} (known : t < a.symbols.size) :
    (a.symbol t).scope < a.scopes.size := by
  refine Nat.lt_of_not_le fun out => ?_
  have here := h.placed t known
  rw [scope, Array.getD_eq_getD_getElem?, Array.getElem?_eq_none out] at here
  cases here

theorem Formed.mem_slots_iff {a : Arena} (h : a.Formed) {σ : ScopeId} {t : SymbolId} :
    t ∈ (a.scope σ).slots ↔ t < a.symbols.size ∧ (a.symbol t).scope = σ := by
  constructor
  · intro mem
    obtain ⟨i, hi⟩ := List.getElem?_of_mem mem
    exact ⟨(h.slot σ i t hi).1, (h.slot σ i t hi).2.1⟩
  · rintro ⟨known, rfl⟩
    exact List.mem_of_getElem? (h.placed t known)

theorem Formed.inRange {a : Arena} (h : a.Formed) (tabled : a.Tabled) : a.InRange where
  home _ := h.home_lt
  slots _ _ := h.lt_of_mem
  names σ entry mem := (tabled.names σ entry.1 entry.2 mem).1
  enclosing σ outer inner := Nat.lt_trans (h.older σ outer inner) (lt_size_of_enclosing inner)
  owner σ s owner := by
    rw [owner?] at owner
    split at owner
    · next kind =>
      cases owner
      exact (h.owner σ s kind).1
    · next kind =>
      cases owner
      exact tabled.exporter σ s kind
    · cases owner
  members _ _ := h.lt_of_members
  exports _ _ := h.lt_of_exports
  root s σ root := by
    obtain ⟨o, kind, -⟩ := h.rooted s σ root
    exact lt_size_of_kind (by rw [kind]; exact fun h => by cases h)
  resolved s t resolved := by
    rw [h.resolved] at resolved
    cases resolved

theorem Formed.elder_of_slots {a : Arena} (h : a.Formed) : a.Elder :=
  fun t known s kind => h.elder _ s kind t (h.mem_slots_iff.mpr ⟨known, rfl⟩)

/-- A well-formed arena with its tables in order is indexed. -/
theorem Formed.indexed {a : Arena} (h : a.Formed) (tabled : a.Tabled) : a.Indexed where
  numbered := tabled.numbered
  slot := h.placed
  slots σ := by
    -- Both lists ascend and hold the same symbols.
    refine List.Perm.eq_of_pairwise (fun s t _ _ hst hts => absurd hts (Nat.lt_asymm hst))
      (tabled.ascending σ) (List.pairwise_lt_range.filter _) ?_
    refine (List.perm_ext_iff_of_nodup ?_ (List.nodup_range.filter _)).mpr fun t => ?_
    · exact (tabled.ascending σ).imp Nat.ne_of_lt
    · rw [h.mem_slots_iff, List.mem_filter, List.mem_range, beq_iff_eq]
  named σ t mem := by
    obtain ⟨known, rfl⟩ := h.mem_slots_iff.mp mem
    exact h.named t known
  names σ name t mem := by
    obtain ⟨known, called, place⟩ := tabled.names σ name t mem
    exact ⟨called, place.imp_left fun home => h.mem_slots_iff.mpr ⟨known, home⟩⟩
  once σ := by
    refine List.pairwise_map.mpr ((tabled.sorted σ).imp fun {first second} ascends same => ?_)
    rw [same] at ascends
    exact String.lt_irrefl _ ascends
  inRange := h.inRange tabled
  descends := h.older
  elder := h.elder_of_slots

end Arena

/-- What becomes of a fault: it is noted, or else it ends the pass. -/
def Building.reported (b : Building) (fault : Fault) : Except Fault Building :=
  if b.recovery then .ok (b.mapAnalysis fun a => { a with faults := a.faults ++ [fault] })
  else .error fault

namespace Build

variable {ids : List NodeId} {b b' : Building}

/-! ## What a step does to the tables -/

/-- A step changes the tables of a scope in one of two ways: a symbol is declared in it and gets the
next slot, or a library is shown in it and gets none. -/
inductive Tables (b b' : Building) (σ : ScopeId) : Prop where
  | same (names : (b'.arena.scope σ).names = (b.arena.scope σ).names)
    (slots : (b'.arena.scope σ).slots = (b.arena.scope σ).slots)
  | declared
    (names : (b'.arena.scope σ).names =
      (b.arena.scope σ).names.insert (b'.arena.symbol b.arena.symbols.size).name
        b.arena.symbols.size)
    (slots : (b'.arena.scope σ).slots = (b.arena.scope σ).slots ++ [b.arena.symbols.size])
    (known : b.arena.symbols.size < b'.arena.symbols.size)
    (home : (b'.arena.symbol b.arena.symbols.size).scope = σ)
  | published (t : SymbolId) (known : t < b.arena.symbols.size)
    (names : (b'.arena.scope σ).names = (b.arena.scope σ).names.insert (b.arena.symbol t).name t)
    (slots : (b'.arena.scope σ).slots = (b.arena.scope σ).slots) (publishes : b.arena.Publishes σ t)

/-- A new scope has no names and no slots, just like a scope that does not exist. -/
theorem tables_newScope {a : Arena} {kind : ScopeKind} {enclosing : Option ScopeId} {ordered : Bool}
    (σ : ScopeId) : ((a.newScope kind enclosing ordered).2.scope σ).names = (a.scope σ).names ∧
      ((a.newScope kind enclosing ordered).2.scope σ).slots = (a.scope σ).slots := by
  rw [Arena.scope_newScope]
  split
  · next new =>
    rw [new, Arena.scope, Array.getD_eq_getD_getElem?, Array.getElem?_eq_none (Nat.le_refl _)]
    exact ⟨rfl, rfl⟩
  · exact ⟨rfl, rfl⟩

theorem Step.tables (step : Step ids b b') (σ : ScopeId) : Tables b b' σ := by
  cases step with
  | @declare scope d mem known free admits opened =>
    have new : (b.arena.withDeclared scope d).symbol b.arena.symbols.size =
        b.arena.declared scope d := by
      rw [Arena.symbol_withDeclared, if_pos rfl]
    have after := Arena.scope_withDeclared known d σ
    by_cases here : σ = scope
    · subst here
      rw [if_pos rfl] at after
      refine .declared ?_ (congrArg Scope.slots after) ?_ (congrArg Symbol.scope new)
      · show ((b.arena.withDeclared σ d).scope σ).names =
          (b.arena.scope σ).names.insert ((b.arena.withDeclared σ d).symbol _).name _
        rw [new, after]
        rfl
      · show b.arena.symbols.size < (b.arena.withDeclared σ d).symbols.size
        rw [Arena.size_symbols_withDeclared]
        exact Nat.lt_succ_self _
    · rw [if_neg here] at after
      exact .same (congrArg Scope.names after) (congrArg Scope.slots after)
  | @publish exports name t declared free shared called library shown =>
    subst called
    have after := Arena.scope_modifyScope b.arena exports σ fun s =>
      { s with names := s.names.insert (b.arena.symbol t).name t }
    split at after
    · next here =>
      obtain ⟨rfl, -⟩ := here
      exact .published t declared.1 (congrArg Scope.names after)
        ((congrArg Scope.slots after).trans rfl) ⟨declared.2, library, shown, shared⟩
    · exact .same (congrArg Scope.names after) (congrArg Scope.slots after)
  | scope mem dynamic hosts => exact .same (tables_newScope σ).1 (tables_newScope σ).2
  | members mem declared own owning nested bare nests around =>
    exact .same (tables_newScope σ).1 (tables_newScope σ).2
  | exports nests declared => exact .same (tables_newScope σ).1 (tables_newScope σ).2
  | unit mem name declared own called owning home bare early =>
    exact .same (tables_newScope σ).1 (tables_newScope σ).2
  | _ => exact .same rfl rfl

/-- A library goes on being shown. -/
theorem Step.publishes (step : Step ids b b') {σ : ScopeId} {t : SymbolId}
    (known : t < b.arena.symbols.size) (h : b.arena.Publishes σ t) : b'.arena.Publishes σ t := by
  have same := (step.sameSymbol known).2
  obtain ⟨s, exports, members⟩ := h.module
  refine ⟨(congrArg Declaration.binding same.declaration).trans h.direct,
    (congrArg Declaration.target same.declaration).trans h.library,
    (congrArg Declaration.exported same.declaration).trans h.exported, s, ?_, ?_⟩
  · exact (Steps.single step).kind exports fun h => by cases h
  · rw [same.scope]
    exact (Steps.single step).kind members fun h => by cases h

theorem Step.numbered (step : Step ids b b')
    (h : ∀ t, t < b.arena.symbols.size → (b.arena.symbol t).id = t) :
    ∀ t, t < b'.arena.symbols.size → (b'.arena.symbol t).id = t := by
  -- A change of the scopes that a symbol owns.
  have modified : ∀ {a : Arena} {owner : SymbolId} {f : Symbol → Symbol}, a.symbols =
      b.arena.symbols → (∀ s, (f s).id = s.id) → ∀ t, t < (a.modifySymbol owner f).symbols.size →
        ((a.modifySymbol owner f).symbol t).id = t := by
    intro a owner f same keeps t known
    rw [Arena.modifySymbol, Array.size_modify, same] at known
    have old : (a.symbol t).id = t := by
      rw [Arena.symbol, same]
      exact h t known
    rw [Arena.symbol_modifySymbol]
    split
    · rw [keeps]
      exact old
    · exact old
  cases step with
  | @declare scope d mem known free admits opened =>
    intro t ht
    change t < (b.arena.withDeclared scope d).symbols.size at ht
    show ((b.arena.withDeclared scope d).symbol t).id = t
    rw [Arena.size_symbols_withDeclared] at ht
    rw [Arena.symbol_withDeclared]
    split
    · next new =>
      rw [new]
      rfl
    · next old => exact h t (Nat.lt_of_le_of_ne (Nat.le_of_lt_succ ht) old)
  | members mem declared own owning nested bare nests around => exact modified rfl fun _ => rfl
  | exports nests declared => exact modified rfl fun _ => rfl
  | unit mem name declared own called owning home bare early => exact modified rfl fun _ => rfl
  | _ => exact h

/-- Exports belong to a symbol that was declared. -/
theorem Step.exporter (step : Step ids b b')
    (h : ∀ σ s, (b.arena.scope σ).kind = .exports s → s < b.arena.symbols.size) (σ : ScopeId)
    (s : SymbolId) (kind : (b'.arena.scope σ).kind = .exports s) : s < b'.arena.symbols.size := by
  have old : (b.arena.scope σ).kind = .exports s → s < b'.arena.symbols.size :=
    fun kind => (step.sameSymbol (h σ s kind)).1
  have created : ∀ {k : ScopeKind} {enclosing : Option ScopeId} {ordered : Bool},
      ((b.arena.newScope k enclosing ordered).2.scope σ).kind = .exports s →
        k = .exports s ∨ (b.arena.scope σ).kind = .exports s := by
    intro k enclosing ordered kind
    rw [Arena.scope_newScope] at kind
    split at kind
    · exact .inl kind
    · exact .inr kind
  cases step with
  | @declare scope d mem known free admits opened =>
    change ((b.arena.withDeclared scope d).scope σ).kind = _ at kind
    rw [Arena.scope_withDeclared known] at kind
    split at kind <;> exact old kind
  | @publish exports name t declared free shared called library shown =>
    change ((b.arena.modifyScope exports _).scope σ).kind = _ at kind
    rw [Arena.scope_modifyScope] at kind
    split at kind <;> exact old kind
  | scope mem dynamic hosts =>
    rcases created kind with new | kind
    · rcases dynamic with rfl | rfl <;> cases new
    · exact old kind
  | members mem declared own owning nested bare nests around =>
    rcases created kind with new | kind
    · cases new
    · exact old kind
  | exports nests declared module closed =>
    rcases created kind with new | kind
    · cases new
      exact ((@Step.exports ids b _ _ nests declared module closed).sameSymbol declared.1).1
    · exact old kind
  | unit mem name declared own called owning home bare early =>
    rcases created kind with new | kind
    · cases new
    · exact old kind
  | _ => exact old kind

/-- A scope of members that is created now comes after those of all units. -/
theorem unitsFirst_addMembers {a : Arena} (formed : a.Formed) (first : a.UnitsFirst)
    {owner : SymbolId} {enclosing : Option ScopeId}
      (later : (a.symbol owner).scope ≠ Analysis.unitsScope ∨ ∀ s σ, (a.symbol s).members = some σ →
        (a.symbol s).scope = Analysis.unitsScope) :
    ((a.newScope (.members owner) enclosing false).2.setMembers owner
      a.scopes.size).UnitsFirst := by
  have members : ∀ {s σ}, (((a.newScope (.members owner) enclosing false).2.setMembers owner
      a.scopes.size).symbol s).members = some σ →
        s = owner ∧ σ = a.scopes.size ∨ (a.symbol s).members = some σ := by
    intro s σ hs
    rw [Arena.setMembers, Arena.symbol_modifySymbol] at hs
    split at hs
    · next here =>
      cases hs
      exact .inl ⟨here.1, rfl⟩
    · exact .inr hs
  have scope : ∀ s, (((a.newScope (.members owner) enclosing false).2.setMembers owner
      a.scopes.size).symbol s).scope = (a.symbol s).scope := by
    intro s
    rw [Arena.setMembers, Arena.symbol_modifySymbol]
    split <;> rfl
  intro s σ hs home t τ ht away
  rw [scope] at home away
  rcases members hs with ⟨rfl, rfl⟩ | hs'
  · -- The new scope is that of a unit: so far there are only units.
    have onlyUnits := later.resolve_left fun away => away home
    rcases members ht with ⟨rfl, -⟩ | ht
    · exact absurd home away
    · exact absurd (onlyUnits t τ ht) away
  · rcases members ht with ⟨rfl, rfl⟩ | ht'
    · exact formed.lt_of_members hs'
    · exact first s σ hs' home t τ ht' away

theorem Step.unitsFirst (step : Step ids b b') (formed : Formed b) (first : b.arena.UnitsFirst) :
    b'.arena.UnitsFirst := by
  -- Without new members nothing changes.
  have kept : (∀ s σ, (b'.arena.symbol s).members = some σ → (b.arena.symbol s).members = some σ) →
      b'.arena.UnitsFirst := by
    intro old s σ hs home t τ ht away
    have scope : ∀ {s σ}, (b.arena.symbol s).members = some σ →
        (b'.arena.symbol s).scope = (b.arena.symbol s).scope := fun {s σ} hs =>
      (step.sameSymbol (formed.arena.owner σ s (formed.arena.members s σ hs).1).1).2.scope
    have hs := old s σ hs
    have ht := old t τ ht
    rw [scope hs] at home
    rw [scope ht] at away
    exact first s σ hs home t τ ht away
  cases step with
  | @declare scope d mem known free admits opened =>
    refine kept fun s σ hs => ?_
    change ((b.arena.withDeclared scope d).symbol s).members = some σ at hs
    rw [Arena.symbol_withDeclared] at hs
    split at hs
    · cases hs
    · exact hs
  | @exports owner enclosing nests declared =>
    refine kept fun s σ hs => ?_
    change ((Arena.modifySymbol _ owner _).symbol s).members = some σ at hs
    rw [Arena.symbol_modifySymbol] at hs
    split at hs <;> exact hs
  | members mem declared own owning nested bare nests around =>
    refine unitsFirst_addMembers formed.arena first (.inl fun home => ?_)
    obtain ⟨s, kind⟩ := nested
    rw [home, (formed.arena.units _).mpr rfl] at kind
    cases kind
  | unit mem name declared own called owning home bare early =>
    exact unitsFirst_addMembers formed.arena first (.inr early)
  | _ => exact first

/-- **A step keeps the tables in order.** -/
theorem Step.tabled (step : Step ids b b') (formed : Formed b) (h : b.arena.Tabled) :
    b'.arena.Tabled := by
  refine ⟨step.numbered h.numbered, fun σ => ?_, fun σ => ?_, fun σ name t mem => ?_,
    step.exporter h.exporter, step.unitsFirst formed h.unitsFirst⟩
  · cases step.tables σ with
    | same names slots =>
      rw [slots]
      exact h.ascending σ
    | declared names slots known home =>
      -- The next number is greater than that of every symbol so far.
      rw [slots]
      refine List.pairwise_append.mpr ⟨h.ascending σ, List.pairwise_singleton ..,
        fun t mem s new => ?_⟩
      rw [List.mem_singleton.mp new]
      exact formed.arena.lt_of_mem mem
    | published t known names slots publishes =>
      rw [slots]
      exact h.ascending σ
  · cases step.tables σ with
    | same names slots =>
      rw [names]
      exact h.sorted σ
    | declared names slots known home =>
      rw [names]
      exact (h.sorted σ).insert ..
    | published t known names slots publishes =>
      rw [names]
      exact (h.sorted σ).insert ..
  · have old : ∀ {name t}, t < b.arena.symbols.size ∧ (b.arena.symbol t).name = name ∧
        ((b.arena.symbol t).scope = σ ∨ b.arena.Publishes σ t) →
      t < b'.arena.symbols.size ∧ (b'.arena.symbol t).name = name ∧
        ((b'.arena.symbol t).scope = σ ∨ b'.arena.Publishes σ t) := by
      rintro name t ⟨known, called, place⟩
      obtain ⟨known', same⟩ := step.sameSymbol known
      exact ⟨known', (congrArg Declaration.name same.declaration).trans called,
        place.imp same.scope.trans (step.publishes known)⟩
    cases step.tables σ with
    | same names slots =>
      rw [names] at mem
      exact old (h.names σ name t mem)
    | declared names slots known home =>
      rw [names] at mem
      rcases Entries.mem_insert mem with new | mem
      · cases new
        exact ⟨known, rfl, .inl home⟩
      · exact old (h.names σ name t mem)
    | published t known names slots publishes =>
      rw [names] at mem
      rcases Entries.mem_insert mem with new | mem
      · cases new
        exact old ⟨known, rfl, .inr publishes⟩
      · exact old (h.names σ name _ mem)

/-- **The first pass keeps the tables in order.** -/
theorem Steps.tabled (s : Steps ids b b') (formed : Formed b) (h : b.arena.Tabled) :
    b'.arena.Tabled :=
  (s.preserve (P := fun b => Formed b ∧ b.arena.Tabled)
    (fun _ _ step h => ⟨step.formed h.1, step.tabled h.1 h.2⟩) ⟨formed, h⟩).2

/-! ## Declarations that fail -/

/-- A fault is noted, or ends the pass. Nothing else happens. -/
theorem report_eq (fault : Fault) (b : Building) :
    report fault b = (b.reported fault).map fun b => (⟨⟩, b) := by
  obtain ⟨analysis, pending, recovery⟩ := b
  cases recovery <;> rfl

/-- **A declaration that fails leaves everything but the faults alone.** -/
theorem declare_taken {σ : ScopeId} {d : Declaration} {fault : Fault}
    (taken : b.arena.declare σ d = .error fault) :
    declare σ d b = (b.reported fault).map fun b => (none, b) := by
  have reported : declare σ d b = (report fault >>= fun _ => pure none : Build _) b := by
    change b.analysis.arena.declare σ d = .error fault at taken
    simp only [declare, bind, StateT.bind, get, getThe, MonadStateOf.get, StateT.get, pure,
      Except.pure, Except.bind, taken]
  rw [reported]
  show StateT.bind (report fault) _ b = _
  rw [StateT.bind, report_eq]
  cases b.reported fault <;> rfl

/-- **What cannot be shown to other units leaves everything but the faults alone.** -/
theorem publish_taken {exports : ScopeId} {name : String} {t : SymbolId} {fault : Fault}
    (taken : b.arena.publish exports name t = .error fault) :
    publish exports name t b = (b.reported fault).map fun b => (⟨⟩, b) := by
  rw [← report_eq]
  change b.analysis.arena.publish exports name t = .error fault at taken
  simp only [publish, bind, StateT.bind, get, getThe, MonadStateOf.get, StateT.get, pure,
    Except.pure, Except.bind, taken]

end Build

end CellScript
