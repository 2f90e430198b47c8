import CellScript.Proofs.Linking.Link
import CellScript.Scope.Analyze

/-!
# Arenas that are ready for evaluation

Linking binds symbols and moves sections into their modules. What evaluation relies on survives
both: slots and symbols agree, functions and blocks lie inside scopes that host expressions, and
everything that is laid out once is reached through owners from the units.

* `Arena.Ready` — the invariant
* `Arena.Binds.ready`, `Arena.Ready.setEnclosing` — linking and placing sections keep it
* `linkUnits_ready` — a program that was linked without a fault has such an arena
-/

namespace CellScript

namespace Arena

/-- An arena as evaluation finds it. -/
structure Ready (a : Arena) : Prop where
  /-- Functions and blocks lie inside older scopes that host expressions. -/
  dynamic : ∀ σ outer, (a.scope σ).enclosing = some outer → (a.scope σ).kind.isDynamic = true →
    outer < σ ∧ (a.scope outer).kind.hosts = true
  /-- What is laid out once lies inside something that is laid out once. -/
  static : ∀ σ outer, (a.scope σ).enclosing = some outer → (a.scope σ).kind.isDynamic = false →
    (a.scope outer).kind.isDynamic = false
  slot : ∀ σ i t, (a.scope σ).slots[i]? = some t →
    t < a.symbols.size ∧ (a.symbol t).scope = σ ∧ (a.symbol t).slot = i
  placed : ∀ t, t < a.symbols.size →
    (a.scope (a.symbol t).scope).slots[(a.symbol t).slot]? = some t
  /-- Variables are declared where expressions are evaluated. -/
  home : ∀ t, t < a.symbols.size → (a.symbol t).binding = .direct → (a.symbol t).target = .var →
    (a.scope (a.symbol t).scope).kind.isDynamic = true ∨
      ∃ s, (a.scope (a.symbol t).scope).kind = .members s
  name : ∀ σ name t, (a.scope σ).get? name = some t → t < a.symbols.size ∧
    ((a.symbol t).scope = σ ∨ ∃ s, (a.scope (a.symbol t).scope).kind = .members s)
  /-- A symbol is found by its name, where it is declared. -/
  named : ∀ t, t < a.symbols.size → (a.scope (a.symbol t).scope).get? (a.symbol t).name = some t
  members : ∀ s σ, (a.symbol s).members = some σ → (a.scope σ).kind = .members s
  /-- Only units, libraries and sections have members. -/
  owning : ∀ s σ, (a.symbol s).members = some σ →
    (a.symbol s).binding = .direct ∧ (a.symbol s).target.isScoped = true
  /-- The scope of an owner is older than that of its members. -/
  deeper : ∀ s σ, (a.symbol s).members = some σ → (a.symbol s).scope < σ
  exports : ∀ s σ, (a.symbol s).exports = some σ → (a.scope σ).kind = .exports s
  owner : ∀ σ s, (a.scope σ).kind = .members s →
    s < a.symbols.size ∧ (a.symbol s).members = some σ
  /-- Owners are declared among the units, or among the members of another owner. -/
  ownerHome : ∀ σ s, (a.scope σ).kind = .members s →
    (a.scope (a.symbol s).scope).kind = .units ∨
      ∃ s', (a.scope (a.symbol s).scope).kind = .members s'
  elder : ∀ σ s, (a.scope σ).kind = .members s → ∀ t ∈ (a.scope σ).slots, s < t
  units : ∀ σ, (a.scope σ).kind = .units ↔ σ = Analysis.unitsScope
  /-- What a linked symbol stands for is laid out once. -/
  resolved : ∀ s t, (a.symbol s).resolved = some t → t < a.symbols.size ∧
    (a.symbol t).binding = .direct ∧ (a.scope (a.symbol t).scope).kind.isDynamic = false

variable {a b : Arena} {units : Entries SymbolId}

/-! ## Symbols that are found from outside are laid out once -/

/-- The symbol is declared in a scope that is laid out once. -/
def LaidOnce (a : Arena) (t : SymbolId) : Prop :=
  t < a.symbols.size ∧ (a.scope (a.symbol t).scope).kind.isDynamic = false

theorem Formed.laidOnce_of_name (h : a.Formed) {σ : ScopeId} {name : String} {t : SymbolId}
    (static : (a.scope σ).kind.isDynamic = false) (found : (a.scope σ).get? name = some t) :
    a.LaidOnce t := by
  obtain ⟨known, home | ⟨-, s, -, home⟩⟩ := h.name σ name t found
  · exact ⟨known, by rw [home]; exact static⟩
  · exact ⟨known, by rw [home]; rfl⟩

/-- Everything around a scope that is laid out once is laid out once. -/
theorem Formed.isDynamic_of_mem_outwards (h : a.Formed) (fuel : Nat) {σ τ : ScopeId}
    (static : (a.scope σ).kind.isDynamic = false) (mem : τ ∈ a.outwards fuel σ) :
    (a.scope τ).kind.isDynamic = false := by
  induction fuel generalizing σ with
  | zero => cases mem
  | succ fuel ih =>
    rcases List.mem_cons.mp mem with rfl | mem
    · exact static
    · cases he : (a.scope σ).enclosing with
      | none =>
        rw [he] at mem
        cases mem
      | some outer =>
        rw [he] at mem
        exact ih (h.static σ outer he static).1 mem

theorem mem_chain_of_firstSymbol? {scope : ScopeId} {anchor : Anchor} {name : String} {t : SymbolId}
    (h : a.firstSymbol? scope anchor name = some t) :
    ∃ id ∈ a.chain scope, (a.scope id).get? name = some t ∧
      (anchor ≠ .here → (a.scope id).kind.isDynamic = false) := by
  cases anchor with
  | global =>
    simp only [firstSymbol?, Option.bind_eq_some_iff] at h
    obtain ⟨id, found, named⟩ := h
    refine ⟨id, List.mem_of_find?_eq_some found, named, fun _ => ?_⟩
    have kind := List.find?_some found
    rw [eq_of_beq kind]
    rfl
  | here =>
    simp only [firstSymbol?] at h
    obtain ⟨id, mem, named⟩ := List.exists_of_findSome?_eq_some h
    exact ⟨id, (List.takeWhile_subset _) mem, named, fun h => absurd rfl h⟩
  | module | library =>
    simp only [firstSymbol?, memberScope?, Option.bind_eq_some_iff] at h
    obtain ⟨id, found, named⟩ := h
    refine ⟨id, List.mem_of_find?_eq_some found, named, fun _ => ?_⟩
    have kind := List.find?_some found
    cases hk : (a.scope id).kind with
    | members owner => rfl
    | _ =>
      rw [hk] at kind
      cases kind

/-- The scope in which names behind a symbol are looked up is laid out once. -/
theorem kind_of_publicScope? {s : SymbolId} {σ : ScopeId} (h : a.publicScope? s = some σ) :
    (a.symbol s).exports = some σ ∨ (a.symbol s).members = some σ := by
  simp only [publicScope?] at h
  cases ht : (a.symbol s).target <;> rw [ht] at h
  · exact .inl h
  · exact .inr h
  · cases h
  · exact .inr h
  · exact .inr h
  · cases h

theorem Formed.laidOnce_of_shows (h : a.Formed) {container entry : SymbolId} {name : String}
    (shown : a.Shows container name entry) : a.LaidOnce entry := by
  obtain ⟨scope, found, named⟩ := shown
  refine h.laidOnce_of_name ?_ named
  rcases kind_of_publicScope? found with found | found
  · rw [h.exports _ _ found]
    rfl
  · rw [(h.members _ _ found).1]
    rfl

/-- Nothing that is laid out anew for each evaluation is ever linked to. -/
theorem Resolves.laidOnce (h : a.Formed)
    (unit : ∀ path s, Entries.get? units path = some s → a.LaidOnce s) {s t : SymbolId}
    (start : (a.symbol s).binding = .direct → a.LaidOnce s) (resolves : Resolves a units s t) :
    a.LaidOnce t := by
  refine @Resolves.rec a units
    (fun s t _ => ((a.symbol s).binding = .direct → a.LaidOnce s) → a.LaidOnce t)
    (fun s _ t _ => a.LaidOnce s → a.LaidOnce t)
    ?direct ?moduleImport ?nameImport ?path ?nil ?cons s t resolves start
  case direct => exact fun binding start => start binding
  case moduleImport => exact fun _ found _ => unit _ _ found.1
  case nameImport =>
    intro _ _ _ _ _ _ _ _ exported _ rest _
    obtain ⟨scope, exported, named⟩ := exported
    exact rest fun _ => h.laidOnce_of_name (by rw [h.exports _ _ exported]; rfl) named
  case path =>
    intro s start last _ r scope binding found _ _ walk rest _
    have root : (a.scope scope).kind.isDynamic = false := by
      have : (a.symbol s).binding.root? = some scope := by
        rcases binding with hb | hb <;> rw [hb] <;> rfl
      obtain ⟨owner, kind, -⟩ := h.rooted s scope this
      rw [kind]
      rfl
    have first : a.LaidOnce start := by
      simp only [StartsAt, Option.bind_eq_some_iff] at found
      obtain ⟨name, -, found⟩ := found
      obtain ⟨id, mem, named, -⟩ := mem_chain_of_firstSymbol? found
      exact h.laidOnce_of_name (h.isDynamic_of_mem_outwards _ root mem) named
    exact rest fun _ => walk first
  case nil => exact fun start => start
  case cons =>
    intro _ _ _ _ _ _ _ shown _ _ rest _
    exact rest (h.laidOnce_of_shows shown)

/-! ## Linking -/

/-- Nothing about a linked symbol changes but what it stands for. -/
structure SameBut (s s' : Symbol) : Prop where
  name : s'.name = s.name
  node : s'.node = s.node
  binding : s'.binding = s.binding
  ty : s'.ty = s.ty
  scope : s'.scope = s.scope
  slot : s'.slot = s.slot
  members : s'.members = s.members
  exports : s'.exports = s.exports

theorem Binds.sameBut (h : Binds a units b) (s : SymbolId) : SameBut (a.symbol s) (b.symbol s) := by
  rcases h.symbol s with he | ⟨-, t, -, he⟩ <;> rw [he] <;> constructor <;> rfl

/-- **Linking makes a well-formed arena ready.** -/
theorem Binds.ready (h : Binds a units b) (formed : a.Formed) (fresh : Unlinked a units)
    (unit : ∀ path s, Entries.get? units path = some s → a.LaidOnce s) : b.Ready := by
  have same := h.sameBut
  constructor
  all_goals try simp only [h.scope, h.size]
  case dynamic =>
    exact fun σ outer he hd => ⟨formed.older σ outer he, formed.dynamic σ outer he hd⟩
  case static => exact fun σ outer he hd => (formed.static σ outer he hd).1
  case slot =>
    intro σ i t ht
    rw [(same t).scope, (same t).slot]
    exact formed.slot σ i t ht
  case placed =>
    intro t ht
    rw [(same t).scope, (same t).slot]
    exact formed.placed t ht
  case home =>
    intro t ht direct var
    rw [(same t).binding] at direct
    rw [h.symbol_of_direct direct] at var ⊢
    have admitted := formed.admitted t ht
    cases hk : (a.scope (a.symbol t).scope).kind with
    | members s => exact .inr ⟨s, rfl⟩
    | function n => exact .inl rfl
    | block n => exact .inl rfl
    | units =>
      rw [hk] at admitted
      exact absurd var admitted.2
    | global => exact absurd admitted (ScopeKind.not_admits_direct direct (.inl hk))
    | exports s => exact absurd admitted (ScopeKind.not_admits_direct direct (.inr ⟨s, hk⟩))
  case name =>
    intro σ name t ht
    rw [(same t).scope]
    obtain ⟨known, home | ⟨-, s, -, home⟩⟩ := formed.name σ name t ht
    · exact ⟨known, .inl home⟩
    · exact ⟨known, .inr ⟨s, home⟩⟩
  case named =>
    intro t ht
    rw [(same t).scope, (same t).name]
    exact formed.named t ht
  case members =>
    intro s σ hs
    rw [(same s).members] at hs
    exact (formed.members s σ hs).1
  case owning =>
    intro s σ hs
    rw [(same s).members] at hs
    obtain ⟨kind, owning⟩ := formed.members s σ hs
    have direct := (formed.owner σ s kind).2.1
    rw [h.symbol_of_direct direct]
    exact ⟨direct, owning⟩
  case deeper =>
    intro s σ hs
    rw [(same s).members] at hs
    rw [(same s).scope]
    exact formed.deeper s σ hs
  case exports =>
    intro s σ hs
    rw [(same s).exports] at hs
    exact formed.exports s σ hs
  case owner =>
    intro σ s hk
    rw [(same s).members]
    exact ⟨(formed.owner σ s hk).1, (formed.owner σ s hk).2.2⟩
  case ownerHome =>
    intro σ s hk
    rw [(same s).scope]
    obtain ⟨known, direct, members⟩ := formed.owner σ s hk
    have owning := (formed.members s σ members).2
    have admitted := formed.admitted s known
    cases hk' : (a.scope (a.symbol s).scope).kind with
    | members s' => exact .inr ⟨s', rfl⟩
    | units => exact .inl rfl
    | function n | block n =>
      rw [hk'] at admitted
      rw [admitted.2] at owning
      cases owning
    | global => exact absurd admitted (ScopeKind.not_admits_direct direct (.inl hk'))
    | exports s' => exact absurd admitted (ScopeKind.not_admits_direct direct (.inr ⟨s', hk'⟩))
  case elder => exact formed.elder
  case units => exact formed.units
  case resolved =>
    intro s t ht
    rcases h.symbol s with he | ⟨indirect, t', resolves, he⟩
    · rw [he, formed.resolved] at ht
      cases ht
    · rw [he] at ht
      cases ht
      obtain ⟨known, static⟩ := resolves.laidOnce formed unit fun direct => by
        rw [direct] at indirect
        cases indirect
      rw [(same t).binding, (same t).scope]
      exact ⟨known, resolves.isDirect fresh, static⟩

/-- Moving something that is laid out once into another such scope. -/
theorem Ready.setEnclosing (h : a.Ready) {σ : ScopeId} {enclosing : Option ScopeId}
    (static : (a.scope σ).kind.isDynamic = false)
    (inside : ∀ outer, enclosing = some outer → (a.scope outer).kind.isDynamic = false) :
    (a.setEnclosing σ enclosing).Ready := by
  have scope : ∀ id, (a.setEnclosing σ enclosing).scope id = a.scope id ∨
      id = σ ∧ (a.setEnclosing σ enclosing).scope id =
        { a.scope id with enclosing := enclosing } := by
    intro id
    rw [Arena.setEnclosing, scope_modifyScope]
    split
    · next he => exact .inr ⟨he.1, rfl⟩
    · exact .inl rfl
  have kind : ∀ id, ((a.setEnclosing σ enclosing).scope id).kind = (a.scope id).kind := by
    intro id
    rcases scope id with hs | ⟨-, hs⟩ <;> rw [hs]
  have slots : ∀ id, ((a.setEnclosing σ enclosing).scope id).slots = (a.scope id).slots := by
    intro id
    rcases scope id with hs | ⟨-, hs⟩ <;> rw [hs]
  have get : ∀ id name, ((a.setEnclosing σ enclosing).scope id).get? name =
      (a.scope id).get? name := by
    intro id name
    rcases scope id with hs | ⟨-, hs⟩ <;> rw [hs]
    rfl
  have symbol : ∀ s, (a.setEnclosing σ enclosing).symbol s = a.symbol s := symbol_modifyScope a σ _
  have size : (a.setEnclosing σ enclosing).symbols.size = a.symbols.size := rfl
  constructor
  all_goals simp only [kind, slots, get, symbol, size]
  case dynamic =>
    intro id outer he hd
    rcases scope id with hs | ⟨rfl, -⟩
    · rw [hs] at he
      exact h.dynamic id outer he hd
    · rw [static] at hd
      cases hd
  case static =>
    intro id outer he hd
    rcases scope id with hs | ⟨rfl, hs⟩ <;> rw [hs] at he
    · exact h.static id outer he hd
    · exact inside outer he
  case slot => exact h.slot
  case placed => exact h.placed
  case home => exact h.home
  case name => exact h.name
  case named => exact h.named
  case members => exact h.members
  case owning => exact h.owning
  case deeper => exact h.deeper
  case exports => exact h.exports
  case owner => exact h.owner
  case ownerHome => exact h.ownerHome
  case elder => exact h.elder
  case units => exact h.units
  case resolved => exact h.resolved

end Arena

/-! ## Linking a program -/

/-- What linking leaves alone: the tables by node, and all that says what symbols and scopes are. -/
structure Analysis.Relinked (a a' : Analysis) : Prop where
  created : a'.createdScopes = a.createdScopes
  nodeScopes : a'.nodeScopes = a.nodeScopes
  definitions : a'.definitions = a.definitions
  references : a'.references = a.references
  closures : a'.closures = a.closures
  units : a'.units = a.units
  size : a'.arena.symbols.size = a.arena.symbols.size
  symbol : ∀ t, Arena.SameBut (a.arena.symbol t) (a'.arena.symbol t)
  direct : ∀ t, (a.arena.symbol t).binding = .direct → a'.arena.symbol t = a.arena.symbol t
  kind : ∀ σ, (a'.arena.scope σ).kind = (a.arena.scope σ).kind
  slots : ∀ σ, (a'.arena.scope σ).slots = (a.arena.scope σ).slots
  dynamic : ∀ σ, (a.arena.scope σ).kind.isDynamic = true → a'.arena.scope σ = a.arena.scope σ

namespace Analysis

variable {a a' a'' : Analysis}

theorem Relinked.trans (h : a.Relinked a') (h' : a'.Relinked a'') : a.Relinked a'' where
  created := h'.created.trans h.created
  nodeScopes := h'.nodeScopes.trans h.nodeScopes
  definitions := h'.definitions.trans h.definitions
  references := h'.references.trans h.references
  closures := h'.closures.trans h.closures
  units := h'.units.trans h.units
  size := h'.size.trans h.size
  symbol t :=
    have s := h.symbol t
    have s' := h'.symbol t
    ⟨s'.name.trans s.name, s'.node.trans s.node, s'.binding.trans s.binding, s'.ty.trans s.ty,
      s'.scope.trans s.scope, s'.slot.trans s.slot, s'.members.trans s.members,
      s'.exports.trans s.exports⟩
  direct t ht := (h'.direct t (by rw [h.direct t ht]; exact ht)).trans (h.direct t ht)
  kind σ := (h'.kind σ).trans (h.kind σ)
  slots σ := (h'.slots σ).trans (h.slots σ)
  dynamic σ hd := (h'.dynamic σ (by rw [h.kind]; exact hd)).trans (h.dynamic σ hd)

theorem relinked_of_binds {arena : Arena} (h : a.arena.Binds a.units arena) :
    a.Relinked { a with arena := arena } where
  created := rfl
  nodeScopes := rfl
  definitions := rfl
  references := rfl
  closures := rfl
  units := rfl
  size := h.size
  symbol := h.sameBut
  direct _ ht := h.symbol_of_direct ht
  kind σ := by rw [h.scope]
  slots σ := by rw [h.scope]
  dynamic σ _ := h.scope σ

/-- A section that was placed keeps the arena ready. -/
theorem placeSection_ready {id : SymbolId} (ready : a.arena.Ready)
    (h : a.placeSection id = .ok a') : a'.arena.Ready ∧ a.Relinked a' := by
  simp only [placeSection] at h
  cases hm : a.arena.module a.units (a.arena.symbol id).name (a.arena.symbol id).span with
  | error e =>
    rw [hm] at h
    cases h
  | ok module =>
    cases hs : (a.arena.symbol id).members with
    | none =>
      rw [hm, hs] at h
      cases h
    | some members =>
      rw [hm, hs] at h
      cases h
      have kind := ready.members id members hs
      have static : (a.arena.scope members).kind.isDynamic = false := by
        rw [kind]
        rfl
      refine ⟨ready.setEnclosing static
        fun outer ho => by rw [ready.members module outer ho]; rfl, ?_⟩
      have scope : ∀ σ, σ ≠ members → (Arena.setEnclosing a.arena members
          (a.arena.symbol module).members).scope σ = a.arena.scope σ := by
        intro σ hne
        exact Arena.scope_modifyScope_ne _ hne _
      have fields : ∀ σ, ((Arena.setEnclosing a.arena members
          (a.arena.symbol module).members).scope σ).kind = (a.arena.scope σ).kind ∧
          ((Arena.setEnclosing a.arena members
            (a.arena.symbol module).members).scope σ).slots = (a.arena.scope σ).slots := by
        intro σ
        rw [Arena.setEnclosing, Arena.scope_modifyScope]
        split <;> exact ⟨rfl, rfl⟩
      refine ⟨rfl, rfl, rfl, rfl, rfl, rfl, rfl, fun t => ?_, fun t _ =>
        Arena.symbol_modifyScope _ _ _ t,
        fun σ => (fields σ).1, fun σ => (fields σ).2, fun σ hd => scope σ ?_⟩
      · show Arena.SameBut _ ((Arena.modifyScope _ _ _).symbol t)
        rw [Arena.symbol_modifyScope]
        exact ⟨rfl, rfl, rfl, rfl, rfl, rfl, rfl, rfl⟩
      · rintro rfl
        rw [static] at hd
        cases hd

theorem placeSections_ready (ids : List SymbolId) {faults : List Fault} (ready : a.arena.Ready)
    (h : placeSections false ids a = .ok (faults, a')) : a'.arena.Ready ∧ a.Relinked a' := by
  induction ids generalizing a with
  | nil =>
    cases h
    exact ⟨ready, rfl, rfl, rfl, rfl, rfl, rfl, rfl, fun t =>
      ⟨rfl, rfl, rfl, rfl, rfl, rfl, rfl, rfl⟩,
      fun _ _ => rfl, fun _ => rfl, fun _ => rfl, fun _ _ => rfl⟩
  | cons id rest ih =>
    rw [placeSections] at h
    cases hp : a.placeSection id with
    | error fault =>
      rw [hp] at h
      cases h
    | ok a₁ =>
      rw [hp] at h
      obtain ⟨ready₁, same₁⟩ := placeSection_ready ready hp
      obtain ⟨ready₂, same₂⟩ := ih ready₁ h
      exact ⟨ready₂, same₁.trans same₂⟩

end Analysis

/-- **A program that was linked without a fault has an arena that is ready**, and is otherwise as
the first pass has left it. -/
theorem linkUnits_ready {built linked : Analysis} (formed : built.arena.Formed)
    (fresh : built.arena.Unlinked built.units)
    (unit : ∀ path s, Entries.get? built.units path = some s → built.arena.LaidOnce s)
    (h : built.linkUnits false = .ok linked) : linked.arena.Ready ∧ built.Relinked linked := by
  simp only [Analysis.linkUnits] at h
  cases hl : Arena.linkAll false built.units built.linkOrder built.arena with
  | error fault =>
    rw [hl] at h
    cases h
  | ok p =>
    obtain ⟨faults, arena⟩ := p
    simp only [hl, bind, Except.bind] at h
    have binds := Arena.linkAll_binds fresh _ .refl hl
    have ready := binds.ready formed fresh unit
    have same := Analysis.relinked_of_binds binds
    cases hp : Analysis.placeSections false (Analysis.sectionSymbols { built with arena := arena })
        { built with arena := arena } with
    | error fault =>
      rw [hp] at h
      cases h
    | ok p =>
      obtain ⟨sectionFaults, placed⟩ := p
      rw [hp] at h
      cases h
      obtain ⟨ready', same'⟩ := Analysis.placeSections_ready _ ready hp
      have all := same.trans same'
      exact ⟨ready', all.created, all.nodeScopes, all.definitions, all.references, all.closures,
        all.units, all.size, all.symbol, all.direct, all.kind, all.slots, all.dynamic⟩

end CellScript
