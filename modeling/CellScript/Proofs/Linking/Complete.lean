import CellScript.Proofs.Linking.Cycles
import CellScript.Proofs.Linking.Encapsulation
import CellScript.Proofs.Scope.Indexed

/-!
# Linking leaves nothing out

A program is linked from its global names and from what its modules import, name anew and export.
These are all symbols that stand for others: nothing else can be declared so. Afterwards every
section is placed inside the module that it names. The sections of a program have their own members
each, so that it makes no difference which of them is placed first.

* `Arena.Settling` — global names and exports lie where linking looks for them
* `Analysis.linkOrder_complete` — every symbol that stands for another one is linked
* `Arena.linkAll_ok_iff` — without recovery, linking succeeds if all these symbols resolve
* `Analysis.Fits` — a section that finds its module
* `Analysis.placeSections_ok_iff` — placing succeeds if each section finds its module
* `Analysis.placeSections_placed` — what has changed after all sections have been placed
-/

namespace CellScript

/-- There is one scope of global names, and the exports of a module are in the scope that it
knows. -/
structure Arena.Settling (a : Arena) : Prop where
  global : ∀ σ, σ < a.scopes.size → (a.scope σ).kind = .global → σ = Analysis.globalScope
  exports : ∀ σ s, (a.scope σ).kind = .exports s → s < a.symbols.size ∧
    (a.symbol s).binding = .direct ∧ (a.symbol s).target = .module ∧ (a.symbol s).exports = some σ

namespace Build

variable {ids : List NodeId} {b b' : Building}

theorem settling_start (recovery : Bool) : (Building.start recovery).arena.Settling := by
  refine ⟨fun σ known kind => ?_, fun σ s kind => ?_⟩
  · match σ with
    | 0 => rfl
    | 1 => cases kind
    | n + 2 =>
      have two : n + 2 < 2 := known
      omega
  · match σ with
    | 0 | 1 | _ + 2 => cases kind

/-- A scope with the exports of a symbol that knows of it. -/
def Shown (b : Building) (σ : ScopeId) (s : SymbolId) : Prop :=
  s < b.arena.symbols.size ∧ (b.arena.symbol s).binding = .direct ∧
    (b.arena.symbol s).target = .module ∧ (b.arena.symbol s).exports = some σ

/-- Whoever gets exports had none before. -/
theorem Step.exports_kept (step : Step ids b b') {s : SymbolId} {σ : ScopeId}
    (known : s < b.arena.symbols.size) (h : (b.arena.symbol s).exports = some σ) :
    (b'.arena.symbol s).exports = some σ := by
  cases step with
  | @declare scope d mem known' free admits opened =>
    show ((b.arena.withDeclared scope d).symbol s).exports = some σ
    rw [Arena.symbol_withDeclared, if_neg (Nat.ne_of_lt known)]
    exact h
  | members mem declared own owning nested bare nests around => exact (exports_addMembers s).trans h
  | @unit path node owner mem name declared own called owning home bare early =>
    exact (@exports_addMembers node owner Analysis.unitsScope b.analysis s).trans h
  | @exports owner enclosing nests declared module closed =>
    show ((Arena.modifySymbol _ owner _).symbol s).exports = some σ
    rw [Arena.symbol_modifySymbol, if_neg]
    · exact h
    · rintro ⟨rfl, -⟩
      rw [closed] at h
      cases h
  | publish declared free shared called library shown =>
    exact (congrArg Symbol.exports (Arena.symbol_modifyScope ..)).trans h
  | _ => exact h

theorem Step.shown (step : Step ids b b') {s : SymbolId} {σ : ScopeId} (h : Shown b σ s) :
    Shown b' σ s := by
  obtain ⟨known, direct, module, exports⟩ := h
  obtain ⟨known', same⟩ := step.sameSymbol known
  exact ⟨known', (congrArg Declaration.binding same.declaration).trans direct,
    (congrArg Declaration.target same.declaration).trans module, step.exports_kept known exports⟩

/-- No scope of global names is ever created, and exports are known to the module whose they are. -/
theorem Step.created_kind (step : Step ids b b') {σ : ScopeId} (new : ¬ b.HasScope σ)
    (known : b'.HasScope σ) : (b'.arena.scope σ).kind ≠ .global ∧
      ∀ s, (b'.arena.scope σ).kind = .exports s → Shown b' σ s := by
  -- Where a scope has been created, it is the only new one.
  have created : ∀ {kind : ScopeKind} {enclosing : Option ScopeId} {ordered : Bool},
      σ < (b.arena.newScope kind enclosing ordered).2.scopes.size → σ = b.arena.scopes.size ∧
        ((b.arena.newScope kind enclosing ordered).2.scope σ).kind = kind := by
    intro kind enclosing ordered known
    rw [Arena.newScope, Array.size_push] at known
    obtain rfl := Nat.eq_of_lt_succ_of_not_lt known new
    exact ⟨rfl, by rw [Arena.scope_newScope, if_pos rfl]⟩
  have plain : ∀ {kind : ScopeKind}, kind ≠ .global → (∀ s, kind ≠ .exports s) →
      (b'.arena.scope σ).kind = kind → (b'.arena.scope σ).kind ≠ .global ∧
        ∀ s, (b'.arena.scope σ).kind = .exports s → Shown b' σ s := by
    rintro kind global exports rfl
    exact ⟨global, fun s he => absurd he (exports s)⟩
  cases step with
  | @declare scope d mem known' free admits opened =>
    refine absurd ?_ new
    change σ < (b.arena.withDeclared scope d).scopes.size at known
    rwa [Arena.size_scopes_withDeclared] at known
  | @publish exports name t declared free shared called library shown =>
    refine absurd ?_ new
    change σ < (b.arena.modifyScope exports _).scopes.size at known
    rwa [Arena.size_scopes_modifyScope] at known
  | @scope node kind enclosing ordered mem dynamic hosts =>
    refine plain ?_ ?_ (created known).2 <;> rcases dynamic with rfl | rfl
    all_goals simp
  | members mem declared own owning nested bare nests around =>
    exact plain (fun h => by cases h) (fun s h => by cases h) (created known).2
  | unit mem name declared own called owning home bare early =>
    exact plain (fun h => by cases h) (fun s h => by cases h) (created known).2
  | @exports owner enclosing nests declared module closed =>
    obtain ⟨rfl, kind⟩ := created known
    refine ⟨fun h => ?_, fun s h => ?_⟩
    · cases (show _ = ScopeKind.exports owner from kind).symm.trans h
    · cases (show _ = ScopeKind.exports owner from kind).symm.trans h
      have step := @Step.exports ids b owner enclosing nests declared module closed
      obtain ⟨known', same⟩ := step.sameSymbol declared.1
      refine ⟨known', (congrArg Declaration.binding same.declaration).trans declared.2,
        (congrArg Declaration.target same.declaration).trans module, ?_⟩
      show ((Arena.modifySymbol _ owner _).symbol owner).exports = some _
      rw [Arena.symbol_modifySymbol_self]
      exact declared.1
  | _ => exact absurd known new

theorem Step.settling (step : Step ids b b') (h : b.arena.Settling) : b'.arena.Settling := by
  refine ⟨fun σ known kind => ?_, fun σ s kind => ?_⟩
  · by_cases old : b.HasScope σ
    · exact h.global σ old ((step.sameScope old).kind ▸ kind)
    · exact absurd kind (step.created_kind old known).1
  · have known : b'.HasScope σ := Arena.lt_size_of_kind (by rw [kind]; exact fun h => by cases h)
    by_cases old : b.HasScope σ
    · exact step.shown (h.exports σ s ((step.sameScope old).kind ▸ kind))
    · exact (step.created_kind old known).2 s kind

theorem Steps.settling (s : Steps ids b b') (h : b.arena.Settling) : b'.arena.Settling :=
  s.preserve (fun _ _ => Step.settling) h

end Build

/-- The first pass builds arenas in which linking finds all that is to be linked. -/
theorem buildScopes_settling {recovery : Bool} {units : UnitSet} {built : Analysis}
    {pending : List PendingReference} (h : buildScopes recovery units = .ok (built, pending)) :
    built.arena.Settling := by
  obtain ⟨b, steps, rfl, -⟩ := buildScopes_steps h
  exact steps.settling (Build.settling_start recovery)

namespace Analysis

variable {a : Analysis}

/-- **Every symbol that stands for another one is linked.** -/
theorem linkOrder_complete (formed : a.arena.Formed) (settling : a.arena.Settling) {s : SymbolId}
    (indirect : (a.arena.symbol s).binding.isIndirect = true) : s ∈ a.linkOrder := by
  have known := Arena.lt_size_of_isIndirect indirect
  have here : s ∈ (a.arena.scope (a.arena.symbol s).scope).slots :=
    formed.mem_slots_iff.mpr ⟨known, rfl⟩
  have admitted := formed.admitted s known
  -- What stands for another symbol is declared in one of three kinds of scopes.
  cases kind : (a.arena.scope (a.arena.symbol s).scope).kind with
  | global =>
    rw [settling.global _ (formed.home_lt known) kind] at here
    exact List.mem_append_left _ (List.mem_filter.mpr ⟨here, indirect⟩)
  | exports N =>
    obtain ⟨knownOwner, direct, module, exports⟩ := settling.exports _ N kind
    exact mem_linkOrder formed knownOwner (formed.kind_of_module knownOwner direct module) module
      exports known indirect
  | members N =>
    obtain ⟨knownOwner, direct, members⟩ := formed.owner _ N kind
    have module := formed.importing s known indirect N kind
    have slot : N ∈ (a.arena.scope unitsScope).slots :=
      formed.mem_slots_iff.mpr ⟨knownOwner,
        (formed.units _).mp (formed.kind_of_module knownOwner direct module)⟩
    refine List.mem_append_right _ (List.mem_flatMap.mpr ⟨N, slot, ?_⟩)
    simp only [module, beq_self_eq_true, if_true, members]
    exact List.mem_append_left _ (List.mem_filter.mpr ⟨here, indirect⟩)
  | units | function n | block n =>
    rw [kind] at admitted
    have direct : (a.arena.symbol s).binding = .direct := admitted.1
    rw [direct] at indirect
    cases indirect

end Analysis

/-! ## Success without recovery -/

/-- Without recovery, linking comes to an end if and only if everything resolves. -/
theorem Arena.linkAll_ok_iff {a b : Arena} {units : Entries SymbolId} (fresh : Unlinked a units)
    (order : List SymbolId) (h : Binds a units b) :
    (∃ p, linkAll false units order b = .ok p) ↔ ∀ s ∈ order, ∃ t, Resolves a units s t := by
  induction order generalizing b with
  | nil => exact ⟨fun _ s mem => (by cases mem), fun _ => ⟨_, rfl⟩⟩
  | cons s rest ih =>
    have binds := (linkChain_binds fresh (b.symbols.size + 2) [] s b h).1
    have first := link_ok_iff fresh h s
    change Binds a units (b.link units s).2 at binds
    rw [List.forall_mem_cons, linkAll, ← first, ← ih binds]
    cases hl : b.link units s with
    | mk outcome after =>
      cases outcome with
      | ok u =>
        exact ⟨fun ok => ⟨rfl, ok⟩, And.right⟩
      | error fault =>
        constructor
        · rintro ⟨p, ok⟩
          cases ok
        · rintro ⟨ok, -⟩
          cases ok

/-! ## Where sections are placed -/

theorem Arena.module_eq_ok_iff {a : Arena} {units : Entries SymbolId} {path : String} {span : Span}
    {id : SymbolId} : a.module units path span = .ok id ↔ a.IsModule units path id := by
  unfold Arena.module Arena.IsModule
  cases Entries.get? units path with
  | none => simp
  | some unit =>
    simp only [Option.some.injEq, beq_iff_eq]
    split
    · next module =>
      rw [Except.ok.injEq]
      exact ⟨fun same => ⟨same, same ▸ module⟩, And.left⟩
    · next other =>
      constructor
      · intro h
        cases h
      · rintro ⟨rfl, module⟩
        exact absurd module other

namespace Analysis

variable {a a' a'' : Analysis} {s : SymbolId} {ids : List SymbolId}

/-- The section has members, and names a module. -/
def Fits (a : Analysis) (s : SymbolId) : Prop :=
  ∃ m σ, a.arena.IsModule a.units (a.arena.symbol s).name m ∧ (a.arena.symbol s).members = some σ

theorem placeSection_eq_ok : a.placeSection s = .ok a' ↔
    ∃ m σ, a.arena.IsModule a.units (a.arena.symbol s).name m ∧ (a.arena.symbol s).members =
      some σ ∧ a' = { a with
        arena := a.arena.setEnclosing σ (a.arena.symbol m).members
        sections := a.sections.insert s m } := by
  simp only [placeSection]
  split
  · next m σ found members =>
    rw [Arena.module_eq_ok_iff] at found
    rw [Except.ok.injEq]
    constructor
    · exact fun same => ⟨m, σ, found, members, same.symm⟩
    · rintro ⟨m', σ', found', members', same⟩
      rw [members] at members'
      cases members'
      cases found.1.symm.trans found'.1
      exact same.symm
  · next none =>
    constructor
    · intro h
      cases h
    · rintro ⟨m, σ, found, members, -⟩
      exact absurd members (none m σ (Arena.module_eq_ok_iff.mpr found))

/-- The sections have been placed in the modules that they name, and nothing else has happened. -/
structure Placed (ids : List SymbolId) (a a' : Analysis) : Prop where
  same : a' = { a with arena := a'.arena, sections := a'.sections }
  symbols : a'.arena.symbols = a.arena.symbols
  size : a'.arena.scopes.size = a.arena.scopes.size
  scope : ∀ σ, a'.arena.scope σ = { a.arena.scope σ with enclosing := (a'.arena.scope σ).enclosing }
  placed : ∀ s ∈ ids, ∃ m σ, a.arena.IsModule a.units (a.arena.symbol s).name m ∧
    (a.arena.symbol s).members = some σ ∧ a'.sections.get? s = some m ∧
    (σ < a.arena.scopes.size → (a'.arena.scope σ).enclosing = (a.arena.symbol m).members)
  elsewhere : ∀ σ, (∀ s ∈ ids, (a.arena.symbol s).members ≠ some σ) →
    (a'.arena.scope σ).enclosing = (a.arena.scope σ).enclosing
  others : ∀ s, s ∉ ids → a'.sections.get? s = a.sections.get? s

theorem Placed.refl (a : Analysis) : Placed [] a a :=
  ⟨rfl, rfl, rfl, fun _ => rfl, fun s mem => (by cases mem), fun _ _ => rfl, fun _ _ => rfl⟩

/-- Placing one section. -/
theorem placeSection_placed (h : a.placeSection s = .ok a') : Placed [s] a a' := by
  obtain ⟨m, σ, found, members, rfl⟩ := placeSection_eq_ok.mp h
  have scope : ∀ τ, (a.arena.setEnclosing σ (a.arena.symbol m).members).scope τ = a.arena.scope τ ∨
      τ = σ ∧ (a.arena.setEnclosing σ (a.arena.symbol m).members).scope τ =
        { a.arena.scope τ with enclosing := (a.arena.symbol m).members } := by
    intro τ
    rw [Arena.setEnclosing, Arena.scope_modifyScope]
    split
    · next here => exact .inr ⟨here.1, rfl⟩
    · exact .inl rfl
  refine ⟨rfl, rfl, Arena.size_scopes_modifyScope .., fun τ => ?_, fun t mem =>
    ?_, fun τ other => ?_,
    fun t other => ?_⟩
  · rcases scope τ with same | ⟨-, same⟩ <;> rw [same]
  · obtain rfl := List.mem_singleton.mp mem
    refine ⟨m, σ, found, members, ?_, fun known => ?_⟩
    · rw [Table.get?_insert, if_pos rfl]
    · exact congrArg Scope.enclosing (Arena.scope_modifyScope_self known _)
  · rcases scope τ with same | ⟨rfl, -⟩
    · rw [same]
    · exact absurd members (other s (List.mem_singleton.mpr rfl))
  · rw [Table.get?_insert, if_neg fun same => other (List.mem_singleton.mpr same.symm)]

/-- Symbols have their own members each. -/
def Apart (a : Analysis) : Prop :=
  ∀ s t σ, (a.arena.symbol s).members = some σ → (a.arena.symbol t).members = some σ → s = t

theorem isModule_congr {a b : Arena} (symbols : b.symbols = a.symbols) {units : Entries SymbolId}
    {path : String} {m : SymbolId} : b.IsModule units path m ↔ a.IsModule units path m := by
  rw [Arena.IsModule, Arena.IsModule, Arena.symbol, Arena.symbol, symbols]

theorem Placed.symbol (h : Placed ids a a') (t : SymbolId) :
    a'.arena.symbol t = a.arena.symbol t := by
  rw [Arena.symbol, Arena.symbol, h.symbols]

theorem Placed.units (h : Placed ids a a') : a'.units = a.units := by rw [h.same]

theorem Placed.fits (h : Placed ids a a') (s : SymbolId) : a'.Fits s ↔ a.Fits s := by
  simp only [Fits, h.symbol, h.units, isModule_congr h.symbols]

/-- One more section. -/
theorem Placed.cons (first : Placed [s] a a') (rest : Placed ids a' a'') (apart : a.Apart) :
    Placed (s :: ids) a a'' := by
  -- What is placed later, possibly the first section once more.
  have later : ∀ t ∈ ids, ∃ m σ, a.arena.IsModule a.units (a.arena.symbol t).name m ∧
      (a.arena.symbol t).members = some σ ∧ a''.sections.get? t = some m ∧
      (σ < a.arena.scopes.size → (a''.arena.scope σ).enclosing = (a.arena.symbol m).members) := by
    intro t mem
    obtain ⟨m, σ, found, members, entry, enclosing⟩ := rest.placed t mem
    rw [first.symbol] at found members
    rw [first.symbol, first.size] at enclosing
    rw [isModule_congr first.symbols, first.units] at found
    exact ⟨m, σ, found, members, entry, enclosing⟩
  refine ⟨?_, rest.symbols.trans first.symbols, rest.size.trans first.size, fun σ =>
    ?_, fun t mem => ?_,
    fun σ other => ?_, fun t other => ?_⟩
  · rw [rest.same, first.same]
  · rw [rest.scope, first.scope]
  · by_cases again : t ∈ ids
    · exact later t again
    · obtain rfl := (List.mem_cons.mp mem).resolve_right again
      obtain ⟨m, σ, found, members, entry, enclosing⟩ := first.placed t (List.mem_singleton.mpr rfl)
      refine ⟨m, σ, found, members, (rest.others t again).trans entry, fun known => ?_⟩
      rw [rest.elsewhere σ fun u hu same => ?_]
      · exact enclosing known
      · rw [first.symbol] at same
        exact again (apart t u σ members same ▸ hu)
  · rw [List.forall_mem_cons] at other
    rw [rest.elsewhere σ fun u hu => ?_]
    · exact first.elsewhere σ fun u hu => (List.mem_singleton.mp hu).symm ▸ other.1
    · rw [first.symbol]
      exact other.2 u hu
  · rw [List.mem_cons, not_or] at other
    rw [rest.others t other.2, first.others t fun mem => other.1 (List.mem_singleton.mp mem)]

/-- A pass without recovery that comes to an end has placed all sections. -/
theorem placeSections_placed (ids : List SymbolId) {faults : List Fault} (apart : a.Apart)
    (h : placeSections false ids a = .ok (faults, a')) : Placed ids a a' := by
  induction ids generalizing a with
  | nil =>
    cases h
    exact .refl _
  | cons s rest ih =>
    rw [placeSections] at h
    cases hp : a.placeSection s with
    | error fault =>
      rw [hp] at h
      cases h
    | ok a₁ =>
      rw [hp] at h
      have first := placeSection_placed hp
      refine first.cons (ih ?_ h) apart
      simpa only [Apart, first.symbol] using apart

/-- **Without recovery, placing comes to an end if and only if every section finds its module.** -/
theorem placeSections_ok_iff (ids : List SymbolId) :
    (∃ p, placeSections false ids a = .ok p) ↔ ∀ s ∈ ids, a.Fits s := by
  induction ids generalizing a with
  | nil => exact ⟨fun _ s mem => (by cases mem), fun _ => ⟨_, rfl⟩⟩
  | cons s rest ih =>
    rw [placeSections, List.forall_mem_cons]
    cases hp : a.placeSection s with
    | ok a₁ =>
      have first := placeSection_placed hp
      obtain ⟨m, σ, found, members, -⟩ := placeSection_eq_ok.mp hp
      simp only [ih, first.fits]
      exact ⟨fun rest => ⟨⟨m, σ, found, members⟩, rest⟩, And.right⟩
    | error fault =>
      constructor
      · rintro ⟨p, ok⟩
        cases ok
      · rintro ⟨⟨m, σ, found, members⟩, -⟩
        cases hp.symm.trans (placeSection_eq_ok.mpr ⟨m, σ, found, members, rfl⟩)

end Analysis

end CellScript
