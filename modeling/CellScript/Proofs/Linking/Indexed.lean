import CellScript.Proofs.Linking.Program
import CellScript.Proofs.Scope.Analyzed
import CellScript.Proofs.Scope.Indexed
import CellScript.Proofs.Scope.Outlined

/-!
# Linked arenas as indexed tables

Linking stores two kinds of numbers in an arena that has been built: the symbol that an import,
alias, export or global name stands for, and the scope around the members of a section. Both kinds
are sound. A section is placed inside a module, whose members got their scope before any section had
one, so even then every scope lies inside an older one.

* `Arena.Indexed.binds`, `Arena.Indexed.setEnclosing` — what linking does keeps the representation
* `Analysis.placeSections_indexed` — sections come to lie inside older scopes
* `analyze_indexed` — the arena of every analysis
-/

namespace CellScript

namespace Arena

variable {a b : Arena} {units : Entries SymbolId}

/-- Binding symbols stores the numbers of symbols. -/
theorem Indexed.binds (h : a.Indexed) (binds : Binds a units b) (ready : b.Ready) : b.Indexed := by
  have same := binds.sameBut
  have home := fun t => (same t).scope
  have number : ∀ t, (b.symbol t).id = (a.symbol t).id := by
    intro t
    rcases binds.symbol t with he | ⟨-, u, -, he⟩ <;> rw [he]
    rfl
  constructor
  case numbered =>
    intro t known
    rw [binds.size] at known
    exact (number t).trans (h.numbered t known)
  case slot =>
    intro t known
    rw [binds.size] at known
    rw [binds.scope, home, (same t).slot]
    exact h.slot t known
  case slots =>
    intro σ
    simp only [binds.scope, binds.size, home]
    exact h.slots σ
  case named =>
    intro σ t mem
    rw [binds.scope] at mem ⊢
    rw [(same t).name]
    exact h.named σ t mem
  case names =>
    intro σ name t mem
    rw [binds.scope] at mem ⊢
    obtain ⟨called, place⟩ := h.names σ name t mem
    refine ⟨(same t).name.trans called, place.imp_right fun publishes => ?_⟩
    -- A library stands for itself, so it is not bound to anything.
    have untouched := binds.symbol_of_direct publishes.direct
    refine ⟨?_, ?_, ?_, ?_⟩
    · rw [untouched]
      exact publishes.direct
    · rw [untouched]
      exact publishes.library
    · rw [untouched]
      exact publishes.exported
    · simp only [binds.scope, home]
      exact publishes.module
  case once =>
    intro σ
    rw [binds.scope]
    exact h.once σ
  case inRange =>
    have owner : ∀ σ, b.owner? σ = a.owner? σ := fun σ => by simp only [owner?, binds.scope]
    have resolved := fun s t found => (ready.resolved s t found).1
    constructor
    case resolved => exact resolved
    all_goals simp only [binds.scope, binds.scopes, binds.size, home, owner]
    case home => exact h.inRange.home
    case slots => exact h.inRange.slots
    case names => exact h.inRange.names
    case enclosing => exact h.inRange.enclosing
    case owner => exact h.inRange.owner
    case members => simpa only [fun s => (same s).members] using h.inRange.members
    case exports => simpa only [fun s => (same s).exports] using h.inRange.exports
    case root => simpa only [fun s => (same s).binding] using h.inRange.root
  case descends =>
    intro σ outer inner
    rw [binds.scope] at inner
    exact h.descends σ outer inner
  case elder =>
    intro t known s kind
    rw [binds.size] at known
    rw [binds.scope, home] at kind
    exact h.elder t known s kind

/-- A scope can come to lie inside any older one. -/
theorem Indexed.setEnclosing (h : a.Indexed) {σ : ScopeId} {enclosing : Option ScopeId}
    (older : ∀ outer, enclosing = some outer → outer < σ) :
    (a.setEnclosing σ enclosing).Indexed := by
  have scope : ∀ id, (a.setEnclosing σ enclosing).scope id = a.scope id ∨
      id = σ ∧ (a.setEnclosing σ enclosing).scope id =
        { a.scope id with enclosing := enclosing } := by
    intro id
    rw [Arena.setEnclosing, scope_modifyScope]
    split
    · next here => exact .inr ⟨here.1, rfl⟩
    · exact .inl rfl
  have kind : ∀ id, ((a.setEnclosing σ enclosing).scope id).kind = (a.scope id).kind := by
    intro id
    rcases scope id with hs | ⟨-, hs⟩ <;> rw [hs]
  have names : ∀ id, ((a.setEnclosing σ enclosing).scope id).names = (a.scope id).names := by
    intro id
    rcases scope id with hs | ⟨-, hs⟩ <;> rw [hs]
  have slots : ∀ id, ((a.setEnclosing σ enclosing).scope id).slots = (a.scope id).slots := by
    intro id
    rcases scope id with hs | ⟨-, hs⟩ <;> rw [hs]
  have size : (a.setEnclosing σ enclosing).scopes.size = a.scopes.size :=
    size_scopes_modifyScope a σ _
  have descends : (a.setEnclosing σ enclosing).Descends := by
    intro id outer inner
    rcases scope id with hs | ⟨rfl, hs⟩ <;> rw [hs] at inner
    · exact h.descends id outer inner
    · exact older outer inner
  have symbol : ∀ t, (a.setEnclosing σ enclosing).symbol t = a.symbol t := fun _ => rfl
  have count : (a.setEnclosing σ enclosing).symbols.size = a.symbols.size := rfl
  constructor
  case numbered => exact h.numbered
  case slot => simpa only [slots, symbol, count] using h.slot
  case slots => simpa only [slots, symbol, count] using h.slots
  case named => simpa only [slots, Scope.get?, names, symbol] using h.named
  case names =>
    intro id name t mem
    rw [names] at mem
    obtain ⟨called, place⟩ := h.names id name t mem
    refine ⟨called, place.imp (fun own => by rwa [slots]) fun publishes => ?_⟩
    exact ⟨publishes.direct, publishes.library, publishes.exported,
      by simpa only [kind, symbol] using publishes.module⟩
  case once => simpa only [names] using h.once
  case inRange =>
    constructor
    all_goals try simp only [slots, names, size, symbol, count]
    case home => exact h.inRange.home
    case slots => exact h.inRange.slots
    case names => exact h.inRange.names
    case enclosing =>
      intro id outer inner
      have known := lt_size_of_enclosing inner
      rw [size] at known
      exact Nat.lt_trans (descends id outer inner) known
    case owner => simpa only [owner?, kind] using h.inRange.owner
    case members => exact h.inRange.members
    case exports => exact h.inRange.exports
    case root => exact h.inRange.root
    case resolved => exact h.inRange.resolved
  case descends => exact descends
  case elder =>
    intro t known s inside
    rw [symbol, kind] at inside
    exact h.elder t known s inside

end Arena

namespace Analysis

variable {a a' : Analysis}

/-- The members of the section are younger than those of whatever module it names. -/
def FitsModules (a : Analysis) (s : SymbolId) : Prop :=
  ∀ σ, (a.arena.symbol s).members = some σ → ∀ path module, Entries.get? a.units path =
    some module → ∀ outer, (a.arena.symbol module).members = some outer → outer < σ

/-- Placing a section stores the number of an older scope. -/
theorem placeSection_indexed (h : a.arena.Indexed) {s : SymbolId} (fits : a.FitsModules s)
    (placed : a.placeSection s = .ok a') :
    a'.arena.Indexed ∧ a'.arena.symbols = a.arena.symbols ∧ a'.units = a.units := by
  simp only [placeSection] at placed
  split at placed
  · next module σ found members =>
    cases placed
    refine ⟨h.setEnclosing fun outer inside => ?_, rfl, rfl⟩
    unfold Arena.module at found
    split at found
    · next known =>
      split at found
      · cases found
        exact fits σ members _ _ known outer inside
      · cases found
    · cases found
  · cases placed

/-- **Placing sections keeps the representation**, whether or not each of them finds its module. -/
theorem placeSections_indexed {recovery : Bool} (ids : List SymbolId) {faults : List Fault}
    (h : a.arena.Indexed) (fits : ∀ s ∈ ids, a.FitsModules s)
    (placed : placeSections recovery ids a = .ok (faults, a')) : a'.arena.Indexed := by
  induction ids generalizing a faults with
  | nil =>
    cases placed
    exact h
  | cons s rest ih =>
    rw [List.forall_mem_cons] at fits
    rw [placeSections] at placed
    cases hp : a.placeSection s with
    | ok a₁ =>
      simp only [hp] at placed
      obtain ⟨h₁, symbols, units⟩ := placeSection_indexed h fits.1 hp
      refine ih h₁ (fun t mem => ?_) placed
      simpa only [FitsModules, Arena.symbol, symbols, units] using fits.2 t mem
    | error fault =>
      simp only [hp] at placed
      cases recovery with
      | false => cases placed
      | true =>
        cases hr : placeSections true rest a with
        | error fault =>
          simp only [if_true, hr] at placed
          cases placed
        | ok p =>
          simp only [if_true, hr] at placed
          cases placed
          exact ih h fits.2 hr

end Analysis

/-- Linking a program keeps the representation that its arena got when it was built. -/
theorem linkUnits_indexed {recovery : Bool} {built linked : Analysis} (formed : built.arena.Formed)
    (tabled : built.arena.Tabled) (fresh : built.arena.Unlinked built.units)
    (unit : ∀ path s, Entries.get? built.units path = some s →
      s < built.arena.symbols.size ∧ (built.arena.symbol s).scope = Analysis.unitsScope)
    (h : built.linkUnits recovery = .ok linked) : linked.arena.Indexed := by
  have unitsKind : (built.arena.scope Analysis.unitsScope).kind = .units := (formed.units _).mpr rfl
  have laidOnce : ∀ path s, Entries.get? built.units path = some s → built.arena.LaidOnce s := by
    intro path s found
    obtain ⟨known, home⟩ := unit path s found
    refine ⟨known, ?_⟩
    rw [home, unitsKind]
    rfl
  simp only [Analysis.linkUnits, bind, Except.bind] at h
  cases hl : Arena.linkAll recovery built.units built.linkOrder built.arena with
  | error fault =>
    rw [hl] at h
    cases h
  | ok p =>
    obtain ⟨faults, bound⟩ := p
    simp only [hl] at h
    have binds := Arena.linkAll_binds fresh _ .refl hl
    have ready := binds.ready formed fresh laidOnce
    -- Modules are units, and sections are not.
    have fits : ∀ s ∈ Analysis.sectionSymbols { built with arena := bound },
        Analysis.FitsModules { built with arena := bound } s := by
      intro s mem σ hs path module found outer hm
      obtain ⟨o, kind, -⟩ :=
        Analysis.isSection_of_mem (a := { built with arena := bound }) ready mem
      change (bound.scope (bound.symbol s).scope).kind = .members o at kind
      change (bound.symbol s).members = some σ at hs
      change (bound.symbol module).members = some outer at hm
      rw [binds.scope, (binds.sameBut s).scope] at kind
      rw [(binds.sameBut s).members] at hs
      rw [(binds.sameBut module).members] at hm
      refine tabled.unitsFirst module outer hm (unit path module found).2 s σ hs fun home => ?_
      rw [home, unitsKind] at kind
      cases kind
    cases hp : Analysis.placeSections recovery
        (Analysis.sectionSymbols { built with arena := bound }) { built with arena := bound } with
    | error fault =>
      rw [hp] at h
      cases h
    | ok p =>
      rw [hp] at h
      cases h
      have placed : p.2.arena.Indexed :=
        Analysis.placeSections_indexed _ ((formed.indexed tabled).binds binds ready) fits hp
      exact placed

/-- The arena that the first pass builds is indexed, and stays so when the program is linked. -/
theorem buildScopes_indexed {recovery : Bool} {units : UnitSet} {built : Analysis}
    {pending : List PendingReference} (hb : buildScopes recovery units = .ok (built, pending)) :
    built.arena.Indexed ∧
      ∀ linked, built.linkUnits recovery = .ok linked → linked.arena.Indexed := by
  have fresh := buildScopes_unlinked hb
  obtain ⟨b, steps, rfl, -⟩ := buildScopes_steps hb
  have start := Building.formed_start recovery
  have formed := steps.formed start
  have tabled : b.arena.Tabled := steps.tabled start Arena.tabled_initial
  refine ⟨formed.arena.indexed tabled, fun linked => ?_⟩
  refine linkUnits_indexed formed.arena tabled fresh fun path s found => ?_
  obtain ⟨owner, home, -⟩ := formed.unit path s found
  exact ⟨owner.1, home⟩

/-- **The arena of every analysis is indexed, and every walk through it ends**: when its scopes have
been built, when it has been linked and its sections placed, and when the analysis is complete. A
declaration that fails, and a library that cannot be shown, leave everything as it was but for the
fault. -/
theorem analyze_indexed (recovery : Bool) (units : UnitSet) :
    (∀ built pending, buildScopes recovery units = .ok (built, pending) →
      (built.arena.Indexed ∧ built.arena.Walks) ∧
      ∀ linked, built.linkUnits recovery = .ok linked → linked.arena.Indexed ∧ linked.arena.Walks) ∧
    (∀ a, analyze recovery units = .ok a → a.arena.Indexed ∧ a.arena.Walks) ∧
    (∀ (b : Building) (σ : ScopeId) (d : Declaration) (fault : Fault),
      b.arena.declare σ d = .error fault →
        Build.declare σ d b = (b.reported fault).map fun b => (none, b)) ∧
    ∀ (b : Building) (σ : ScopeId) (name : String) (t : SymbolId) (fault : Fault),
      b.arena.publish σ name t = .error fault →
        Build.publish σ name t b = (b.reported fault).map fun b => (⟨⟩, b) := by
  refine ⟨fun built pending hb => ?_, fun a h => ?_, fun b σ d fault => Build.declare_taken,
    fun b σ name t fault => Build.publish_taken⟩
  · obtain ⟨indexed, linked⟩ := buildScopes_indexed hb
    exact ⟨⟨indexed, indexed.walks⟩, fun l hl => ⟨linked l hl, (linked l hl).walks⟩⟩
  · obtain ⟨built, pending, linked, resolved, hb, hl, hr, rfl⟩ := analyze_eq_ok h
    have arena : (resolved.captureAll units).arena = linked.arena := by
      rw [(resolved.captureAll_annotated units).arena, Analysis.resolveAll_kept _ hr]
    rw [arena]
    have indexed := (buildScopes_indexed hb).2 linked hl
    exact ⟨indexed, indexed.walks⟩

/-- An interactive unit that is loaded before the module of its section. The module shows two
libraries of one name. -/
def sectionFirst : UnitSet :=
  let node (index : Nat) : Node := ⟨.tree index, default⟩
  [⟨node 0, "i", 0, .interactive [⟨node 1, "m", []⟩]⟩,
   ⟨node 2, "m", 0, .module
      { globalName := none, imports := [], aliases := []
        libraries := [⟨node 3, "l", true, []⟩, ⟨node 4, "l", true, []⟩]
        exports := [⟨node 5, ⟨.here, ["l"]⟩, "l"⟩] }⟩]

/-- A state in which a name is taken. -/
def nameTaken : Building :=
  ⟨{ Analysis.initial with arena := Analysis.initial.arena.withDeclared 0 (.var "x" .any default) },
    [], true⟩

/-- The theorem at a program with faults, which is analysed with recovery, and at a name that is
taken. -/
theorem analyze_indexed_sectionFirst :
    (∃ built pending linked a, buildScopes true sectionFirst = .ok (built, pending) ∧
      built.linkUnits true = .ok linked ∧ analyze true sectionFirst = .ok a ∧
      (built.arena.Indexed ∧ built.arena.Walks) ∧ (linked.arena.Indexed ∧ linked.arena.Walks) ∧
      a.arena.Indexed ∧ a.arena.Walks) ∧
    (∃ fault, nameTaken.arena.declare 0 (.var "x" .any default) = .error fault ∧
      Build.declare 0 (.var "x" .any default) nameTaken =
        (nameTaken.reported fault).map fun b => (none, b)) ∧
    ∃ fault, nameTaken.arena.publish 0 "x" 0 = .error fault ∧
      Build.publish 0 "x" 0 nameTaken = (nameTaken.reported fault).map fun b => (⟨⟩, b) := by
  obtain ⟨stages, complete, declared, published⟩ := analyze_indexed true sectionFirst
  refine ⟨?_, ⟨_, rfl, declared nameTaken 0 _ _ rfl⟩, ⟨_, rfl, published nameTaken 0 _ _ _ rfl⟩⟩
  have ok : (analyze true sectionFirst).isOk = true := by decide +kernel
  cases h : analyze true sectionFirst with
  | error fault =>
    rw [h] at ok
    cases ok
  | ok a =>
    obtain ⟨built, pending, linked, -, hb, hl, -, -⟩ := analyze_eq_ok h
    obtain ⟨first, last⟩ := stages built pending hb
    exact ⟨built, pending, linked, a, hb, hl, rfl, first, last linked hl, complete a h⟩

-- The members of the section, in scope 5, lie inside those of its module, in scope 3. The exports
-- of the module, in scope 4, name the first library without a slot for it.
example : (match analyze true sectionFirst with
    | .error _ => []
    | .ok a => a.arena.scopes.toList.map fun s => (s.enclosing, s.names, s.slots)) =
    [(none, [], []), (some 0, [("i", 0), ("m", 1)], [0, 1]), (some 1, [("m", 2)], [2]),
      (some 1, [("l", 3)], [3]), (some 1, [("l", 3)], []), (some 3, [], []), (some 3, [], [])] := by
  decide +kernel

end CellScript
