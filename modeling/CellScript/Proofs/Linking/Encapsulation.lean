import CellScript.Proofs.Linking.Program
import CellScript.Proofs.Scope.Analyzed
import CellScript.Proofs.Syntax.Occurs
import Mathlib.Data.List.TakeWhile

/-!
# Modules keep their libraries to themselves

A module reaches the libraries of another module only through what that module exports. Paths,
imports and exports of a third module do not help: whatever a symbol stands for is declared in its
own module, or is granted by the exports of the module in which it is declared.

* `Arena.Belongs` — declared in a module, at any depth
* `Arena.Granted` — if a symbol belongs to a library of a module, that module exports it
* `Arena.Resolves.granted` — what a symbol of a module stands for belongs to that module, or is
  granted
* `analyze_encapsulates` — references in a module
-/

namespace CellScript

namespace Arena

/-! ## Libraries and their members -/

/-- The symbol is declared among the members of the owner. -/
def MemberOf (a : Arena) (t owner : SymbolId) : Prop :=
  (a.scope (a.symbol t).scope).kind = .members owner

/-- The symbol is a library of the module. -/
structure LibraryOf (a : Arena) (library module : SymbolId) : Prop where
  target : (a.symbol library).target = .library
  member : a.MemberOf library module
  module : (a.symbol module).target = .module

/-- The symbol is declared in the module, at any depth. -/
inductive Belongs (a : Arena) (module : SymbolId) : SymbolId → Prop where
  | member {t : SymbolId} (home : a.MemberOf t module) : Belongs a module t
  | entry {t : SymbolId} (home : (a.scope (a.symbol t).scope).kind = .exports module) :
    Belongs a module t
  | deeper {t owner : SymbolId} (home : a.MemberOf t owner) (outer : Belongs a module owner) :
    Belongs a module t

variable {a : Arena} {units : Entries SymbolId} {M N l s t e : SymbolId}

/-- Modules are declared among the units. -/
theorem Formed.kind_of_module (formed : a.Formed) (known : N < a.symbols.size)
    (direct : (a.symbol N).binding = .direct) (module : (a.symbol N).target = .module) :
    (a.scope (a.symbol N).scope).kind = .units := by
  have admitted := formed.admitted N known
  cases hk : (a.scope (a.symbol N).scope).kind with
  | units => rfl
  | members o =>
    rw [hk] at admitted
    exact absurd module admitted
  | global => exact absurd admitted (ScopeKind.not_admits_direct direct (.inl hk))
  | exports o => exact absurd admitted (ScopeKind.not_admits_direct direct (.inr ⟨o, hk⟩))
  | function n | block n =>
    rw [hk] at admitted
    have var : (a.symbol N).target = .var := admitted.2
    rw [module] at var
    cases var

/-- Nothing is declared around a module. -/
theorem Formed.not_belongs_owner (formed : a.Formed) (module : (a.symbol N).target = .module)
    (home : a.MemberOf t N) : ¬ Belongs a M N := by
  obtain ⟨known, direct, -⟩ := formed.owner _ N home
  have units := formed.kind_of_module known direct module
  intro h
  cases h with
  | member home | deeper home =>
    rw [MemberOf, units] at home
    cases home
  | entry home =>
    rw [units] at home
    cases home

/-- A symbol belongs to one module. -/
theorem Belongs.unique (formed : a.Formed) (hM : (a.symbol M).target = .module)
    (hN : (a.symbol N).target = .module) (h : Belongs a M t) (h' : Belongs a N t) : M = N := by
  induction h with
  | member home =>
    cases h' with
    | member home' =>
      rw [MemberOf, home] at home'
      cases home'
      rfl
    | entry home' =>
      rw [home] at home'
      cases home'
    | deeper home' outer =>
      rw [MemberOf, home] at home'
      cases home'
      exact absurd outer (formed.not_belongs_owner hM home)
  | entry home =>
    cases h' with
    | member home' | deeper home' =>
      rw [MemberOf, home] at home'
      cases home'
    | entry home' =>
      rw [home] at home'
      cases home'
      rfl
  | deeper home outer ih =>
    cases h' with
    | member home' =>
      rw [MemberOf, home] at home'
      cases home'
      exact absurd outer (formed.not_belongs_owner hN home)
    | entry home' =>
      rw [home] at home'
      cases home'
    | deeper home' outer' =>
      rw [MemberOf, home] at home'
      cases home'
      exact ih outer'

/-- Symbols in other places belong to no module. -/
theorem not_belongs (members : ∀ o, (a.scope (a.symbol t).scope).kind ≠ .members o)
    (exports : ∀ o, (a.scope (a.symbol t).scope).kind ≠ .exports o) : ¬ Belongs a N t := by
  rintro (home | home | home)
  · exact members _ home
  · exact exports _ home
  · exact members _ home

/-! ## What a module grants to others -/

/-- The exports of the module show the library, or an export that stands for the library or for one
of its members. -/
def Shares (a : Arena) (units : Entries SymbolId) (module library member : SymbolId) : Prop :=
  ∃ name e, a.Exports module name e ∧ (e = library ∨ (a.symbol e).binding.isExport = true ∧
    (Resolves a units e library ∨ Resolves a units e member))

/-- If the symbol is a library of a module, or a member of one, the module shares it. -/
def Granted (a : Arena) (units : Entries SymbolId) (t : SymbolId) : Prop :=
  ∀ N l, a.LibraryOf l N → t = l ∨ a.MemberOf t l → a.Shares units N l t

/-- The module may come across the symbol: it is its own, or declared in no module, or shown by
another one. -/
inductive Open (a : Arena) (units : Entries SymbolId) (M s : SymbolId) : Prop where
  | own (belongs : Belongs a M s)
  | foreign (outside : ∀ N, (a.symbol N).target = .module → ¬ Belongs a N s)
  | entry {N : SymbolId} {name : String} (module : (a.symbol N).target = .module)
    (shown : a.Exports N name s)
  | member {l : SymbolId} (notModule : (a.symbol l).target ≠ .module) (granted : a.Granted units l)
    (home : a.MemberOf s l)

theorem LibraryOf.belongs (h : a.LibraryOf l N) (place : t = l ∨ a.MemberOf t l) :
    Belongs a N t := by
  rcases place with rfl | home
  · exact .member h.member
  · exact .deeper home (.member h.member)

/-- Whatever belongs to no module is granted. -/
theorem Granted.of_foreign (outside : ∀ N, (a.symbol N).target = .module → ¬ Belongs a N t) :
    a.Granted units t :=
  fun N _ library place => absurd (library.belongs place) (outside N library.module)

/-- An entry of the exports of a module is one of its exports, or a symbol that is its member. -/
theorem Formed.entry_cases (formed : a.Formed) {name : String} (shown : a.Exports N name e) :
    (a.symbol e).binding.isExport = true ∧ (a.symbol N).exports = some (a.symbol e).scope ∨
      (a.symbol e).binding = .direct ∧ a.MemberOf e N := by
  obtain ⟨σ, exports, named⟩ := shown
  have kind := formed.exports N σ exports
  obtain ⟨known, home | ⟨direct, o, kind', member⟩⟩ := formed.name σ name e named
  · have admitted := formed.admitted e known
    rw [home, kind] at admitted
    exact .inl ⟨admitted, home ▸ exports⟩
  · rw [kind] at kind'
    cases kind'
    exact .inr ⟨direct, member⟩

theorem Resolves.eq_of_direct (h : Resolves a units s t) (direct : (a.symbol s).binding = .direct) :
    t = s := h.unique (.direct direct)

/-- What is granted of what the entries of a module stand for. -/
theorem Resolves.granted_of_entry (formed : a.Formed) {name : String}
    (hM : (a.symbol M).target = .module) (shown : a.Exports M name e)
    (resolves : Resolves a units e t) (outcome : a.Granted units t ∨
      ∃ N, (a.symbol N).target = .module ∧ Belongs a N e ∧ Belongs a N t) : a.Granted units t := by
  rcases outcome with granted | ⟨N, hN, here, there⟩
  · exact granted
  · intro N' l library place
    obtain rfl := there.unique formed hN library.module (library.belongs place)
    rcases formed.entry_cases shown with ⟨isExport, exports⟩ | ⟨direct, member⟩
    · obtain rfl := (Belongs.entry (formed.exports _ _ exports)).unique formed hM hN here
      refine ⟨name, e, shown, .inr ⟨isExport, ?_⟩⟩
      rcases place with rfl | -
      · exact .inl resolves
      · exact .inr resolves
    · obtain rfl := (Belongs.member member).unique formed hM hN here
      obtain rfl := resolves.eq_of_direct direct
      rcases place with rfl | home
      · exact ⟨name, t, shown, .inl rfl⟩
      · -- A member of a module is not in one of its libraries.
        rw [MemberOf, member] at home
        cases home
        rw [library.target] at hM
        cases hM

/-- The members of what is granted are granted, unless they are those of a module. -/
theorem Resolves.granted_of_member (formed : a.Formed) (notModule : (a.symbol l).target ≠ .module)
    (granted : a.Granted units l) (home : a.MemberOf s l) (known : s < a.symbols.size)
    (resolves : Resolves a units s t) : a.Granted units t := by
  have direct : (a.symbol s).binding = .direct := by
    cases hb : (a.symbol s).binding with
    | direct => rfl
    | _ => exact absurd (formed.importing s known (by rw [hb]; rfl) l home) notModule
  obtain rfl := resolves.eq_of_direct direct
  intro N l' library place
  rcases place with rfl | home'
  · have member := library.member
    rw [MemberOf, home] at member
    cases member
    exact absurd library.module notModule
  · rw [MemberOf, home] at home'
    cases home'
    obtain ⟨name, e, shown, found⟩ := granted N l library (.inl rfl)
    exact ⟨name, e, shown, found.imp_right fun h => ⟨h.1, .inl (h.2.elim id id)⟩⟩

/-- What a module comes across stands for something of its own, or for something that is granted. -/
theorem Open.granted (formed : a.Formed) (hM : (a.symbol M).target = .module)
    (known : s < a.symbols.size) (reached : a.Open units M s) (resolves : Resolves a units s t)
    (outcome : a.Granted units t ∨
      ∃ N, (a.symbol N).target = .module ∧ Belongs a N s ∧ Belongs a N t) :
    a.Granted units t ∨ Belongs a M t := by
  cases reached with
  | entry module shown => exact .inl (resolves.granted_of_entry formed module shown outcome)
  | member notModule granted home =>
    exact .inl (resolves.granted_of_member formed notModule granted home known)
  | own belongs =>
    refine outcome.imp_right fun ⟨N, hN, here, there⟩ => ?_
    obtain rfl := here.unique formed hN hM belongs
    exact there
  | foreign outside =>
    refine outcome.imp_right fun ⟨N, hN, here, there⟩ => ?_
    exact absurd here (outside N hN)

/-- What is shown by something that a module comes across. -/
theorem open_of_shows (formed : a.Formed) {container next : SymbolId} {name : String}
    (found : a.Granted units container ∨ Belongs a M container)
    (shown : a.Shows container name next) : a.Open units M next := by
  obtain ⟨σ, place, named⟩ := shown
  simp only [publicScope?] at place
  -- The members of anything but a module are looked up in one and the same way.
  have inMembers : (a.symbol container).target ≠ .module → (a.symbol container).members = some σ →
      a.Open units M next := by
    intro notModule members
    have kind := (formed.members container σ members).1
    have home : a.MemberOf next container := by
      obtain ⟨-, home | ⟨-, o, exports, -⟩⟩ := formed.name σ name next named
      · rw [MemberOf, home]
        exact kind
      · rw [kind] at exports
        cases exports
    rcases found with granted | belongs
    · exact .member notModule granted home
    · exact .own (.deeper home belongs)
  cases target : (a.symbol container).target with
  | module =>
    rw [target] at place
    exact .entry target ⟨σ, place, named⟩
  | var | unknown =>
    rw [target] at place
    cases place
  | library | interactive | interactiveSection =>
    rw [target] at place
    exact inMembers (by rw [target]; exact fun h => by cases h) place

/-! ## Where paths start -/

/-- The scope lies inside the module. -/
inductive Lies (a : Arena) (M : SymbolId) : ScopeId → Prop where
  | members {σ : ScopeId} (kind : (a.scope σ).kind = .members M) : Lies a M σ
  | owned {σ : ScopeId} {l : SymbolId} (kind : (a.scope σ).kind = .members l)
    (home : a.MemberOf l M) : Lies a M σ
  | inner {σ outer : ScopeId} (dynamic : (a.scope σ).kind.isDynamic = true)
    (enclosing : (a.scope σ).enclosing = some outer) (rest : Lies a M outer) : Lies a M σ

/-- The module is a unit, and its scopes enclose each other as they are declared. -/
structure Stands (a : Arena) (M : SymbolId) : Prop where
  members : ∀ σ, (a.scope σ).kind = .members M → (a.scope σ).enclosing = some Analysis.unitsScope
  owned : ∀ σ l, (a.scope σ).kind = .members l → a.MemberOf l M →
    (a.scope σ).enclosing = some (a.symbol l).scope
  units : (a.scope Analysis.unitsScope).kind = .units ∧
    ∀ outer, (a.scope Analysis.unitsScope).enclosing = some outer → outer = Analysis.globalScope
  global : (a.scope Analysis.globalScope).kind = .global ∧
    (a.scope Analysis.globalScope).enclosing = none

theorem Formed.stands (formed : a.Formed) (module : (a.symbol M).target = .module)
    (known : M < a.symbols.size) (direct : (a.symbol M).binding = .direct) : a.Stands M := by
  have home := formed.kind_of_module known direct module
  refine ⟨fun σ kind => ?_, fun σ l kind member =>
    ?_, ⟨(formed.units _).mpr rfl, fun outer he => ?_⟩,
    formed.global, ?_⟩
  · rcases formed.around σ M kind with here | ⟨o, ho, -⟩
    · rw [here, (formed.units _).mp home]
    · rw [home] at ho
      cases ho
  · rcases formed.around σ l kind with here | ⟨o, ho, interactive⟩
    · exact here
    · rw [MemberOf, ho] at member
      cases member
      rw [module] at interactive
      cases interactive
  · have older := formed.older _ outer he
    exact Nat.lt_one_iff.mp older
  · cases he : (a.scope Analysis.globalScope).enclosing with
    | none => rfl
    | some outer => exact absurd (formed.older _ outer he) (Nat.not_lt_zero _)

/-- Outside of its module, a scope has only units and global names around it. -/
theorem Lies.outwards (stands : a.Stands M) (fuel : Nat) {σ : ScopeId} (h : Lies a M σ) :
    ∀ id ∈ a.outwards fuel σ, Lies a M id ∨ (a.scope id).kind = .units ∨
      (a.scope id).kind = .global := by
  have global : ∀ fuel, ∀ id ∈ a.outwards fuel Analysis.globalScope,
      (a.scope id).kind = .global := by
    intro fuel id mem
    cases fuel with
    | zero => cases mem
    | succ fuel =>
      rw [Arena.outwards, stands.global.2, List.mem_singleton] at mem
      exact mem ▸ stands.global.1
  have units : ∀ fuel, ∀ id ∈ a.outwards fuel Analysis.unitsScope,
      (a.scope id).kind = .units ∨ (a.scope id).kind = .global := by
    intro fuel id mem
    cases fuel with
    | zero => cases mem
    | succ fuel =>
      rcases List.mem_cons.mp mem with rfl | mem
      · exact .inl stands.units.1
      · cases he : (a.scope Analysis.unitsScope).enclosing with
        | none =>
          rw [he] at mem
          cases mem
        | some outer =>
          rw [he, stands.units.2 outer he] at mem
          exact .inr (global fuel id mem)
  induction fuel generalizing σ with
  | zero => exact fun id mem => by cases mem
  | succ fuel ih =>
    intro id mem
    rcases List.mem_cons.mp mem with rfl | mem
    · exact .inl h
    · cases h with
      | members kind =>
        rw [stands.members σ kind] at mem
        exact .inr (units fuel id mem)
      | owned kind home =>
        rw [stands.owned σ _ kind home] at mem
        exact ih (.members home) id mem
      | inner dynamic enclosing rest =>
        rw [enclosing] at mem
        exact ih rest id mem

/-- The first name of a path is looked up inside the module or among global names. -/
theorem Lies.firstSymbol? (stands : a.Stands M) {σ : ScopeId} (h : Lies a M σ) {anchor : Anchor}
    {name : String} (found : a.firstSymbol? σ anchor name = some t) :
    ∃ id, (a.scope id).get? name = some t ∧ (Lies a M id ∨ (a.scope id).kind = .global) := by
  have around : ∀ id ∈ a.chain σ, (a.scope id).kind ≠ .units →
      Lies a M id ∨ (a.scope id).kind = .global := by
    intro id mem notUnits
    rcases h.outwards stands _ id mem with lies | units | global
    · exact .inl lies
    · exact absurd units notUnits
    · exact .inr global
  cases anchor with
  | global =>
    simp only [Arena.firstSymbol?, Option.bind_eq_some_iff] at found
    obtain ⟨id, found, named⟩ := found
    have kind := List.find?_some found
    exact ⟨id, named, .inr (eq_of_beq kind)⟩
  | here =>
    simp only [Arena.firstSymbol?] at found
    obtain ⟨id, mem, named⟩ := List.exists_of_findSome?_eq_some found
    refine ⟨id, named, around id ((List.takeWhile_subset _) mem) fun units => ?_⟩
    have inner := List.mem_takeWhile_imp mem
    rw [isOutermost, units] at inner
    cases inner
  | module | library =>
    simp only [Arena.firstSymbol?, memberScope?, Option.bind_eq_some_iff] at found
    obtain ⟨id, found, named⟩ := found
    refine ⟨id, named, around id (List.mem_of_find?_eq_some found) fun units => ?_⟩
    have wanted := List.find?_some found
    rw [units] at wanted
    cases wanted

/-- A module comes across its own names and global ones. -/
theorem Formed.open_of_name (formed : a.Formed) {id : ScopeId} {name : String}
    (named : (a.scope id).get? name = some t)
    (place : Lies a M id ∨ (a.scope id).kind = .global) : a.Open units M t := by
  have notExports : ∀ o, (a.scope id).kind ≠ .exports o := by
    intro o exports
    rcases place with (kind | kind | dynamic) | global
    · rw [kind] at exports
      cases exports
    · rw [kind] at exports
      cases exports
    · rw [exports] at dynamic
      cases dynamic
    · rw [global] at exports
      cases exports
  have home : (a.symbol t).scope = id := by
    obtain ⟨-, home | ⟨-, o, exports, -⟩⟩ := formed.name id name t named
    · exact home
    · exact absurd exports (notExports o)
  rcases place with (kind | ⟨kind, member⟩ | dynamic) | global
  · exact .own (.member (by rw [MemberOf, home]; exact kind))
  · exact .own (.deeper (by rw [MemberOf, home]; exact kind) (.member member))
  · refine .foreign fun N _ => not_belongs (fun o members => ?_) fun o exports => ?_
    · rw [← home, members] at dynamic
      cases dynamic
    · rw [← home, exports] at dynamic
      cases dynamic
  · refine .foreign fun N _ => not_belongs (fun o members => ?_) fun o exports => ?_
    · rw [home, global] at members
      cases members
    · rw [home, global] at exports
      cases exports

/-! ## What symbols stand for -/

theorem StartsAt.known (formed : a.Formed) {σ : ScopeId} {r : Reference} (h : a.StartsAt σ r s) :
    s < a.symbols.size := by
  simp only [StartsAt, Option.bind_eq_some_iff] at h
  obtain ⟨name, -, found⟩ := h
  obtain ⟨id, -, named, -⟩ := mem_chain_of_firstSymbol? found
  exact (formed.name id name s named).1

/-- **A symbol of a module stands for something of that module, or for something that is granted.**
A path that starts with something the module comes across ends with such a thing. -/
theorem Resolves.granted (formed : a.Formed)
    (unit : ∀ path s, Entries.get? units path = some s →
      (a.scope (a.symbol s).scope).kind = .units) (resolves : Resolves a units s t) :
    a.Granted units t ∨ ∃ N, (a.symbol N).target = .module ∧ Belongs a N s ∧ Belongs a N t := by
  refine @Resolves.rec a units
    (fun s t _ => a.Granted units t ∨
      ∃ N, (a.symbol N).target = .module ∧ Belongs a N s ∧ Belongs a N t)
    (fun s _ t _ => ∀ M, (a.symbol M).target = .module →
      s < a.symbols.size → a.Open units M s → t < a.symbols.size ∧ a.Open units M t)
    ?direct ?moduleImport ?nameImport ?path ?nil ?cons s t resolves
  case direct =>
    intro s _
    by_cases h : ∃ N, (a.symbol N).target = .module ∧ Belongs a N s
    · obtain ⟨N, hN, belongs⟩ := h
      exact .inr ⟨N, hN, belongs, belongs⟩
    · exact .inl (.of_foreign fun N hN belongs => h ⟨N, hN, belongs⟩)
  case moduleImport =>
    intro s module path _ found
    have home := unit path module found.1
    refine .inl (.of_foreign fun N _ => not_belongs (fun o members => ?_) fun o exports => ?_)
    · rw [home] at members
      cases members
    · rw [home] at exports
      cases exports
  case nameImport =>
    intro s module entry t path name _ found exported rest outcome
    exact .inl (rest.granted_of_entry formed found.2 exported outcome)
  case path =>
    intro s start last t r σ binding found _ rest walk outcome
    have root : (a.symbol s).binding.root? = some σ := by
      rcases binding with hb | hb <;> rw [hb] <;> rfl
    obtain ⟨M, kind, hM, place⟩ := formed.rooted s σ root
    obtain ⟨known, direct, -⟩ := formed.owner σ M kind
    have start : a.Open units M start := by
      obtain ⟨name, -, found⟩ := Option.bind_eq_some_iff.mp found
      obtain ⟨id, named, place⟩ :=
        Lies.firstSymbol? (formed.stands hM known direct) (.members kind) found
      exact formed.open_of_name named place
    obtain ⟨knownLast, reached⟩ := walk M hM (StartsAt.known formed found) start
    refine (reached.granted formed hM knownLast rest outcome).imp_right fun there => ?_
    refine ⟨M, hM, ?_, there⟩
    rcases place with home | exports
    · exact .member (by rw [MemberOf, home]; exact kind)
    · exact .entry exports
  case nil => exact fun M _ known start => ⟨known, start⟩
  case cons =>
    intro s container next last name names first shown _ outcome rest M hM known start
    have next_known : next < a.symbols.size := by
      obtain ⟨σ, -, named⟩ := shown
      exact (formed.name σ name next named).1
    exact rest M hM next_known
      (open_of_shows formed (start.granted formed hM known first outcome) shown)

/-- What a path leads to that starts with something the module comes across. -/
theorem Leads.open (formed : a.Formed)
    (unit : ∀ path s, Entries.get? units path = some s →
      (a.scope (a.symbol s).scope).kind = .units) (hM : (a.symbol M).target = .module)
    (names : List String) (walk : Leads a units s names t) (known : s < a.symbols.size)
    (start : a.Open units M s) : t < a.symbols.size ∧ a.Open units M t := by
  induction names generalizing s with
  | nil =>
    cases walk
    exact ⟨known, start⟩
  | cons name rest ih =>
    cases walk with
    | cons first shown walk =>
      have next_known := shown.elim fun σ h => (formed.name σ name _ h.2).1
      exact ih walk next_known
        (open_of_shows formed
          (start.granted formed hM known first (first.granted formed unit)) shown)

/-! ## Linked arenas -/

section Linked

variable {bound b : Arena} {σ : ScopeId}

theorem memberOf_linked (binds : Binds a units bound) (moved : bound.Moved b) :
    b.MemberOf t l ↔ a.MemberOf t l := by
  rw [MemberOf, MemberOf, moved.kind, moved.symbol, binds.scope, (binds.sameBut t).scope]

/-- The owner of some members is as it was built. -/
theorem Formed.owner_linked (formed : a.Formed) (binds : Binds a units bound)
    (moved : bound.Moved b) {owner : SymbolId} (h : (a.scope σ).kind = .members owner) :
    b.symbol owner = a.symbol owner := by
  rw [moved.symbol, binds.symbol_of_direct (formed.owner σ owner h).2.1]

/-- What is not the scope of a section lies where it was built. -/
theorem enclosing_linked (formed : a.Formed) (binds : Binds a units bound) (moved : bound.Moved b)
    (h : ∀ owner, (a.scope σ).kind = .members owner → ¬ a.IsSection owner) :
    (b.scope σ).enclosing = (a.scope σ).enclosing := by
  rcases moved.enclosing σ with same | ⟨⟨owner, kind, o, ho, interactive⟩, -⟩
  · rw [same, binds.scope]
  · rw [binds.scope] at kind ho
    rw [(binds.sameBut owner).scope] at ho
    rw [binds.symbol_of_direct (formed.owner _ o ho).2.1] at interactive
    exact absurd ⟨o, ho, interactive⟩ (h owner kind)

/-- Sections move, but modules stand where they stood. -/
theorem Stands.of_linked (formed : a.Formed) (binds : Binds a units bound) (moved : bound.Moved b)
    (module : (a.symbol M).target = .module) (known : M < a.symbols.size)
    (direct : (a.symbol M).binding = .direct) : b.Stands M := by
  have stands := formed.stands module known direct
  have kind : ∀ τ, (b.scope τ).kind = (a.scope τ).kind := fun τ => by rw [moved.kind, binds.scope]
  -- Neither global names nor units are members of anything.
  have outermost : ∀ τ, (a.scope τ).kind = .units ∨ (a.scope τ).kind = .global →
      (b.scope τ).enclosing = (a.scope τ).enclosing := by
    intro τ hτ
    refine enclosing_linked formed binds moved fun owner ho => ?_
    rcases hτ with hτ | hτ <;> rw [hτ] at ho <;> cases ho
  refine ⟨fun τ hτ => ?_, fun τ l hτ member => ?_, ⟨by rw [kind]; exact stands.units.1, ?_⟩,
    by rw [kind]; exact stands.global.1, ?_⟩
  · rw [kind] at hτ
    rw [enclosing_linked formed binds moved, stands.members τ hτ]
    rintro owner ho ⟨o, home, -⟩
    rw [hτ] at ho
    cases ho
    rw [formed.kind_of_module known direct module] at home
    cases home
  · rw [kind] at hτ
    rw [memberOf_linked binds moved] at member
    rw [formed.owner_linked binds moved hτ, enclosing_linked formed binds moved,
      stands.owned τ l hτ member]
    rintro owner ho ⟨o, home, interactive⟩
    rw [hτ] at ho
    cases ho
    rw [MemberOf, home] at member
    cases member
    rw [module] at interactive
    cases interactive
  · rw [outermost _ (.inl stands.units.1)]
    exact stands.units.2
  · rw [outermost _ (.inr stands.global.1)]
    exact stands.global.2

theorem Lies.of_linked (formed : a.Formed) (binds : Binds a units bound) (moved : bound.Moved b)
    (h : Lies b M σ) : Lies a M σ := by
  have kind : ∀ τ, (b.scope τ).kind = (a.scope τ).kind := fun τ => by rw [moved.kind, binds.scope]
  induction h with
  | members hσ => exact .members (by rw [← kind]; exact hσ)
  | owned hσ home =>
    exact .owned (by rw [← kind]; exact hσ) ((memberOf_linked binds moved).mp home)
  | inner dynamic enclosing _ ih =>
    rw [kind] at dynamic
    refine .inner dynamic ?_ ih
    rw [← enclosing_linked formed binds moved]
    · exact enclosing
    · intro owner ho
      rw [ho] at dynamic
      cases dynamic

/-- Following a path in a linked arena is what its names ask for. -/
theorem leads_of_follow (fresh : Unlinked a units) (binds : Binds a units bound)
    (moved : bound.Moved b) {r : Reference} {span : Span} (names : List String) {last : SymbolId}
    (h : b.follow r span s names = .ok last) : Leads a units s names last := by
  have linked : ∀ id, b.linked id span = bound.linked id span := by
    intro id
    simp only [Arena.linked, targetOf?, moved.symbol]
  have publicMember :
      ∀ id name, b.publicMember id name r span = bound.publicMember id name r span := by
    intro id name
    simp only [Arena.publicMember, publicScope?, moved.symbol, moved.get?]
  induction names generalizing s with
  | nil =>
    cases h
    exact .nil
  | cons name rest ih =>
    rw [follow, linked] at h
    split at h
    · cases h
    · next container hc =>
      rw [publicMember] at h
      split at h
      · cases h
      · next next hn =>
        have first := linked_ok fresh binds hc
        exact .cons first ((publicMember_ok binds (first.isDirect fresh)).mp hn) (ih h)

/-- What a reference in a module is bound to belongs to that module, or is granted. -/
theorem granted_of_resolve (formed : a.Formed) (fresh : Unlinked a units)
    (unit : ∀ path s, Entries.get? units path = some s →
      (a.scope (a.symbol s).scope).kind = .units) (binds : Binds a units bound)
    (moved : bound.Moved b) (module : (a.symbol M).target = .module) (known : M < a.symbols.size)
    (direct : (a.symbol M).binding = .direct) {p : PendingReference} {r : ResolvedReference}
    (lies : Lies b M p.scope) (h : b.resolve p = .ok r) :
    a.Granted units r.target ∨ Belongs a M r.target := by
  obtain ⟨first, found, walk, stands⟩ := resolve_eq_ok h
  have start : first < a.symbols.size ∧ a.Open units M first := by
    obtain ⟨name, -, found⟩ := Option.bind_eq_some_iff.mp found
    obtain ⟨id, named, place⟩ :=
      lies.firstSymbol? (.of_linked formed binds moved module known direct) found
    have same : (b.scope id).get? name = (a.scope id).get? name := by rw [moved.get?, binds.scope]
    rw [same] at named
    refine ⟨(formed.name id name first named).1, formed.open_of_name named ?_⟩
    rw [moved.kind, binds.scope] at place
    exact place.imp_left fun h => h.of_linked formed binds moved
  obtain ⟨knownLast, last⟩ :=
    (leads_of_follow fresh binds moved _ walk).open formed unit module _ start.1 start.2
  have resolves : Resolves a units r.symbol r.target := by
    have linked : bound.linked r.symbol p.node.span = .ok r.target := by
      rw [← stands]
      simp only [Arena.linked, targetOf?, moved.symbol]
    exact linked_ok fresh binds linked
  exact last.granted formed module knownLast resolves (resolves.granted formed unit)

/-- The exports of the module contain the library, or an export that is linked to the library or to
one of its members. -/
def Grants (b : Arena) (module library member : SymbolId) : Prop :=
  ∃ name e, b.Exports module name e ∧ (e = library ∨ (b.symbol e).binding.isExport = true ∧
    ((b.symbol e).resolved = some library ∨ (b.symbol e).resolved = some member))

/-- What a module shares is linked so. -/
theorem Shares.grants (formed : a.Formed) (fresh : Unlinked a units) (binds : Binds a units bound)
    (moved : bound.Moved b) (owner : b.symbol N = a.symbol N)
    (settled : ∀ e, (a.symbol e).binding.isExport = true →
      (a.symbol N).exports = some (a.symbol e).scope → ∀ t, Resolves a units e t →
        Settled a e bound)
    (h : a.Shares units N l t) : b.Grants N l t := by
  obtain ⟨name, e, shown, found⟩ := h
  refine ⟨name, e, ?_, found.imp_right fun ⟨isExport, resolves⟩ => ?_⟩
  · obtain ⟨σ, exports, named⟩ := shown
    exact ⟨σ, by rw [owner]; exact exports, by rw [moved.get?, binds.scope]; exact named⟩
  · have indirect := Binding.isIndirect_of_isExport isExport
    have place : (a.symbol N).exports = some (a.symbol e).scope := by
      rcases formed.entry_cases shown with ⟨-, exports⟩ | ⟨direct, -⟩
      · exact exports
      · rw [direct] at isExport
        cases isExport
    have bind : ∀ t, Resolves a units e t → (b.symbol e).resolved = some t := by
      intro t resolves
      obtain ⟨t', ht'⟩ :=
        Option.isSome_iff_exists.mp (settled e isExport place t resolves indirect)
      rw [moved.symbol, ht', (binds.resolves fresh ht').1.unique resolves]
    rw [moved.symbol, (binds.sameBut e).binding, ← moved.symbol]
    exact ⟨isExport, resolves.imp (bind l) (bind t)⟩

end Linked

end Arena

/-! ## Programs -/

/-- The exports of modules are linked. -/
theorem Analysis.mem_linkOrder {a : Analysis} (formed : a.arena.Formed) {N e : SymbolId}
    (known : N < a.arena.symbols.size)
    (home : (a.arena.scope (a.arena.symbol N).scope).kind = .units)
    (module : (a.arena.symbol N).target = .module)
    (exports : (a.arena.symbol N).exports = some (a.arena.symbol e).scope)
    (knownEntry : e < a.arena.symbols.size)
    (indirect : (a.arena.symbol e).binding.isIndirect = true) :
    e ∈ a.linkOrder := by
  have slots : N ∈ (a.arena.scope Analysis.unitsScope).slots := by
    rw [← (formed.units _).mp home]
    exact List.mem_of_getElem? (formed.placed N known)
  refine List.mem_append_right _ (List.mem_flatMap.mpr ⟨N, slots, ?_⟩)
  simp only [module, beq_self_eq_true, if_true]
  refine List.mem_append_right _ ?_
  simp only [Arena.indirections, exports]
  exact List.mem_filter.mpr ⟨List.mem_of_getElem? (formed.placed e knownEntry), indirect⟩

/-- From inside an expression of a library, only that library and its module lie around. -/
theorem Analysis.Under.lies {a : Analysis} {M : SymbolId} {σ inner : ScopeId}
    (h : a.Under inner σ) (lies : a.arena.Lies M σ) : a.arena.Lies M inner := by
  induction h using Relation.ReflTransGen.head_induction_on with
  | refl => exact lies
  | head step _ ih => exact .inner step.1 step.2 ih

/-- **Modules keep their libraries to themselves.** In a program that analysis accepts, every
reference in a module is bound to a symbol. If that is a member of a library of another module, then
the exports of that other module contain the library, or an export that is linked to the library or
to the very member. -/
theorem analyze_encapsulates {units : UnitSet} {a : Analysis} (numbered : units.Numbered)
    (h : analyze false units = .ok a) {u : SourceUnit} {m : Module} (mem : u ∈ units)
    (module : u.kind = .module m) {node : Node} {r : Reference}
    (located : u.Contains (.reference node r)) :
    ∃ M found, a.unit? u.path = some M ∧ a.references.get? node.id = some (.ok found) ∧
      ∀ N l, N ≠ M → a.arena.LibraryOf l N → a.arena.MemberOf found.target l →
        a.arena.Grants N l found.target := by
  obtain ⟨built, pending, linked, resolved, hb, hl, hr, rfl⟩ := analyze_eq_ok h
  have fresh := buildScopes_unlinked hb
  obtain ⟨b, steps, rfl, rfl, groups⟩ := buildScopes_groups numbered hb
  have formed := steps.formed (Building.formed_start false)
  have unit : ∀ path s, Entries.get? b.analysis.units path = some s →
      (b.arena.scope (b.arena.symbol s).scope).kind = .units := by
    intro path s hs
    rw [(formed.unit path s hs).2.1]
    exact (formed.arena.units _).mpr rfl
  have laidOnce : ∀ path s, Entries.get? b.analysis.units path = some s → b.arena.LaidOnce s :=
    fun path s hs => ⟨(formed.unit path s hs).1.1, by rw [unit path s hs]; rfl⟩
  have arranged : Arena.Formed
      { b.analysis with positions := b.analysis.positions.reverse : Analysis }.arena := formed.arena
  obtain ⟨bound, binds, moved, -, ready, settled⟩ := linkUnits_spec arranged fresh laidOnce hl
  have same := (linkUnits_ready arranged fresh laidOnce hl).2
  have described := groups (finished_of_resolveAll same hr)
  have eq := Analysis.resolveAll_same _ hr
  have arena : resolved.arena = linked.arena := by rw [eq]
  have annotated := resolved.captureAll_annotated units
  rw [annotated.arena, arena, Analysis.unit?, annotated.units]
  -- The module, and the library in which the reference stands.
  obtain ⟨M, home, entered, -, members, -, group⟩ := described.group u mem
  obtain ⟨owner, -⟩ := formed.unit u.path M (by
    rw [← same.units, ← show resolved.units = linked.units by rw [eq]]
    exact entered)
  have hM : (b.arena.symbol M).target = .module := by
    rw [← same.direct M owner.2, ← arena, described.target u mem M entered, module]
    rfl
  obtain ⟨g, hg, v, hv, occurs⟩ := located
  rw [← u.map_namedGroups] at hg
  obtain ⟨named, hnamed, rfl⟩ := List.mem_map.mp hg
  obtain ⟨σ, l, grouped⟩ := group named hnamed
  have lies : resolved.arena.Lies M σ := by
    refine .owned grouped.kind ?_
    rw [Arena.MemberOf, grouped.home, arena]
    exact ready.members M home (by rw [← arena]; exact members)
  obtain ⟨inner, under, p, found, rfl, -, resolves, entry⟩ :=
    ((soundVars_iff _).mp grouped.sound _ (List.mem_map_of_mem hv)).occurs occurs
  have liesInner := under.lies lies
  rw [arena] at liesInner resolves
  obtain ⟨kind, entry⟩ := annotated.target entry
  refine ⟨M, _, entered, entry, fun N l other library member => ?_⟩
  -- Both owners are as they were built.
  have memberBuilt := (Arena.memberOf_linked binds moved).mp member
  have libraryBuilt := (Arena.memberOf_linked binds moved).mp library.member
  have sameLibrary := formed.arena.owner_linked binds moved memberBuilt
  have sameModule := formed.arena.owner_linked binds moved libraryBuilt
  have built : b.arena.LibraryOf l N :=
    ⟨by rw [← sameLibrary]; exact library.target,
      libraryBuilt, by rw [← sameModule]; exact library.module⟩
  obtain ⟨known, direct, -⟩ := formed.arena.owner _ N libraryBuilt
  rcases Arena.granted_of_resolve formed.arena fresh unit binds moved hM owner.1 owner.2 liesInner
    resolves with granted | belongs
  · refine (granted N l built (.inr memberBuilt)).grants formed.arena fresh binds moved sameModule
      fun e isExport exports t resolves => settled e ?_ t resolves
    have indirect := Binding.isIndirect_of_isExport isExport
    exact Analysis.mem_linkOrder
      (a := { b.analysis with positions := b.analysis.positions.reverse }) formed.arena known
      (formed.arena.kind_of_module known direct built.module) built.module exports
      (Arena.lt_size_of_isIndirect indirect) indirect
  · exact absurd ((built.belongs (.inr memberBuilt)).unique formed.arena built.module hM
      belongs) other

/-- Three modules. The first one exports its library under another name, the second one passes that
name on, and the third one reaches a definition of the library through the second one. -/
def reexportingModules : UnitSet :=
  let node (index : Nat) : Node := ⟨.tree index, default⟩
  let definition (index : Nat) (name : String) (value : Expr) : VarDef :=
    ⟨node index, name, .any, value⟩
  [⟨node 0, "a", 0, .module
      { globalName := none, imports := [], aliases := []
        libraries := [⟨node 1, "l", false, [definition 2 "x" (.constant (node 3) .nil)]⟩]
        exports := [⟨node 4, ⟨.here, ["l"]⟩, "e"⟩] }⟩,
   ⟨node 5, "b", 0, .module
      { globalName := none, imports := [⟨node 6, "a", [⟨node 7, .name "e", "f"⟩]⟩], aliases := []
        libraries := [], exports := [⟨node 8, ⟨.here, ["f"]⟩, "g"⟩] }⟩,
   ⟨node 9, "c", 0, .module
      { globalName := none, imports := [⟨node 10, "b", [⟨node 11, .module, "m"⟩]⟩], aliases := []
        libraries := [⟨node 12, "k", false,
          [definition 13 "y" (.reference (node 14) ⟨.here, ["m", "g", "x"]⟩)]⟩]
        exports := [] }⟩]

/-- The theorem at these modules: the reference is bound to the definition, the fifth symbol, and
the first module grants it. -/
theorem analyze_encapsulates_reexported : ∃ a found, analyze false reexportingModules = .ok a ∧
    a.references.get? (.tree 14) = some (.ok found) ∧ found.target = 4 ∧
    a.arena.Grants 0 3 found.target := by
  have numbered : UnitSet.Numbered reexportingModules := by decide +kernel
  have facts : ((analyze false reexportingModules).toOption.map fun a =>
      (a.unit? "c", (a.references.get? (.tree 14)).bind fun outcome =>
        outcome.toOption.map (·.target),
        (a.arena.symbol 3).target, (a.arena.scope (a.arena.symbol 3).scope).kind,
        (a.arena.symbol 0).target, (a.arena.scope (a.arena.symbol 4).scope).kind)) =
      some (some 2, some 4, .library, .members 0, .module, .members 3) := by decide +kernel
  cases h : analyze false reexportingModules with
  | error fault =>
    rw [h] at facts
    cases facts
  | ok a =>
    rw [h] at facts
    simp only [Except.toOption, Option.map_some, Option.some.injEq, Prod.mk.injEq] at facts
    obtain ⟨unit, target, library, member, module, home⟩ := facts
    obtain ⟨M, found, entered, entry, grants⟩ := analyze_encapsulates numbered h
      (.tail _ (.tail _ (.head _))) rfl
      ⟨_, List.mem_singleton.mpr rfl, _, List.mem_singleton.mpr rfl, .whole⟩
    change a.unit? "c" = some M at entered
    change a.references.get? (.tree 14) = some (.ok found) at entry
    rw [unit] at entered
    cases entered
    have target : found.target = 4 := by simpa [entry] using target
    refine ⟨a, found, rfl, entry, target, grants 0 3 (by decide) ⟨library, member, module⟩ ?_⟩
    rw [Arena.MemberOf, target]
    exact home

end CellScript
