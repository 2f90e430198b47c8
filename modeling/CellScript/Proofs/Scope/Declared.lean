import CellScript.Proofs.Scope.Abreast
import CellScript.Proofs.Scope.Owners

/-!
# Units that have been declared

Before anything in a unit is visited, all units are declared: each gets a symbol, empty scopes for
its members and exports, and a global name if it asks for one. This succeeds exactly if no two units
have the same path and no two ask for the same global name, so that the order of the units does not
matter.

* `Arena.AddsUnit` — all that the declaration of a unit adds to an arena
* `Build.declareUnit_eq_ok` — without recovery a unit is declared exactly if its names are free
* `Build.Opening` — the state in which all units have been declared
* `Build.declareUnits_opening`, `Build.declareUnits_ok` — declaring units leads there
-/

namespace CellScript

/-- The name by which a unit is known in the whole program, if it asks for one. -/
def SourceUnit.globalName? (u : SourceUnit) : Option String :=
  match u.kind with
  | .module m => m.globalName
  | .interactive _ => none

/-- Units of this kind show names to other units. -/
def UnitKind.isModule : UnitKind → Bool
  | .module _ => true
  | .interactive _ => false

/-- No two units have the same path, and no two ask for the same global name. -/
structure UnitSet.Declarable (units : UnitSet) : Prop where
  paths : (List.map SourceUnit.path units).Nodup
  globals : (List.filterMap SourceUnit.globalName? units).Nodup

theorem UnitSet.Declarable.perm {units units' : UnitSet} (h : units.Declarable)
    (perm : List.Perm units units') : units'.Declarable :=
  ⟨(perm.map _).nodup_iff.mp h.paths, (perm.filterMap _).nodup_iff.mp h.globals⟩

/-- The declaration of the global name of a unit. -/
def SourceUnit.globalDeclaration (u : SourceUnit) (name : String) : Declaration :=
  .indirect name (.moduleImport u.path) ⟨u.node.id.asGlobalName, u.node.span⟩

theorem Build.unitDeclaration_name (u : SourceUnit) : (unitDeclaration u).name = u.path := by
  unfold unitDeclaration
  cases u.kind <;> rfl

theorem Build.unitDeclaration_node (u : SourceUnit) : (unitDeclaration u).node = u.node := by
  unfold unitDeclaration
  cases u.kind <;> rfl

namespace Arena

/-- All that the declaration of a unit adds to an arena. -/
structure AddsUnit (u : SourceUnit) (a a' : Arena) : Prop where
  declared : (a'.symbol a.symbols.size).toDeclaration = Build.unitDeclaration u
  home : (a'.symbol a.symbols.size).scope = Analysis.unitsScope
  unresolved : (a'.symbol a.symbols.size).resolved = none
  members : (a'.symbol a.symbols.size).members = some a.scopes.size
  inside : a'.scope a.scopes.size =
    ⟨.members a.symbols.size, some Analysis.unitsScope, false, [], []⟩
  exports : (a'.symbol a.symbols.size).exports =
    if u.kind.isModule then some (a.scopes.size + 1) else none
  shown : u.kind.isModule = true → a'.scope (a.scopes.size + 1) =
    ⟨.exports a.symbols.size, some Analysis.unitsScope, false, [], []⟩
  global : ∀ name, u.globalName? = some name → ∃ slot, a'.symbol (a.symbols.size + 1) =
    ⟨u.globalDeclaration name, a.symbols.size + 1, Analysis.globalScope, slot, none, none, none⟩
  symbols : a'.symbols.size = a.symbols.size + 1 + u.globalName?.toList.length
  scopes : a'.scopes.size = a.scopes.size + 1 + if u.kind.isModule then 1 else 0
  oldSymbol : ∀ t, t < a.symbols.size → a'.symbol t = a.symbol t
  oldScope : ∀ σ, σ < a.scopes.size → σ ≠ Analysis.unitsScope → σ ≠ Analysis.globalScope →
    a'.scope σ = a.scope σ
  path : ∀ name, (a'.scope Analysis.unitsScope).get? name =
    if u.path = name then some a.symbols.size else (a.scope Analysis.unitsScope).get? name
  name : ∀ name, (a'.scope Analysis.globalScope).get? name =
    if u.globalName? = some name then some (a.symbols.size + 1)
    else (a.scope Analysis.globalScope).get? name

/-- An arena with a new scope among the units, which a symbol comes to own. -/
def owning (a : Arena) (kind : ScopeKind) (t : SymbolId) (f : ScopeId → Symbol → Symbol) : Arena :=
  (a.newScope kind (some Analysis.unitsScope) false).2.modifySymbol t (f a.scopes.size)

/-- An arena with a unit declared. -/
def withUnit (a : Arena) (u : SourceUnit) : Arena :=
  let t := a.symbols.size
  let a := a.withDeclared Analysis.unitsScope (Build.unitDeclaration u)
  let a := a.owning (.members t) t fun σ s => { s with members := some σ }
  match u.kind with
  | .interactive _ => a
  | .module m =>
    let a := a.owning (.exports t) t fun σ s => { s with exports := some σ }
    match m.globalName with
    | none => a
    | some name => a.withDeclared Analysis.globalScope (u.globalDeclaration name)

variable {a : Arena}

section Owning

variable {kind : ScopeKind} {t : SymbolId} {f : ScopeId → Symbol → Symbol}

theorem size_scopes_owning : (a.owning kind t f).scopes.size = a.scopes.size + 1 := by
  simp only [owning, newScope, modifySymbol, Array.size_push]

theorem size_symbols_owning : (a.owning kind t f).symbols.size = a.symbols.size := by
  simp only [owning, newScope, modifySymbol, Array.size_modify]

theorem scope_owning (σ : ScopeId) : (a.owning kind t f).scope σ =
    if σ = a.scopes.size then ⟨kind, some Analysis.unitsScope, false, [], []⟩ else a.scope σ := by
  rw [owning, scope_modifySymbol, scope_newScope]

theorem symbol_owning (s : SymbolId) : (a.owning kind t f).symbol s =
    if s = t ∧ t < a.symbols.size then f a.scopes.size (a.symbol s) else a.symbol s :=
  symbol_modifySymbol ..

end Owning

theorem withUnit_adds (u : SourceUnit) (known : Analysis.unitsScope < a.scopes.size) :
    AddsUnit u a (a.withUnit u) := by
  have global : Analysis.globalScope < a.scopes.size := Nat.zero_lt_of_lt known
  have other : Analysis.globalScope ≠ Analysis.unitsScope := by decide
  have units : ∀ name, ((a.withDeclared Analysis.unitsScope (Build.unitDeclaration u)).scope
      Analysis.unitsScope).get? name =
      if u.path = name then some a.symbols.size else (a.scope Analysis.unitsScope).get? name :=
    fun name => Build.unitDeclaration_name u ▸ get?_withDeclared known _ name
  cases hk : u.kind with
  | interactive sections =>
    have none : u.globalName? = Option.none := by rw [SourceUnit.globalName?, hk]
    constructor
    all_goals simp only [withUnit, hk, none, UnitKind.isModule, symbol_owning, scope_owning,
      size_scopes_owning, size_symbols_owning, symbol_withDeclared, size_symbols_withDeclared,
      size_scopes_withDeclared, declared]
    case interactive.path =>
      intro name
      rw [if_neg (Nat.ne_of_lt known), units]
    case interactive.name =>
      intro name
      rw [if_neg (Nat.ne_of_lt global), scope_withDeclared_ne _ other]
      simp
    case interactive.oldSymbol =>
      intro t ht
      simp [Nat.ne_of_lt ht]
    case interactive.oldScope =>
      intro σ hσ notUnits _
      rw [if_neg (Nat.ne_of_lt hσ), scope_withDeclared_ne _ notUnits]
    all_goals simp
  | module m =>
    have isModule : u.kind.isModule = true := by rw [hk]; rfl
    have named : u.globalName? = m.globalName := by rw [SourceUnit.globalName?, hk]
    cases hn : m.globalName with
    | none =>
      constructor
      all_goals simp only [withUnit, hk, hn, named, UnitKind.isModule, symbol_owning, scope_owning,
        size_scopes_owning, size_symbols_owning, symbol_withDeclared, size_symbols_withDeclared,
        size_scopes_withDeclared, declared]
      case module.none.path =>
        intro name
        rw [if_neg (Nat.ne_of_lt (Nat.lt_succ_of_lt known)), if_neg (Nat.ne_of_lt known), units]
      case module.none.name =>
        intro name
        rw [if_neg (Nat.ne_of_lt (Nat.lt_succ_of_lt global)), if_neg (Nat.ne_of_lt global),
          scope_withDeclared_ne _ other]
        simp
      case module.none.oldSymbol =>
        intro t ht
        simp [Nat.ne_of_lt ht]
      case module.none.oldScope =>
        intro σ hσ notUnits _
        rw [if_neg (Nat.ne_of_lt (Nat.lt_succ_of_lt hσ)), if_neg (Nat.ne_of_lt hσ),
          scope_withDeclared_ne _ notUnits]
      all_goals simp
    | some name =>
      constructor
      all_goals simp only [withUnit, hk, hn, named, UnitKind.isModule, symbol_owning, scope_owning,
        size_scopes_owning, size_symbols_owning, symbol_withDeclared, size_symbols_withDeclared,
        size_scopes_withDeclared, declared]
      case module.some.inside =>
        rw [scope_withDeclared_ne _ (Nat.ne_of_gt global)]
        simp [scope_owning, size_scopes_owning, size_scopes_withDeclared]
      case module.some.shown =>
        intro _
        rw [scope_withDeclared_ne _ (Nat.ne_of_gt (Nat.lt_succ_of_lt global))]
        simp [scope_owning, size_scopes_owning, size_scopes_withDeclared]
      case module.some.path =>
        intro name'
        rw [scope_withDeclared_ne _ other.symm]
        simp only [scope_owning, size_scopes_owning, size_scopes_withDeclared]
        rw [if_neg (Nat.ne_of_lt (Nat.lt_succ_of_lt known)), if_neg (Nat.ne_of_lt known), units]
      case module.some.name =>
        intro name'
        rw [get?_withDeclared]
        · simp only [scope_owning, size_scopes_owning, size_scopes_withDeclared,
            size_symbols_owning, size_symbols_withDeclared]
          rw [if_neg (Nat.ne_of_lt (Nat.lt_succ_of_lt global)), if_neg (Nat.ne_of_lt global),
            scope_withDeclared_ne _ other]
          by_cases same : name = name' <;>
            simp [SourceUnit.globalDeclaration, Declaration.indirect, same]
        · rw [size_scopes_owning, size_scopes_owning, size_scopes_withDeclared]
          exact Nat.lt_succ_of_lt (Nat.lt_succ_of_lt global)
      case module.some.oldSymbol =>
        intro t ht
        simp [Nat.ne_of_lt ht, Nat.ne_of_lt (Nat.lt_succ_of_lt ht)]
      case module.some.oldScope =>
        intro σ hσ notUnits notGlobal
        rw [scope_withDeclared_ne _ notGlobal, scope_owning, scope_owning, size_scopes_owning,
          size_scopes_withDeclared, if_neg (Nat.ne_of_lt (Nat.lt_succ_of_lt hσ)),
          if_neg (Nat.ne_of_lt hσ), scope_withDeclared_ne _ notUnits]
      case module.some.global =>
        intro name' same
        cases same
        exact ⟨_, if_pos trivial⟩
      all_goals simp

namespace AddsUnit

variable {u : SourceUnit} {a' : Arena}

/-- The symbols after the declaration of a unit. -/
theorem symbol_cases (adds : AddsUnit u a a') {t : SymbolId} (known : t < a'.symbols.size) :
    t < a.symbols.size ∨ t = a.symbols.size ∨
      ∃ name, u.globalName? = some name ∧ t = a.symbols.size + 1 := by
  have more := adds.symbols
  cases hn : u.globalName? with
  | none =>
    rw [hn] at more
    exact (Nat.lt_succ_iff_lt_or_eq.mp (Nat.lt_of_lt_of_eq known more)).imp_right .inl
  | some name =>
    rw [hn] at more
    rcases Nat.lt_succ_iff_lt_or_eq.mp (Nat.lt_of_lt_of_eq known more) with new | last
    · exact (Nat.lt_succ_iff_lt_or_eq.mp new).imp_right .inl
    · exact .inr (.inr ⟨name, rfl, last⟩)

/-- The scopes after the declaration of a unit. -/
theorem scope_cases (adds : AddsUnit u a a') {σ : ScopeId} (known : σ < a'.scopes.size) :
    σ < a.scopes.size ∨ σ = a.scopes.size ∨ u.kind.isModule = true ∧ σ = a.scopes.size + 1 := by
  have more := adds.scopes
  split at more
  · next isModule =>
    rcases Nat.lt_succ_iff_lt_or_eq.mp (Nat.lt_of_lt_of_eq known more) with new | last
    · exact (Nat.lt_succ_iff_lt_or_eq.mp new).imp_right .inl
    · exact .inr (.inr ⟨isModule, last⟩)
  · exact (Nat.lt_succ_iff_lt_or_eq.mp (Nat.lt_of_lt_of_eq known more)).imp_right .inl

end AddsUnit

/-- Global names are free or taken as they were before the scopes of a unit were created. -/
theorem scope_global_owning {u : SourceUnit} {kind kind' : ScopeKind} {t t' : SymbolId}
    {f g : ScopeId → Symbol → Symbol} (global : Analysis.globalScope < a.scopes.size) :
    (((a.withDeclared Analysis.unitsScope (Build.unitDeclaration u)).owning kind t f).owning kind'
      t' g).scope Analysis.globalScope = a.scope Analysis.globalScope := by
  rw [scope_owning, scope_owning, size_scopes_owning, size_scopes_withDeclared,
    if_neg (Nat.ne_of_lt (Nat.lt_succ_of_lt global)), if_neg (Nat.ne_of_lt global),
    scope_withDeclared_ne _ (by decide)]

end Arena

/-- The names that a unit asks for are free. -/
structure Building.Admits (b : Building) (u : SourceUnit) : Prop where
  path : (b.arena.scope Analysis.unitsScope).get? u.path = none
  global : ∀ name, u.globalName? = some name →
    (b.arena.scope Analysis.globalScope).get? name = none

namespace Build

variable {b b' : Building} {u : SourceUnit}

/-- What a declaration changes beyond the arena. -/
structure DeclaresIn (σ : ScopeId) (d : Declaration) (b b' : Building) : Prop where
  arena : b'.arena = b.arena.withDeclared σ d
  units : b'.analysis.units = b.analysis.units
  created : b'.analysis.createdScopes = b.analysis.createdScopes
  nodeScopes : b'.analysis.nodeScopes = b.analysis.nodeScopes
  definitions :
      b'.analysis.definitions = b.analysis.definitions.insert d.node.id b.arena.symbols.size
  pending : b'.pending = b.pending
  recovery : b'.recovery = b.recovery

theorem declaresIn (σ : ScopeId) (d : Declaration) (b : Building) :
    DeclaresIn σ d b (declaring σ d b) := by
  unfold declaring Building.noted
  split <;> exact ⟨rfl, rfl, rfl, rfl, rfl, rfl, rfl⟩

/-- What the declaration of a unit changes beyond the arena. -/
structure DeclaresUnit (u : SourceUnit) (b b' : Building) : Prop where
  arena : b'.arena = b.arena.withUnit u
  units : b'.analysis.units = b.analysis.units.insert u.path b.arena.symbols.size
  created :
      b'.analysis.createdScopes = b.analysis.createdScopes.insert u.node.id b.arena.scopes.size
  nodeScopes : b'.analysis.nodeScopes = b.analysis.nodeScopes
  definitions : b'.analysis.definitions =
    let definitions := b.analysis.definitions.insert u.node.id b.arena.symbols.size
    match u.globalName? with
    | none => definitions
    | some _ => definitions.insert u.node.id.asGlobalName (b.arena.symbols.size + 1)
  pending : b'.pending = b.pending
  recovery : b'.recovery = b.recovery

/-- The state in which a unit has got its symbol and the scope of its members. -/
def housed (u : SourceUnit) (b : Building) : Building :=
  ((declaring Analysis.unitsScope (unitDeclaration u) b).mapAnalysis fun a =>
    { a with units := a.units.insert u.path b.arena.symbols.size }).mapAnalysis
      (addMembers u.node.id b.arena.symbols.size Analysis.unitsScope)

/-- The state in which a module has got the scope of its exports, too. -/
def shown (u : SourceUnit) (b : Building) : Building :=
  (housed u b).mapAnalysis fun a =>
    { a with
      arena :=
        (a.arena.newScope (.exports b.arena.symbols.size)
          (some Analysis.unitsScope) false).2.setExports
        b.arena.symbols.size a.arena.scopes.size }

theorem bind_ok {α β : Type} {x : Build α} {f : α → Build β} {v : α} (h : x b = .ok (v, b')) :
    (x >>= f) b = f v b' := by
  show (StateT.bind x f) b = _
  simp only [StateT.bind, h]
  rfl

/-- What happens once a unit has got its symbol. -/
theorem declareUnit_free (strict : b.recovery = false)
    (free : (b.arena.scope Analysis.unitsScope).get? u.path = none) :
    declareUnit u b = match u.kind with
      | .interactive _ => .ok (some b.arena.symbols.size, housed u b)
      | .module m => match m.globalName with
        | none => .ok (some b.arena.symbols.size, shown u b)
        | some name => (do
            let _ ← declare Analysis.globalScope (u.globalDeclaration name)
            return some b.arena.symbols.size : Build (Option SymbolId)) (shown u b) := by
  rw [declareUnit, bind_ok ((declare_eq_ok strict).mpr ⟨unitDeclaration_name u ▸ free, rfl, rfl⟩)]
  cases hk : u.kind with
  | interactive sections => rfl
  | module m =>
    cases hn : m.globalName with
    | none => simp only [hn]; rfl
    | some name => simp only [hn]; rfl

/-- Without recovery a unit is not declared if its path is taken. -/
theorem path_free {id? : Option SymbolId} (strict : b.recovery = false)
    (h : declareUnit u b = .ok (id?, b')) :
    (b.arena.scope Analysis.unitsScope).get? u.path = none := by
  simp only [declareUnit, bind_eq_ok] at h
  obtain ⟨_, _, hd, -⟩ := h
  have free := ((declare_eq_ok strict).mp hd).1
  rwa [unitDeclaration_name] at free

/-- The arena of a unit that has got the scope of its members. -/
theorem housed_arena (u : SourceUnit) (b : Building) : (housed u b).arena =
    (b.arena.withDeclared Analysis.unitsScope (unitDeclaration u)).owning
      (.members b.arena.symbols.size) b.arena.symbols.size fun σ s =>
        { s with members := some σ } := by
  have arena := (declaresIn Analysis.unitsScope (unitDeclaration u) b).arena
  rw [← arena]
  rfl

/-- The arena of a module that has got the scope of its exports, too. -/
theorem shown_arena (u : SourceUnit) (b : Building) : (shown u b).arena =
    ((b.arena.withDeclared Analysis.unitsScope (unitDeclaration u)).owning
      (.members b.arena.symbols.size) b.arena.symbols.size fun σ s =>
        { s with members := some σ }).owning
      (.exports b.arena.symbols.size) b.arena.symbols.size fun σ s =>
        { s with exports := some σ } := by
  rw [← housed_arena]
  rfl

/-- What has been entered once a unit has got its scopes. -/
theorem shown_tables (u : SourceUnit) (b : Building) : ∀ c ∈ [housed u b, shown u b],
    c.analysis.units = b.analysis.units.insert u.path b.arena.symbols.size ∧
    c.analysis.createdScopes = b.analysis.createdScopes.insert u.node.id b.arena.scopes.size ∧
    c.analysis.nodeScopes = b.analysis.nodeScopes ∧
    c.analysis.definitions = b.analysis.definitions.insert u.node.id b.arena.symbols.size ∧
    c.pending = b.pending ∧ c.recovery = b.recovery := by
  have first := declaresIn Analysis.unitsScope (unitDeclaration u) b
  have size : (declaring Analysis.unitsScope (unitDeclaration u) b).arena.scopes.size =
      b.arena.scopes.size := by
    rw [first.arena, Arena.size_scopes_withDeclared]
  have housed : (housed u b).analysis.units = b.analysis.units.insert u.path b.arena.symbols.size ∧
      (housed u b).analysis.createdScopes =
        b.analysis.createdScopes.insert u.node.id b.arena.scopes.size ∧
      (housed u b).analysis.nodeScopes = b.analysis.nodeScopes ∧
      (housed u b).analysis.definitions =
        b.analysis.definitions.insert u.node.id b.arena.symbols.size ∧
      (housed u b).pending = b.pending ∧ (housed u b).recovery = b.recovery := by
    refine ⟨?_, ?_, first.nodeScopes, ?_, first.pending, first.recovery⟩
    · show (declaring _ _ b).analysis.units.insert _ _ = _
      rw [first.units]
    · show (declaring _ _ b).analysis.createdScopes.insert _ (declaring _ _ b).arena.scopes.size = _
      rw [first.created, size]
    · show (declaring _ _ b).analysis.definitions = _
      rw [first.definitions, unitDeclaration_node]
  intro c mem
  rcases List.mem_cons.mp mem with rfl | mem
  · exact housed
  · rw [List.mem_singleton.mp mem]
    exact housed

/-- **Without recovery a unit is declared exactly if its names are free.** -/
theorem declareUnit_eq_ok (strict : b.recovery = false)
    (known : Analysis.unitsScope < b.arena.scopes.size) :
    (∀ id? b', declareUnit u b = .ok (id?, b') →
      b.Admits u ∧ id? = some b.arena.symbols.size ∧ DeclaresUnit u b b') ∧
    (b.Admits u → ∃ b', declareUnit u b = .ok (some b.arena.symbols.size, b')) := by
  have global : Analysis.globalScope < b.arena.scopes.size := Nat.zero_lt_of_lt known
  have housedTables := shown_tables u b _ (List.mem_cons_self ..)
  have shownTables :=
    shown_tables u b (shown u b) (List.mem_cons_of_mem _ (List.mem_singleton_self _))
  have same :
      ((shown u b).arena.scope Analysis.globalScope) = b.arena.scope Analysis.globalScope := by
    rw [shown_arena, Arena.scope_global_owning global]
  have size : (shown u b).arena.symbols.size = b.arena.symbols.size + 1 := by
    rw [shown_arena, Arena.size_symbols_owning, Arena.size_symbols_owning,
      Arena.size_symbols_withDeclared]
  have still : (shown u b).recovery = false := shownTables.2.2.2.2.2.trans strict
  constructor
  · intro id? b' h
    have free := path_free strict h
    rw [declareUnit_free strict free] at h
    cases hk : u.kind with
    | interactive sections =>
      have none : u.globalName? = none := by rw [SourceUnit.globalName?, hk]
      rw [hk] at h
      cases h
      obtain ⟨units, created, nodeScopes, definitions, pending, recovery⟩ := housedTables
      refine ⟨⟨free, fun name hn => ?_⟩, rfl, ?_, units, created, nodeScopes, ?_, pending, recovery⟩
      · rw [none] at hn
        cases hn
      · rw [housed_arena, Arena.withUnit, hk]
      · rw [none]
        exact definitions
    | module m =>
      have named : u.globalName? = m.globalName := by rw [SourceUnit.globalName?, hk]
      rw [hk] at h
      obtain ⟨units, created, nodeScopes, definitions, pending, recovery⟩ := shownTables
      cases hn : m.globalName with
      | none =>
        simp only [hn] at h
        cases h
        refine ⟨⟨free, fun name found => ?_⟩, rfl, ?_, units, created, nodeScopes, ?_, pending,
          recovery⟩
        · rw [named, hn] at found
          cases found
        · rw [shown_arena, Arena.withUnit, hk]
          simp only [hn]
        · rw [named, hn]
          exact definitions
      | some name =>
        simp only [hn, bind_eq_ok, pure_eq_ok] at h
        obtain ⟨_, _, hd, rfl, rfl⟩ := h
        obtain ⟨freeName, -, rfl⟩ := (declare_eq_ok still).mp hd
        rw [same] at freeName
        have last := declaresIn Analysis.globalScope (u.globalDeclaration name) (shown u b)
        refine ⟨⟨free, fun other found => ?_⟩, rfl, ?_, last.units.trans units,
          last.created.trans created, last.nodeScopes.trans nodeScopes, ?_,
          last.pending.trans pending, last.recovery.trans recovery⟩
        · rw [named, hn] at found
          cases found
          exact freeName
        · rw [last.arena, shown_arena, Arena.withUnit, hk]
          simp only [hn]
        · rw [last.definitions, definitions, size, named, hn]
          rfl
  · intro admits
    rw [declareUnit_free strict admits.path]
    cases hk : u.kind with
    | interactive sections => exact ⟨_, rfl⟩
    | module m =>
      cases hn : m.globalName with
      | none => exact ⟨shown u b, by simp only [hn]⟩
      | some name =>
        have free := admits.global name (by rw [SourceUnit.globalName?, hk]; exact hn)
        rw [← same] at free
        simp only [hn]
        rw [bind_ok ((declare_eq_ok still).mpr ⟨free, rfl, rfl⟩)]
        exact ⟨_, rfl⟩

/-! ## All units -/

/-- A unit has been declared, and nothing in it has been visited: its symbol, the scope of its
members, and what it shows to other units. -/
structure Lodges (b : Building) (u : SourceUnit) (t : SymbolId) (m : ScopeId) : Prop where
  path : (b.arena.scope Analysis.unitsScope).get? u.path = some t
  known : t < b.arena.symbols.size
  declared : (b.arena.symbol t).toDeclaration = unitDeclaration u
  home : (b.arena.symbol t).scope = Analysis.unitsScope
  unresolved : (b.arena.symbol t).resolved = none
  members : (b.arena.symbol t).members = some m
  created : m < b.arena.scopes.size
  later : Analysis.unitsScope < m
  inside : b.arena.scope m = ⟨.members t, some Analysis.unitsScope, false, [], []⟩
  exports : u.kind.isModule = true → ∃ e, (b.arena.symbol t).exports = some e ∧
    e < b.arena.scopes.size ∧ Analysis.unitsScope < e ∧
    b.arena.scope e = ⟨.exports t, some Analysis.unitsScope, false, [], []⟩
  closed : u.kind.isModule = false → (b.arena.symbol t).exports = none
  definition : b.analysis.definitions.get? u.node.id = some t
  node : b.analysis.createdScopes.get? u.node.id = some m
  global : ∀ name, u.globalName? = some name → ∃ g slot,
    (b.arena.scope Analysis.globalScope).get? name = some g ∧ g < b.arena.symbols.size ∧
    b.arena.symbol g =
      ⟨u.globalDeclaration name, g, Analysis.globalScope, slot, none, none, none⟩ ∧
    b.analysis.definitions.get? u.node.id.asGlobalName = some g

/-- The units have been declared, and nothing else has happened. -/
structure Opening (b : Building) (units : UnitSet) : Prop where
  strict : b.recovery = false
  known : Analysis.unitsScope < b.arena.scopes.size
  unit : ∀ u ∈ units, ∃ t m, Lodges b u t m
  paths : ∀ path t, (b.arena.scope Analysis.unitsScope).get? path = some t →
    ∃ u ∈ units, u.path = path
  names : ∀ name g, (b.arena.scope Analysis.globalScope).get? name = some g →
    ∃ u ∈ units, u.globalName? = some name
  symbols : ∀ t, t < b.arena.symbols.size → ∃ u ∈ units,
    (b.arena.scope Analysis.unitsScope).get? u.path = some t ∨
      ∃ name, u.globalName? = some name ∧ (b.arena.scope Analysis.globalScope).get? name = some t
  scopes : ∀ σ, σ < b.arena.scopes.size → σ = Analysis.globalScope ∨ σ = Analysis.unitsScope ∨
    ∃ u ∈ units, ∃ t, (b.arena.scope Analysis.unitsScope).get? u.path = some t ∧
      ((b.arena.symbol t).members = some σ ∨ (b.arena.symbol t).exports = some σ)
  entered : ∀ path, Entries.get? b.analysis.units path =
    (b.arena.scope Analysis.unitsScope).get? path
  definitions : ∀ n t, b.analysis.definitions.get? n = some t → ∃ u ∈ units, n = u.node.id ∨
    n = u.node.id.asGlobalName ∧ u.globalName?.isSome = true
  created : ∀ n σ, b.analysis.createdScopes.get? n = some σ → ∃ u ∈ units, n = u.node.id
  nodeScopes : b.analysis.nodeScopes = []
  pending : b.pending = []

theorem opening_start : Opening (.start false) [] where
  strict := rfl
  known := by decide
  unit u mem := by cases mem
  paths path t found := by cases found
  names name g found := by cases found
  symbols t known := absurd known (Nat.not_lt_zero t)
  scopes σ known := by
    match σ with
    | 0 => exact .inl rfl
    | 1 => exact .inr (.inl rfl)
    | n + 2 =>
      have two : n + 2 < 2 := known
      omega
  entered path := rfl
  definitions n t found := by cases found
  created n σ found := by cases found
  nodeScopes := rfl
  pending := rfl

/-! ### One more unit -/

/-- The node of a global name is not one of the tree. -/
theorem asGlobalName_ne {n m : NodeId} (tree : ∃ index, n = .tree index) : m.asGlobalName ≠ n := by
  obtain ⟨i, rfl⟩ := tree
  exact fun h => by cases h

section Declaring

variable {v : SourceUnit} {t : SymbolId}

/-- A path that is found goes on being found when another unit is declared. -/
theorem path_kept (adds : Arena.AddsUnit v b.arena b'.arena) (admits : b.Admits v) {path : String}
    (found : (b.arena.scope Analysis.unitsScope).get? path = some t) :
    (b'.arena.scope Analysis.unitsScope).get? path = some t := by
  rw [adds.path, if_neg]
  · exact found
  · intro same
    have free := admits.path
    rw [same, found] at free
    cases free

/-- So does a global name. -/
theorem name_kept (adds : Arena.AddsUnit v b.arena b'.arena) (admits : b.Admits v) {name : String}
    (found : (b.arena.scope Analysis.globalScope).get? name = some t) :
    (b'.arena.scope Analysis.globalScope).get? name = some t := by
  rw [adds.name, if_neg]
  · exact found
  · intro same
    have free := admits.global name same
    rw [found] at free
    cases free

/-- Symbols are entered under the nodes of the unit only. -/
theorem DeclaresUnit.definition_kept (h : DeclaresUnit v b b') {n : NodeId} (node : v.node.id ≠ n)
    (name : v.node.id.asGlobalName ≠ n) :
    b'.analysis.definitions.get? n = b.analysis.definitions.get? n := by
  rw [h.definitions]
  split
  · rw [Table.get?_insert, if_neg node]
  · rw [Table.get?_insert, if_neg name, Table.get?_insert, if_neg node]

theorem DeclaresUnit.definition_cases (h : DeclaresUnit v b b') {n : NodeId}
    (found : b'.analysis.definitions.get? n = some t) : b.analysis.definitions.get? n = some t ∨
      n = v.node.id ∨ n = v.node.id.asGlobalName ∧ v.globalName?.isSome = true := by
  by_cases node : v.node.id = n
  · exact .inr (.inl node.symm)
  · by_cases name : v.node.id.asGlobalName = n ∧ v.globalName?.isSome = true
    · exact .inr (.inr ⟨name.1.symm, name.2⟩)
    · refine .inl ?_
      rw [h.definitions] at found
      split at found
      · rwa [Table.get?_insert, if_neg node] at found
      · next hn =>
        rwa [Table.get?_insert, if_neg fun same => name ⟨same, by rw [hn]; rfl⟩, Table.get?_insert,
          if_neg node] at found

end Declaring

/-- Units that were declared under other nodes and names stay as they are. -/
theorem Lodges.stays {v : SourceUnit} {t : SymbolId} {m : ScopeId} (h : Lodges b u t m)
    (declares : DeclaresUnit v b b') (adds : Arena.AddsUnit v b.arena b'.arena)
    (admits : b.Admits v) (node : v.node.id ≠ u.node.id) (tree : ∃ index, u.node.id = .tree index)
    (tree' : ∃ index, v.node.id = .tree index) : Lodges b' u t m := by
  have symbol := adds.oldSymbol t h.known
  have notGlobal : ∀ {σ : ScopeId}, Analysis.unitsScope < σ →
      σ ≠ Analysis.unitsScope ∧ σ ≠ Analysis.globalScope := fun later =>
    ⟨Nat.ne_of_gt later, Nat.ne_of_gt (Nat.zero_lt_of_lt later)⟩
  have moreScopes : b.arena.scopes.size ≤ b'.arena.scopes.size := by
    rw [adds.scopes]
    omega
  have moreSymbols : b.arena.symbols.size ≤ b'.arena.symbols.size := by
    rw [adds.symbols]
    omega
  have otherName : v.node.id.asGlobalName ≠ u.node.id.asGlobalName := by
    obtain ⟨i, hi⟩ := tree
    obtain ⟨j, hj⟩ := tree'
    rw [hi, hj] at node ⊢
    intro same
    injection same with same
    exact node (congrArg _ same)
  refine ⟨path_kept adds admits h.path, Nat.lt_of_lt_of_le h.known moreSymbols, symbol ▸ h.declared,
    symbol ▸ h.home, symbol ▸ h.unresolved, symbol ▸ h.members,
    Nat.lt_of_lt_of_le h.created moreScopes, h.later, ?_, fun isModule => ?_, fun notModule =>
      symbol ▸ h.closed notModule, ?_, ?_,
    fun name hn => ?_⟩
  · rw [adds.oldScope m h.created (notGlobal h.later).1 (notGlobal h.later).2]
    exact h.inside
  · obtain ⟨e, he, known, later, inside⟩ := h.exports isModule
    refine ⟨e, symbol ▸ he, Nat.lt_of_lt_of_le known moreScopes, later, ?_⟩
    rw [adds.oldScope e known (notGlobal later).1 (notGlobal later).2]
    exact inside
  · rw [declares.definition_kept node (asGlobalName_ne tree)]
    exact h.definition
  · rw [declares.created, Table.get?_insert, if_neg node]
    exact h.node
  · obtain ⟨g, slot, found, known, declared, definition⟩ := h.global name hn
    refine ⟨g, slot, name_kept adds admits found, Nat.lt_of_lt_of_le known moreSymbols,
      (adds.oldSymbol g known).trans declared, ?_⟩
    rw [declares.definition_kept (asGlobalName_ne tree').symm otherName]
    exact definition

/-- The unit that was just declared. -/
theorem lodges_declared (known : Analysis.unitsScope < b.arena.scopes.size)
    (declares : DeclaresUnit u b b') (adds : Arena.AddsUnit u b.arena b'.arena)
    (tree : ∃ index, u.node.id = .tree index) :
    Lodges b' u b.arena.symbols.size b.arena.scopes.size where
  path := by rw [adds.path, if_pos rfl]
  known := by
    rw [adds.symbols]
    exact Nat.lt_of_lt_of_le (Nat.lt_succ_self _) (Nat.le_add_right ..)
  declared := adds.declared
  home := adds.home
  unresolved := adds.unresolved
  members := adds.members
  created := by
    rw [adds.scopes]
    exact Nat.lt_of_lt_of_le (Nat.lt_succ_self _) (Nat.le_add_right ..)
  later := known
  inside := adds.inside
  exports isModule := by
    refine ⟨b.arena.scopes.size + 1, ?_, ?_, Nat.lt_succ_of_lt known, adds.shown isModule⟩
    · rw [adds.exports, if_pos isModule]
    · rw [adds.scopes, if_pos isModule]
      exact Nat.lt_succ_self _
  closed notModule := by
    rw [adds.exports, if_neg]
    rw [notModule]
    exact Bool.false_ne_true
  definition := by
    rw [declares.definitions]
    split
    · rw [Table.get?_insert, if_pos rfl]
    · rw [Table.get?_insert, if_neg (asGlobalName_ne tree), Table.get?_insert, if_pos rfl]
  node := by rw [declares.created, Table.get?_insert, if_pos rfl]
  global name hn := by
    obtain ⟨slot, declared⟩ := adds.global name hn
    refine ⟨b.arena.symbols.size + 1, slot, ?_, ?_, declared, ?_⟩
    · rw [adds.name, if_pos hn]
    · rw [adds.symbols, hn]
      exact Nat.lt_succ_self _
    · rw [declares.definitions, hn]
      show Table.get? (Table.insert _ _ _) _ = _
      rw [Table.get?_insert, if_pos rfl]

/-- One more unit. -/
theorem Opening.declare {units : UnitSet} {id? : Option SymbolId} (h : Opening b units)
    (node : ∀ v ∈ units, u.node.id ≠ v.node.id)
    (tree : ∀ v ∈ units, ∃ index, v.node.id = .tree index)
    (tree' : ∃ index, u.node.id = .tree index) (run : declareUnit u b = .ok (id?, b')) :
    Opening b' (units ++ [u]) ∧
      id? = some b.arena.symbols.size ∧ Lodges b' u b.arena.symbols.size b.arena.scopes.size ∧
      ∀ v ∈ units, ∀ t m, Lodges b v t m → Lodges b' v t m := by
  obtain ⟨admits, rfl, declares⟩ := (declareUnit_eq_ok h.strict h.known).1 _ _ run
  have adds : Arena.AddsUnit u b.arena b'.arena := declares.arena ▸ Arena.withUnit_adds u h.known
  have last : u ∈ units ++ [u] := List.mem_append_right _ (List.mem_singleton_self u)
  have first : ∀ {v}, v ∈ units → v ∈ units ++ [u] := fun mem => List.mem_append_left _ mem
  have lodges := lodges_declared h.known declares adds tree'
  have stays : ∀ v ∈ units, ∀ t m, Lodges b v t m → Lodges b' v t m := fun v mem t m lodged =>
    lodged.stays declares adds admits (node v mem) (tree v mem) tree'
  refine ⟨⟨declares.recovery.trans h.strict, ?_, fun v mem => ?_, fun path t found => ?_,
    fun name g found => ?_, fun t known => ?_, fun σ known => ?_, fun path =>
      ?_, fun n t found => ?_,
    fun n σ found => ?_, declares.nodeScopes.trans h.nodeScopes, declares.pending.trans h.pending⟩,
    rfl, lodges, stays⟩
  · rw [adds.scopes]
    exact Nat.lt_of_lt_of_le h.known (by omega)
  · rcases List.mem_append.mp mem with mem | mem
    · obtain ⟨t, m, lodged⟩ := h.unit v mem
      exact ⟨t, m, stays v mem t m lodged⟩
    · rw [List.mem_singleton.mp mem]
      exact ⟨_, _, lodges⟩
  · rw [adds.path] at found
    split at found
    · next same => exact ⟨u, last, same⟩
    · obtain ⟨v, mem, same⟩ := h.paths path t found
      exact ⟨v, first mem, same⟩
  · rw [adds.name] at found
    split at found
    · next same => exact ⟨u, last, same⟩
    · obtain ⟨v, mem, same⟩ := h.names name g found
      exact ⟨v, first mem, same⟩
  · rcases adds.symbol_cases known with old | rfl | ⟨name, hn, rfl⟩
    · obtain ⟨v, mem, found⟩ := h.symbols t old
      exact ⟨v, first mem, found.imp (path_kept adds admits) fun has => has.imp fun name has =>
        ⟨has.1, name_kept adds admits has.2⟩⟩
    · exact ⟨u, last, .inl lodges.path⟩
    · refine ⟨u, last, .inr ⟨name, hn, ?_⟩⟩
      rw [adds.name, if_pos hn]
  · rcases adds.scope_cases known with old | rfl | ⟨isModule, rfl⟩
    · refine (h.scopes σ old).imp_right fun found => found.imp_right ?_
      rintro ⟨v, mem, t, found, owns⟩
      obtain ⟨t', m, lodged⟩ := h.unit v mem
      rw [lodged.path] at found
      cases found
      refine ⟨v, first mem, t, (stays v mem t m lodged).path, ?_⟩
      rw [adds.oldSymbol t lodged.known]
      exact owns
    · exact .inr (.inr ⟨u, last, _, lodges.path, .inl adds.members⟩)
    · refine .inr (.inr ⟨u, last, _, lodges.path, .inr ?_⟩)
      rw [adds.exports, if_pos isModule]
  · rw [declares.units, Entries.get?_insert, adds.path, h.entered]
  · rcases declares.definition_cases found with old | same | same
    · exact (h.definitions n t old).imp fun v has => ⟨first has.1, has.2⟩
    · exact ⟨u, last, .inl same⟩
    · exact ⟨u, last, .inr same⟩
  · rw [declares.created, Table.get?_insert] at found
    split at found
    · next same => exact ⟨u, last, same.symm⟩
    · exact (h.created n σ found).imp fun v has => ⟨first has.1, has.2⟩

/-- A unit is declared exactly if its names are not those of units before it. -/
theorem Opening.admits_iff {units : UnitSet} (h : Opening b units) :
    b.Admits u ↔ u.path ∉ List.map SourceUnit.path units ∧
      ∀ name, u.globalName? = some name → name ∉ List.filterMap SourceUnit.globalName? units := by
  constructor
  · refine fun admits => ⟨fun mem => ?_, fun name hn mem => ?_⟩
    · obtain ⟨v, mem, same⟩ := List.mem_map.mp mem
      obtain ⟨t, m, lodged⟩ := h.unit v mem
      have free := admits.path
      rw [← same, lodged.path] at free
      cases free
    · obtain ⟨v, mem, same⟩ := List.mem_filterMap.mp mem
      obtain ⟨t, m, lodged⟩ := h.unit v mem
      obtain ⟨g, -, found, -⟩ := lodged.global name same
      have free := admits.global name hn
      rw [found] at free
      cases free
  · rintro ⟨path, global⟩
    refine ⟨Option.eq_none_iff_forall_ne_some.mpr fun t found => path ?_, fun name hn =>
      Option.eq_none_iff_forall_ne_some.mpr fun g found => global name hn ?_⟩
    · obtain ⟨v, mem, same⟩ := h.paths _ t found
      exact List.mem_map.mpr ⟨v, mem, same⟩
    · obtain ⟨v, mem, same⟩ := h.names name g found
      exact List.mem_filterMap.mpr ⟨v, mem, same⟩

/-- One more unit can be declared exactly if its names are free. -/
theorem declarable_append_singleton {units : UnitSet} :
    UnitSet.Declarable (units ++ [u]) ↔ units.Declarable ∧
      u.path ∉ List.map SourceUnit.path units ∧
      ∀ name, u.globalName? = some name → name ∉ List.filterMap SourceUnit.globalName? units := by
  have globals : (List.filterMap SourceUnit.globalName? (units ++ [u])).Nodup ↔
      (List.filterMap SourceUnit.globalName? units).Nodup ∧
      ∀ name, u.globalName? = some name → name ∉ List.filterMap SourceUnit.globalName? units := by
    rw [List.filterMap_append, List.nodup_append', List.filterMap_cons]
    cases hn : u.globalName? with
    | none => simp
    | some name => simp [List.disjoint_singleton]
  have paths : (List.map SourceUnit.path (units ++ [u])).Nodup ↔
      (List.map SourceUnit.path units).Nodup ∧ u.path ∉ List.map SourceUnit.path units := by
    rw [List.map_append, List.nodup_append', List.map_singleton, List.disjoint_singleton]
    simp
  constructor
  · exact fun h => ⟨⟨(paths.mp h.paths).1, (globals.mp h.globals).1⟩, (paths.mp h.paths).2,
      (globals.mp h.globals).2⟩
  · exact fun h => ⟨paths.mpr ⟨h.1.paths, h.2.1⟩, globals.mpr ⟨h.1.globals, h.2.2⟩⟩

/-- The units have nodes that stand in syntax trees, each a different one. -/
structure Rooted (units : UnitSet) : Prop where
  nodup : (List.map (·.node.id) units).Nodup
  tree : ∀ u ∈ units, ∃ index, u.node.id = .tree index

/-- One more unit of a program. -/
theorem Opening.next {units : UnitSet} {rest : List SourceUnit} {id? : Option SymbolId}
    (h : Opening b units) (rooted : Rooted (units ++ u :: rest))
    (run : declareUnit u b = .ok (id?, b')) : Opening b' (units ++ [u]) ∧
      id? = some b.arena.symbols.size ∧ Lodges b' u b.arena.symbols.size b.arena.scopes.size ∧
      ∀ v ∈ units, ∀ t m, Lodges b v t m → Lodges b' v t m := by
  refine h.declare (fun v mem same => ?_) (fun v mem => rooted.tree v (List.mem_append_left _ mem))
    (rooted.tree u (List.mem_append_right _ (List.mem_cons_self ..))) run
  have nodup := rooted.nodup
  rw [List.map_append, List.map_cons, List.nodup_append'] at nodup
  exact nodup.2.2 (List.mem_map.mpr ⟨v, mem, rfl⟩) (same ▸ List.mem_cons_self ..)

/-- **Declaring units opens the pass over them**, and needs names that are free. -/
theorem declareUnits_opening {rest : List SourceUnit} {units : UnitSet}
    {pairs : List (SourceUnit × SymbolId)} (h : Opening b units) (rooted : Rooted (units ++ rest))
    (declarable : units.Declarable) (run : declareUnits rest b = .ok (pairs, b')) :
    Opening b' (units ++ rest) ∧ pairs.map (·.1) = rest ∧ UnitSet.Declarable (units ++ rest) ∧
      (∀ pair ∈ pairs, ∃ m, Lodges b' pair.1 pair.2 m) ∧
      ∀ v ∈ units, ∀ t m, Lodges b v t m → Lodges b' v t m := by
  induction rest generalizing b units pairs with
  | nil =>
    rw [declareUnits, pure_eq_ok] at run
    obtain ⟨rfl, rfl⟩ := run
    rw [List.append_nil]
    exact ⟨h, rfl, declarable, fun pair mem => (by cases mem), fun v mem t m lodged => lodged⟩
  | cons u rest ih =>
    simp only [declareUnits, bind_eq_ok] at run
    obtain ⟨id?, b₁, h₁, run⟩ := run
    have admits := ((declareUnit_eq_ok h.strict h.known).1 _ _ h₁).1
    obtain ⟨opening, rfl, lodges, stays⟩ := h.next rooted h₁
    simp only [bind_eq_ok, pure_eq_ok] at run
    obtain ⟨more, b₂, h₂, rfl, rfl⟩ := run
    rw [List.append_cons] at rooted ⊢
    obtain ⟨last, firsts, whole, others, stays'⟩ := ih opening rooted
      (declarable_append_singleton.mpr ⟨declarable, h.admits_iff.mp admits⟩) h₂
    refine ⟨last, congrArg (u :: ·) firsts, whole, fun pair mem => ?_, fun v mem t m lodged => ?_⟩
    · rcases List.mem_cons.mp mem with rfl | mem
      · exact ⟨_, stays' u (List.mem_append_right _ (List.mem_singleton_self u)) _ _ lodges⟩
      · exact others pair mem
    · exact stays' v (List.mem_append_left _ mem) t m (stays v mem t m lodged)

/-- Units that can be declared together with others can be declared without them. -/
theorem declarable_left {units rest : UnitSet} (h : UnitSet.Declarable (units ++ rest)) :
    units.Declarable := by
  have paths := h.paths
  have globals := h.globals
  rw [List.map_append] at paths
  rw [List.filterMap_append] at globals
  exact ⟨paths.of_append_left, globals.of_append_left⟩

/-- **Units whose names are told apart can be declared.** -/
theorem declareUnits_ok {rest : List SourceUnit} {units : UnitSet} (h : Opening b units)
    (rooted : Rooted (units ++ rest)) (declarable : UnitSet.Declarable (units ++ rest)) :
    ∃ pairs b', declareUnits rest b = .ok (pairs, b') := by
  induction rest generalizing b units with
  | nil => exact ⟨[], b, rfl⟩
  | cons u rest ih =>
    have rooted₁ := rooted
    rw [List.append_cons] at rooted declarable
    have free := (declarable_append_singleton.mp (declarable_left declarable)).2
    obtain ⟨b₁, h₁⟩ := (declareUnit_eq_ok h.strict h.known).2 (h.admits_iff.mpr free)
    obtain ⟨more, b', h₂⟩ := ih (h.next rooted₁ h₁).1 rooted declarable
    refine ⟨(u, b.arena.symbols.size) :: more, b', ?_⟩
    rw [declareUnits, bind_ok h₁]
    exact bind_ok h₂

end Build

/-- The nodes of numbered units stand in syntax trees, each a different one. -/
theorem UnitSet.Numbered.rooted {units : UnitSet} (h : units.Numbered) : Build.Rooted units where
  nodup := by
    have each : (List.flatMap (fun u : SourceUnit => [u.node.id]) units).Sublist units.nodeIds :=
      List.Sublist.flatMap_right units fun u _ => (List.nil_sublist _).cons_cons _
    rw [List.map_eq_flatMap]
    exact each.nodup h.nodup
  tree u mem := h.tree _ (List.mem_flatMap.mpr ⟨u, mem, List.mem_cons_self ..⟩)

end CellScript
