import CellScript.Scope.Analysis
import CellScript.Scope.Arena.Lemmas

/-!
# Well-formed arenas

What holds of every arena that is grown by declaring symbols and creating scopes: symbols and slots
agree, scopes lie inside older ones, owners and their scopes know each other, and every kind of
scope holds only the symbols it is made for.

* `Arena.Formed` — the invariant
* `Arena.Formed.withDeclared`, `Arena.Formed.newScope`, … — each way of growing keeps it
-/

namespace CellScript

/-- The symbol shows to other units what it stands for. -/
def Binding.isExport : Binding → Bool
  | .export _ _ => true
  | _ => false

theorem Binding.isIndirect_of_isExport {binding : Binding} (h : binding.isExport = true) :
    binding.isIndirect = true := by
  cases binding with
  | «export» => rfl
  | _ => cases h

namespace ScopeKind

/-- Expressions are evaluated in scopes of this kind. -/
def hosts : ScopeKind → Bool
  | members _ | function _ | block _ => true
  | _ => false

/-- Scopes of this kind hold symbols that are declared so. -/
def admits : ScopeKind → Declaration → Prop
  | global, d => d.binding.isIndirect = true
  | exports _, d => d.binding.isExport = true
  | units, d => d.binding = .direct ∧ d.target ≠ .var
  | members _, d => d.target ≠ .module
  | function _, d | block _, d => d.binding = .direct ∧ d.target = .var

/-- What stands for itself is declared neither among global names nor among exports. -/
theorem not_admits_direct {kind : ScopeKind} {d : Declaration} (direct : d.binding = .direct)
    (outside : kind = .global ∨ ∃ s, kind = .exports s) : ¬ kind.admits d := by
  rcases outside with rfl | ⟨s, rfl⟩
  · rw [admits, direct]
    exact fun h => by cases h
  · rw [admits, direct]
    exact fun h => by cases h

theorem hosts_of_isDynamic {kind : ScopeKind} (h : kind.isDynamic = true) : kind.hosts = true := by
  cases kind <;> simp_all [isDynamic, hosts]

end ScopeKind

/-- The scope in which the path of an alias or export starts. -/
def Binding.root? : Binding → Option ScopeId
  | .alias _ scope | .export _ scope => some scope
  | _ => none

namespace Arena

/-- The symbol is a variable itself, and stands for no other. -/
structure IsVariable (a : Arena) (t : SymbolId) : Prop where
  direct : (a.symbol t).binding = .direct
  target : (a.symbol t).target = .var

/-- A symbol can be declared so in the scope. -/
structure Admits (a : Arena) (scope : ScopeId) (d : Declaration) : Prop where
  kind : (a.scope scope).kind.admits d
  root : ∀ σ, d.binding.root? = some σ → ∃ s, (a.scope σ).kind = .members s ∧
    (a.symbol s).target = .module ∧ (scope = σ ∨ (a.scope scope).kind = .exports s)
  importing : d.binding.isIndirect = true → ∀ s, (a.scope scope).kind = .members s →
    (a.symbol s).target = .module

/-- What stands for itself can be declared wherever the kind of the scope allows. -/
theorem Admits.of_direct {a : Arena} {scope : ScopeId} {d : Declaration}
    (kind : (a.scope scope).kind.admits d) (direct : d.binding = .direct) : a.Admits scope d := by
  refine ⟨kind, fun σ h => ?_, fun h => ?_⟩
  · rw [direct] at h
    cases h
  · rw [direct] at h
    cases h

/-- The members of an owner lie inside the scope in which it is declared, unless it is declared in
an interactive unit, whose sections lie elsewhere. -/
def Surrounds (a : Arena) (owner : SymbolId) (outer : Option ScopeId) : Prop :=
  outer = some (a.symbol owner).scope ∨
    ∃ s, (a.scope (a.symbol owner).scope).kind = .members s ∧ (a.symbol s).target = .interactive

/-! ## Reading a changed arena -/

/-- A change of a symbol is seen under its own number, if there is such a symbol. -/
theorem symbol_modifySymbol (a : Arena) (owner id : SymbolId) (f : Symbol → Symbol) :
    (a.modifySymbol owner f).symbol id =
      if id = owner ∧ owner < a.symbols.size then f (a.symbol id) else a.symbol id := by
  by_cases he : id = owner
  · subst he
    by_cases hlt : id < a.symbols.size
    · rw [symbol_modifySymbol_self hlt, if_pos ⟨rfl, hlt⟩]
    · rw [if_neg (fun hc => hlt hc.2)]
      simp [modifySymbol, symbol, Array.getD_eq_getD_getElem?, hlt]
  · rw [symbol_modifySymbol_ne a he, if_neg (fun hc => he hc.1)]

/-- A change of a scope is seen under its own number, if there is such a scope. -/
theorem scope_modifyScope (a : Arena) (id other : ScopeId) (f : Scope → Scope) :
    (a.modifyScope id f).scope other =
      if other = id ∧ id < a.scopes.size then f (a.scope other) else a.scope other := by
  by_cases he : other = id
  · subst he
    by_cases hlt : other < a.scopes.size
    · rw [scope_modifyScope_self hlt, if_pos ⟨rfl, hlt⟩]
    · rw [if_neg (fun hc => hlt hc.2)]
      simp [modifyScope, scope, Array.getD_eq_getD_getElem?, hlt]
  · rw [scope_modifyScope_ne a he, if_neg (fun hc => he hc.1)]

theorem scope_withDeclared {a : Arena} {into : ScopeId} (known : into < a.scopes.size)
    (d : Declaration) (id : ScopeId) :
    (a.withDeclared into d).scope id =
      if id = into then
        { a.scope id with
          names := (a.scope id).names.insert d.name a.symbols.size
          slots := (a.scope id).slots ++ [a.symbols.size] }
      else a.scope id := by
  by_cases he : id = into
  · subst he
    rw [withDeclared, if_pos rfl]
    exact scope_modifyScope_self known _
  · rw [scope_withDeclared_ne a he, if_neg he]

theorem size_symbols_withDeclared (a : Arena) (into : ScopeId) (d : Declaration) :
    (a.withDeclared into d).symbols.size = a.symbols.size + 1 := by
  simp [withDeclared, modifyScope]

theorem size_scopes_withDeclared (a : Arena) (into : ScopeId) (d : Declaration) :
    (a.withDeclared into d).scopes.size = a.scopes.size := by
  simp [withDeclared, modifyScope]

/-! ## The invariant -/

/-- Scopes lie inside one another. -/
structure Nested (a : Arena) : Prop where
  /-- Every scope lies inside an older one. -/
  older : ∀ σ outer, (a.scope σ).enclosing = some outer → outer < σ
  /-- What is laid out for each evaluation lies inside something that is evaluated. -/
  dynamic : ∀ σ outer, (a.scope σ).enclosing = some outer → (a.scope σ).kind.isDynamic = true →
    (a.scope outer).kind.hosts = true
  /-- What is laid out once lies inside something that is laid out once. -/
  static : ∀ σ outer, (a.scope σ).enclosing = some outer → (a.scope σ).kind.isDynamic = false →
    (a.scope outer).kind.isDynamic = false ∧ ∀ s, (a.scope outer).kind ≠ .exports s
  units : ∀ σ, (a.scope σ).kind = .units ↔ σ = Analysis.unitsScope
  global : (a.scope Analysis.globalScope).kind = .global

/-- Symbols, slots and names agree. -/
structure Laid (a : Arena) : Prop where
  slot : ∀ σ i t, (a.scope σ).slots[i]? = some t →
    t < a.symbols.size ∧ (a.symbol t).scope = σ ∧ (a.symbol t).slot = i
  placed : ∀ t, t < a.symbols.size →
    (a.scope (a.symbol t).scope).slots[(a.symbol t).slot]? = some t
  /-- A name denotes a symbol of its own scope, or a library that its module shows to other
  units. -/
  name : ∀ σ name t, (a.scope σ).get? name = some t → t < a.symbols.size ∧
    ((a.symbol t).scope = σ ∨
      (a.symbol t).binding = .direct ∧
        ∃ s, (a.scope σ).kind = .exports s ∧ (a.scope (a.symbol t).scope).kind = .members s)
  /-- A symbol is found by its name, where it is declared. -/
  named : ∀ t, t < a.symbols.size → (a.scope (a.symbol t).scope).get? (a.symbol t).name = some t

/-- Every kind of scope holds only what may be declared there, and nothing is resolved yet. -/
structure Allowed (a : Arena) : Prop where
  resolved : ∀ s, (a.symbol s).resolved = none
  admitted : ∀ t, t < a.symbols.size →
    (a.scope (a.symbol t).scope).kind.admits (a.symbol t).toDeclaration
  /-- Paths of aliases and exports start among the members of their own module. -/
  rooted : ∀ t σ, (a.symbol t).binding.root? = some σ → ∃ s, (a.scope σ).kind = .members s ∧
    (a.symbol s).target = .module ∧
      ((a.symbol t).scope = σ ∨ (a.scope (a.symbol t).scope).kind = .exports s)
  /-- Among members, only those of modules stand for other symbols. -/
  importing : ∀ t, t < a.symbols.size → (a.symbol t).binding.isIndirect = true →
    ∀ s, (a.scope (a.symbol t).scope).kind = .members s → (a.symbol s).target = .module

/-- Owners and their scopes know each other. -/
structure Owned (a : Arena) : Prop where
  members : ∀ s σ, (a.symbol s).members = some σ →
    (a.scope σ).kind = .members s ∧ (a.symbol s).target.isScoped = true
  /-- The scope of an owner is older than that of its members. -/
  deeper : ∀ s σ, (a.symbol s).members = some σ → (a.symbol s).scope < σ
  owner : ∀ σ s, (a.scope σ).kind = .members s →
    s < a.symbols.size ∧ (a.symbol s).binding = .direct ∧ (a.symbol s).members = some σ
  around : ∀ σ s, (a.scope σ).kind = .members s → a.Surrounds s (a.scope σ).enclosing
  exports : ∀ s σ, (a.symbol s).exports = some σ → (a.scope σ).kind = .exports s
  /-- An owner is older than its members. -/
  elder : ∀ σ s, (a.scope σ).kind = .members s → ∀ t ∈ (a.scope σ).slots, s < t

/-- An arena as the first pass grows it. -/
structure Formed (a : Arena) : Prop extends a.Nested, a.Laid, a.Allowed, a.Owned

/-- At first there are the scopes of global names and of units, and no symbol. -/
theorem scope_initial (σ : ScopeId) :
    Analysis.initial.arena.scope σ = ⟨.global, none, false, [], []⟩ ∧ σ ≠ 1 ∨
      σ = 1 ∧ Analysis.initial.arena.scope σ = ⟨.units, some 0, false, [], []⟩ := by
  match σ with
  | 0 => exact .inl ⟨rfl, by decide⟩
  | 1 => exact .inr ⟨rfl, rfl⟩
  | σ + 2 => exact .inl ⟨rfl, fun h => by cases h⟩

theorem symbol_initial (s : SymbolId) : Analysis.initial.arena.symbol s = default := rfl

theorem nested_initial : Analysis.initial.arena.Nested where
  older σ outer h := by
    rcases scope_initial σ with ⟨hs, -⟩ | ⟨rfl, hs⟩ <;> rw [hs] at h <;> cases h
    exact Nat.zero_lt_one
  dynamic σ outer h hd := by
    rcases scope_initial σ with ⟨hs, -⟩ | ⟨rfl, hs⟩ <;> rw [hs] at hd <;> cases hd
  static σ outer h hd := by
    rcases scope_initial σ with ⟨hs, -⟩ | ⟨rfl, hs⟩ <;> rw [hs] at h <;> cases h
    exact ⟨rfl, by rintro s ⟨⟩⟩
  units σ := by
    rcases scope_initial σ with ⟨hs, other⟩ | ⟨rfl, hs⟩ <;> rw [hs]
    · exact ⟨nofun, fun h => absurd h other⟩
    · exact ⟨fun _ => rfl, fun _ => rfl⟩
  global := rfl

theorem laid_initial : Analysis.initial.arena.Laid where
  slot σ i t h := by
    rcases scope_initial σ with ⟨hs, -⟩ | ⟨rfl, hs⟩ <;> rw [hs] at h <;> simp at h
  placed t h := absurd h (Nat.not_lt_zero t)
  name σ name t h := by
    rcases scope_initial σ with ⟨hs, -⟩ | ⟨rfl, hs⟩ <;> rw [hs] at h <;> cases h
  named t h := absurd h (Nat.not_lt_zero t)

theorem allowed_initial : Analysis.initial.arena.Allowed where
  resolved _ := rfl
  admitted t h := absurd h (Nat.not_lt_zero t)
  rooted t σ h := by
    rw [symbol_initial] at h
    cases h
  importing t h := absurd h (Nat.not_lt_zero t)

theorem owned_initial : Analysis.initial.arena.Owned where
  members s σ h := by
    rw [symbol_initial] at h
    cases h
  deeper s σ h := by
    rw [symbol_initial] at h
    cases h
  owner σ s h := by
    rcases scope_initial σ with ⟨hs, -⟩ | ⟨rfl, hs⟩ <;> rw [hs] at h <;> cases h
  around σ s h := by
    rcases scope_initial σ with ⟨hs, -⟩ | ⟨rfl, hs⟩ <;> rw [hs] at h <;> cases h
  exports s σ h := by
    rw [symbol_initial] at h
    cases h
  elder σ s h := by
    rcases scope_initial σ with ⟨hs, -⟩ | ⟨rfl, hs⟩ <;> rw [hs] at h <;> cases h

theorem formed_initial : Analysis.initial.arena.Formed :=
  ⟨nested_initial, laid_initial, allowed_initial, owned_initial⟩

/-! ## Declaring a symbol -/

variable {a b : Arena}

/-- Nesting is about kinds and enclosing scopes only. -/
theorem Nested.of_same (h : a.Nested) (kind : ∀ σ, (b.scope σ).kind = (a.scope σ).kind)
    (enclosing : ∀ σ, (b.scope σ).enclosing = (a.scope σ).enclosing) : b.Nested where
  older := by simpa only [enclosing] using h.older
  dynamic := by simpa only [enclosing, kind] using h.dynamic
  static := by simpa only [enclosing, kind] using h.static
  units := by simpa only [kind] using h.units
  global := by rw [kind, h.global]

section Declare

variable {into : ScopeId} {d : Declaration}

theorem kind_withDeclared (known : into < a.scopes.size) (σ : ScopeId) :
    ((a.withDeclared into d).scope σ).kind = (a.scope σ).kind := by
  rw [scope_withDeclared known]
  split <;> rfl

theorem enclosing_withDeclared (known : into < a.scopes.size) (σ : ScopeId) :
    ((a.withDeclared into d).scope σ).enclosing = (a.scope σ).enclosing := by
  rw [scope_withDeclared known]
  split <;> rfl

theorem symbol_withDeclared_old {t : SymbolId} (h : t < a.symbols.size) :
    (a.withDeclared into d).symbol t = a.symbol t := by
  rw [symbol_withDeclared, if_neg (Nat.ne_of_lt h)]

theorem symbol_withDeclared_new :
    (a.withDeclared into d).symbol a.symbols.size = a.declared into d := by
  rw [symbol_withDeclared, if_pos rfl]

/-- Symbols are the old ones and the new one. -/
theorem lt_or_eq_of_lt_withDeclared {t : SymbolId} (h : t < (a.withDeclared into d).symbols.size) :
    t < a.symbols.size ∨ t = a.symbols.size := by
  rw [size_symbols_withDeclared] at h
  exact Nat.lt_succ_iff_lt_or_eq.1 h

theorem lt_withDeclared {t : SymbolId} (h : t < a.symbols.size) :
    t < (a.withDeclared into d).symbols.size := by
  rw [size_symbols_withDeclared]
  exact Nat.lt_succ_of_lt h

/-- The new symbol takes the first free slot. -/
theorem Laid.withDeclared (h : a.Laid) (known : into < a.scopes.size)
    (free : (a.scope into).get? d.name = none) : (a.withDeclared into d).Laid where
  slot σ i t ht := by
    rw [scope_withDeclared known] at ht
    split at ht
    · next he =>
      subst he
      simp only [List.getElem?_append, List.getElem?_singleton] at ht
      split at ht
      · obtain ⟨hlt, hs⟩ := h.slot σ i t ht
        rw [symbol_withDeclared_old hlt]
        exact ⟨lt_withDeclared hlt, hs⟩
      · next hi =>
        split at ht
        · cases ht
          rw [size_symbols_withDeclared, symbol_withDeclared_new]
          exact ⟨Nat.lt_succ_self _, rfl, show (a.scope σ).slots.length = i by omega⟩
        · cases ht
    · obtain ⟨hlt, hs⟩ := h.slot σ i t ht
      rw [symbol_withDeclared_old hlt]
      exact ⟨lt_withDeclared hlt, hs⟩
  placed t ht := by
    rcases lt_or_eq_of_lt_withDeclared ht with hlt | rfl
    · rw [symbol_withDeclared_old hlt, scope_withDeclared known]
      have here := h.placed t hlt
      split
      · rw [List.getElem?_append_left]
        · exact here
        · exact (List.getElem?_eq_some_iff.mp here).1
      · exact here
    · rw [symbol_withDeclared_new]
      show ((a.withDeclared into d).scope into).slots[(a.scope into).slots.length]? = _
      rw [scope_withDeclared known, if_pos rfl]
      simp
  name σ name t ht := by
    by_cases he : σ = into
    · subst he
      rw [get?_withDeclared known] at ht
      split at ht
      · cases ht
        rw [size_symbols_withDeclared, symbol_withDeclared_new]
        exact ⟨Nat.lt_succ_self _, .inl rfl⟩
      · obtain ⟨hlt, hs⟩ := h.name σ name t ht
        rw [symbol_withDeclared_old hlt, kind_withDeclared known, kind_withDeclared known]
        exact ⟨lt_withDeclared hlt, hs⟩
    · rw [scope_withDeclared_ne a he] at ht
      obtain ⟨hlt, hs⟩ := h.name σ name t ht
      rw [symbol_withDeclared_old hlt, kind_withDeclared known, kind_withDeclared known]
      exact ⟨lt_withDeclared hlt, hs⟩
  named t ht := by
    rcases lt_or_eq_of_lt_withDeclared ht with hlt | rfl
    · rw [symbol_withDeclared_old hlt]
      have here := h.named t hlt
      by_cases he : (a.symbol t).scope = into
      · rw [he] at here ⊢
        -- The new name was free, so it is not this one.
        rw [get?_withDeclared known, if_neg]
        · exact here
        · intro same
          rw [← same, free] at here
          cases here
      · rw [scope_withDeclared_ne a he]
        exact here
    · rw [symbol_withDeclared_new]
      show ((a.withDeclared into d).scope into).get? d.name = _
      rw [get?_withDeclared known, if_pos rfl]

/-- The scope admits the new symbol, and the owners of scopes are old. -/
theorem Allowed.withDeclared (h : a.Allowed) (known : into < a.scopes.size) (owned : a.Owned)
    (admits : a.Admits into d) : (a.withDeclared into d).Allowed where
  resolved s := by
    rw [symbol_withDeclared]
    split
    · rfl
    · exact h.resolved s
  admitted t ht := by
    rcases lt_or_eq_of_lt_withDeclared ht with hlt | rfl
    · rw [symbol_withDeclared_old hlt, kind_withDeclared known]
      exact h.admitted t hlt
    · rw [symbol_withDeclared_new, kind_withDeclared known]
      exact admits.kind
  rooted t σ ht := by
    rw [symbol_withDeclared] at ht
    simp only [kind_withDeclared known]
    rw [symbol_withDeclared]
    split at ht
    · next he =>
      obtain ⟨s, hs, module, place⟩ := admits.root σ ht
      rw [if_pos he]
      exact ⟨s, hs, by rw [symbol_withDeclared_old (owned.owner σ s hs).1]; exact module, place⟩
    · next he =>
      obtain ⟨s, hs, module, place⟩ := h.rooted t σ ht
      rw [if_neg he]
      exact ⟨s, hs, by rw [symbol_withDeclared_old (owned.owner σ s hs).1]; exact module, place⟩
  importing t ht indirect s hs := by
    rw [kind_withDeclared known] at hs
    rw [symbol_withDeclared_old (owned.owner _ s hs).1]
    rcases lt_or_eq_of_lt_withDeclared ht with hlt | rfl
    · rw [symbol_withDeclared_old hlt] at indirect hs
      exact h.importing t hlt indirect s hs
    · rw [symbol_withDeclared_new] at indirect hs
      exact admits.importing indirect s hs

/-- The new symbol owns nothing yet, and is younger than all owners. -/
theorem Owned.withDeclared (h : a.Owned) (known : into < a.scopes.size) :
    (a.withDeclared into d).Owned where
  members s σ hs := by
    rw [symbol_withDeclared] at hs ⊢
    split at hs
    · cases hs
    · next hne =>
      rw [if_neg hne, kind_withDeclared known]
      exact h.members s σ hs
  deeper s σ hs := by
    rw [symbol_withDeclared] at hs ⊢
    split at hs
    · cases hs
    · next hne =>
      rw [if_neg hne]
      exact h.deeper s σ hs
  owner σ s hk := by
    rw [kind_withDeclared known] at hk
    obtain ⟨hlt, hs⟩ := h.owner σ s hk
    rw [symbol_withDeclared_old hlt]
    exact ⟨lt_withDeclared hlt, hs⟩
  around σ s hk := by
    rw [kind_withDeclared known] at hk
    have owner := (h.owner σ s hk).1
    rw [enclosing_withDeclared known, Surrounds, symbol_withDeclared_old owner,
      kind_withDeclared known]
    rcases h.around σ s hk with here | ⟨o, ho, interactive⟩
    · exact .inl here
    · exact .inr ⟨o, ho, by rw [symbol_withDeclared_old (h.owner _ o ho).1]; exact interactive⟩
  exports s σ hs := by
    rw [symbol_withDeclared] at hs
    split at hs
    · cases hs
    · rw [kind_withDeclared known]
      exact h.exports s σ hs
  elder σ s hk t ht := by
    rw [kind_withDeclared known] at hk
    rw [scope_withDeclared known] at ht
    split at ht
    · rcases List.mem_append.mp ht with ht | ht
      · exact h.elder σ s hk t ht
      · rw [List.mem_singleton.mp ht]
        exact (h.owner σ s hk).1
    · exact h.elder σ s hk t ht

/-- A declaration in a scope that admits it. -/
theorem Formed.withDeclared (h : a.Formed) (known : into < a.scopes.size)
    (free : (a.scope into).get? d.name = none) (admits : a.Admits into d) :
    (a.withDeclared into d).Formed :=
  ⟨h.toNested.of_same (kind_withDeclared known) (enclosing_withDeclared known),
    h.toLaid.withDeclared known free, h.toAllowed.withDeclared known h.toOwned admits,
    h.toOwned.withDeclared known⟩

end Declare

/-! ## Showing a library -/

namespace Formed

/-- Slots are numbered by symbols that exist. -/
theorem lt_of_mem (h : a.Formed) {σ : ScopeId} {t : SymbolId} (ht : t ∈ (a.scope σ).slots) :
    t < a.symbols.size := by
  obtain ⟨i, hi⟩ := List.getElem?_of_mem ht
  exact (h.slot σ i t hi).1

theorem lt_of_members (h : a.Formed) {s : SymbolId} {σ : ScopeId}
    (hs : (a.symbol s).members = some σ) : σ < a.scopes.size := by
  refine lt_size_of_kind ?_
  rw [(h.members s σ hs).1]
  exact fun h => by cases h

theorem lt_of_exports (h : a.Formed) {s : SymbolId} {σ : ScopeId}
    (hs : (a.symbol s).exports = some σ) : σ < a.scopes.size := by
  refine lt_size_of_kind ?_
  rw [h.exports s σ hs]
  exact fun h => by cases h

end Formed

section Publish

variable {into : ScopeId} {shown : String} {t : SymbolId}

/-- Another name changes nothing else about a scope. -/
theorem scope_publish (a : Arena) (into : ScopeId) (shown : String) (t : SymbolId)
    (σ : ScopeId) :
    ∃ names, (a.modifyScope into fun s => { s with names := s.names.insert shown t }).scope σ =
      { a.scope σ with names := names } := by
  rw [scope_modifyScope]
  split
  · exact ⟨_, rfl⟩
  · exact ⟨_, rfl⟩

theorem kind_publish (σ : ScopeId) :
    ((a.modifyScope into fun s => { s with names := s.names.insert shown t }).scope σ).kind =
      (a.scope σ).kind := by
  obtain ⟨_, hs⟩ := scope_publish a into shown t σ
  rw [hs]

theorem enclosing_publish (σ : ScopeId) :
    ((a.modifyScope into fun s => { s with names := s.names.insert shown t }).scope σ).enclosing =
      (a.scope σ).enclosing := by
  obtain ⟨_, hs⟩ := scope_publish a into shown t σ
  rw [hs]

theorem slots_publish (σ : ScopeId) :
    ((a.modifyScope into fun s => { s with names := s.names.insert shown t }).scope σ).slots =
      (a.scope σ).slots := by
  obtain ⟨_, hs⟩ := scope_publish a into shown t σ
  rw [hs]

/-- The name was free, and denotes a library of the module that shows it. -/
theorem Laid.publish (h : a.Laid) (known : t < a.symbols.size)
    (direct : (a.symbol t).binding = .direct) (free : (a.scope into).get? shown = none)
      (shared : ∃ s, (a.scope into).kind = .exports s ∧
        (a.scope (a.symbol t).scope).kind = .members s) :
    (a.modifyScope into fun s => { s with names := s.names.insert shown t }).Laid where
  slot σ i s hs := by
    rw [slots_publish] at hs
    exact h.slot σ i s hs
  placed s hs := by
    rw [slots_publish]
    exact h.placed s hs
  name σ name s hs := by
    simp only [kind_publish, symbol_modifyScope]
    rw [scope_modifyScope] at hs
    split at hs
    · next he =>
      obtain ⟨rfl, -⟩ := he
      change Entries.get? ((a.scope σ).names.insert shown t) name = some s at hs
      rw [Entries.get?_insert] at hs
      split at hs
      · cases hs
        exact ⟨known, .inr ⟨direct, shared⟩⟩
      · exact h.name σ name s hs
    · exact h.name σ name s hs
  named s hs := by
    have here := h.named s hs
    rw [symbol_modifyScope, scope_modifyScope]
    split
    · next he =>
      rw [he.1] at here ⊢
      show Entries.get? ((a.scope into).names.insert shown t) (a.symbol s).name = some s
      rw [Entries.get?_insert, if_neg]
      · exact here
      · intro same
        rw [← same, free] at here
        cases here
    · exact here

theorem Allowed.publish (h : a.Allowed) :
    (a.modifyScope into fun s => { s with names := s.names.insert shown t }).Allowed where
  resolved := h.resolved
  admitted s hs := by
    rw [kind_publish]
    exact h.admitted s hs
  rooted s σ hs := by
    simp only [kind_publish, symbol_modifyScope]
    exact h.rooted s σ hs
  importing := by
    simp only [kind_publish, symbol_modifyScope]
    exact h.importing

theorem Owned.publish (h : a.Owned) :
    (a.modifyScope into fun s => { s with names := s.names.insert shown t }).Owned where
  members s σ hs := by
    rw [kind_publish]
    exact h.members s σ hs
  deeper := h.deeper
  owner σ s hk := by
    rw [kind_publish] at hk
    exact h.owner σ s hk
  around := by
    simpa only [kind_publish, enclosing_publish, Surrounds, symbol_modifyScope] using h.around
  exports s σ hs := by
    rw [kind_publish]
    exact h.exports s σ hs
  elder := by simpa only [slots_publish, kind_publish] using h.elder

/-- A library that is shown to other units. -/
theorem Formed.publish (h : a.Formed) (known : t < a.symbols.size)
    (direct : (a.symbol t).binding = .direct) (free : (a.scope into).get? shown = none)
    (shared : ∃ s, (a.scope into).kind = .exports s ∧
      (a.scope (a.symbol t).scope).kind = .members s) :
    (a.modifyScope into fun s => { s with names := s.names.insert shown t }).Formed where
  toNested := h.toNested.of_same kind_publish enclosing_publish
  toLaid := h.toLaid.publish known direct free shared
  toAllowed := h.toAllowed.publish
  toOwned := h.toOwned.publish

end Publish

/-! ## A new scope -/

/-- What a new scope changes: there is one scope more, and the symbol that it belongs to knows of
it. -/
structure Extended (a b : Arena) (new : Scope) : Prop where
  added : b.scope a.scopes.size = new
  kept : ∀ σ, σ ≠ a.scopes.size → b.scope σ = a.scope σ
  size : b.symbols.size = a.symbols.size
  declaration : ∀ s, (b.symbol s).toDeclaration = (a.symbol s).toDeclaration
  place : ∀ s, (b.symbol s).scope = (a.symbol s).scope ∧ (b.symbol s).slot = (a.symbol s).slot
  resolved : ∀ s, (b.symbol s).resolved = (a.symbol s).resolved
  members : ∀ s σ, (b.symbol s).members = some σ ↔
    (a.symbol s).members = some σ ∨ σ = a.scopes.size ∧ new.kind = .members s
  exports : ∀ s σ, (b.symbol s).exports = some σ →
    (a.symbol s).exports = some σ ∨ σ = a.scopes.size ∧ new.kind = .exports s

namespace Extended

variable {new : Scope}

/-- Whatever is known about the new scope, all other scopes are as they were. -/
theorem scope_cases (e : Extended a b new) (σ : ScopeId) :
    σ = a.scopes.size ∧ b.scope σ = new ∨ σ ≠ a.scopes.size ∧ b.scope σ = a.scope σ := by
  by_cases he : σ = a.scopes.size
  · exact .inl ⟨he, he ▸ e.added⟩
  · exact .inr ⟨he, e.kept σ he⟩

theorem target (e : Extended a b new) (s : SymbolId) : (b.symbol s).target = (a.symbol s).target :=
  congrArg Declaration.target (e.declaration s)

theorem binding (e : Extended a b new) (s : SymbolId) :
    (b.symbol s).binding = (a.symbol s).binding :=
  congrArg Declaration.binding (e.declaration s)

/-- A scope that is not one of global names is an old one. -/
theorem stays (e : Extended a b new) {σ : ScopeId} (h : (a.scope σ).kind ≠ .global) :
    b.scope σ = a.scope σ :=
  e.kept σ (Nat.ne_of_lt (lt_size_of_kind h))

/-- What encloses an old scope is an old scope. -/
theorem around (e : Extended a b new) (h : a.Nested) {σ outer : ScopeId}
    (ho : (a.scope σ).enclosing = some outer) : b.scope outer = a.scope outer :=
  e.kept outer (Nat.ne_of_lt (Nat.lt_trans (h.older σ outer ho) (lt_size_of_enclosing ho)))

/-- Symbols are declared in old scopes. -/
theorem home (e : Extended a b new) (h : a.Laid) {t : SymbolId} (ht : t < a.symbols.size) :
    b.scope (b.symbol t).scope = a.scope (a.symbol t).scope := by
  rw [(e.place t).1]
  exact e.kept _ (Nat.ne_of_lt (lt_size_of_slot (h.placed t ht)))

theorem members_kind (e : Extended a b new) {σ : ScopeId} {s : SymbolId}
    (h : (a.scope σ).kind = .members s) : (b.scope σ).kind = .members s := by
  rw [e.stays]
  · exact h
  · rw [h]
    exact fun h => by cases h

end Extended

section Extend

variable {kind : ScopeKind} {enclosing : ScopeId} {ordered : Bool}

/-- The new scope lies where scopes of its kind may lie. -/
theorem Nested.extend (h : a.Nested) (e : Extended a b ⟨kind, some enclosing, ordered, [], []⟩)
    (known : enclosing < a.scopes.size) (notUnits : kind ≠ .units)
    (dynamic : kind.isDynamic = true → (a.scope enclosing).kind.hosts = true)
    (static : kind.isDynamic = false → (a.scope enclosing).kind.isDynamic = false ∧
      ∀ s, (a.scope enclosing).kind ≠ .exports s) : b.Nested := by
  have units : Analysis.unitsScope < a.scopes.size :=
    lt_size_of_kind (by rw [(h.units _).mpr rfl]; exact fun h => by cases h)
  constructor
  case older =>
    intro σ outer ho
    rcases e.scope_cases σ with ⟨rfl, hs⟩ | ⟨-, hs⟩ <;> rw [hs] at ho
    · cases ho
      exact known
    · exact h.older σ outer ho
  case dynamic =>
    intro σ outer ho hd
    rcases e.scope_cases σ with ⟨rfl, hs⟩ | ⟨-, hs⟩ <;> rw [hs] at ho hd
    · cases ho
      rw [e.kept _ (Nat.ne_of_lt known)]
      exact dynamic hd
    · rw [e.around h ho]
      exact h.dynamic σ outer ho hd
  case static =>
    intro σ outer ho hd
    rcases e.scope_cases σ with ⟨rfl, hs⟩ | ⟨-, hs⟩ <;> rw [hs] at ho hd
    · cases ho
      rw [e.kept _ (Nat.ne_of_lt known)]
      exact static hd
    · rw [e.around h ho]
      exact h.static σ outer ho hd
  case units =>
    intro σ
    rcases e.scope_cases σ with ⟨rfl, hs⟩ | ⟨-, hs⟩ <;> rw [hs]
    · exact ⟨fun he => absurd he notUnits, fun he => absurd he (Nat.ne_of_gt units)⟩
    · exact h.units σ
  case global =>
    have older : Analysis.globalScope < a.scopes.size := Nat.lt_trans Nat.zero_lt_one units
    rw [e.kept _ (Nat.ne_of_lt older), h.global]

/-- The new scope holds nothing yet. -/
theorem Laid.extend (h : a.Laid) (e : Extended a b ⟨kind, some enclosing, ordered, [], []⟩) :
    b.Laid where
  slot σ i t ht := by
    rcases e.scope_cases σ with ⟨rfl, hs⟩ | ⟨-, hs⟩ <;> rw [hs] at ht
    · cases ht
    · obtain ⟨hlt, hscope, hslot⟩ := h.slot σ i t ht
      exact ⟨e.size ▸ hlt, (e.place t).1.trans hscope, (e.place t).2.trans hslot⟩
  placed t ht := by
    rw [e.size] at ht
    rw [e.home h ht, (e.place t).2]
    exact h.placed t ht
  name σ name t ht := by
    rcases e.scope_cases σ with ⟨rfl, hs⟩ | ⟨-, hs⟩ <;> rw [hs] at ht
    · cases ht
    · obtain ⟨hlt, hw⟩ := h.name σ name t ht
      rw [e.home h hlt, (e.place t).1, hs, e.binding, e.size]
      exact ⟨hlt, hw⟩
  named t ht := by
    rw [e.size] at ht
    rw [e.home h ht, congrArg Declaration.name (e.declaration t)]
    exact h.named t ht

theorem Allowed.extend (h : a.Allowed) (laid : a.Laid) {new : Scope} (e : Extended a b new) :
    b.Allowed where
  resolved s := by
    rw [e.resolved]
    exact h.resolved s
  admitted t ht := by
    rw [e.size] at ht
    rw [e.declaration, e.home laid ht]
    exact h.admitted t ht
  rooted t σ ht := by
    rw [e.binding] at ht
    obtain ⟨s, hs, module, place⟩ := h.rooted t σ ht
    refine ⟨s, e.members_kind hs, by rw [e.target]; exact module, ?_⟩
    rw [(e.place t).1]
    refine place.imp_right fun exported => ?_
    rw [e.stays]
    · exact exported
    · rw [exported]
      exact fun h => by cases h
  importing t ht indirect s hs := by
    rw [e.size] at ht
    rw [e.binding] at indirect
    rw [e.home laid ht] at hs
    rw [e.target]
    exact h.importing t ht indirect s hs

/-- Whoever owns the new scope can own one, and lies around it. -/
theorem Owned.extend (h : a.Owned) (laid : a.Laid)
    (e : Extended a b ⟨kind, some enclosing, ordered, [], []⟩)
    (owner : ∀ s, kind = .members s → s < a.symbols.size ∧ (a.symbol s).binding = .direct ∧
      (a.symbol s).target.isScoped = true ∧ a.Surrounds s (some enclosing)) : b.Owned where
  members s σ hs := by
    rw [e.target]
    rcases (e.members s σ).1 hs with hs | ⟨rfl, hk⟩
    · exact ⟨e.members_kind (h.members s σ hs).1, (h.members s σ hs).2⟩
    · rw [e.added]
      exact ⟨hk, (owner s hk).2.2.1⟩
  deeper s σ hs := by
    rw [(e.place s).1]
    rcases (e.members s σ).1 hs with hs | ⟨rfl, hk⟩
    · exact h.deeper s σ hs
    · exact lt_size_of_slot (laid.placed s (owner s hk).1)
  owner σ s hk := by
    rw [e.binding, e.members, e.size]
    rcases e.scope_cases σ with ⟨rfl, hs⟩ | ⟨-, hs⟩ <;> rw [hs] at hk
    · obtain ⟨hlt, direct, -⟩ := owner s hk
      exact ⟨hlt, direct, .inr ⟨rfl, hk⟩⟩
    · obtain ⟨hlt, direct, hm⟩ := h.owner σ s hk
      exact ⟨hlt, direct, .inl hm⟩
  around σ s hk := by
    have old : ∀ {outer}, a.Surrounds s outer → b.Surrounds s outer := by
      rintro outer (here | ⟨o, ho, interactive⟩)
      · exact .inl (by rw [(e.place s).1]; exact here)
      · refine .inr ⟨o, ?_, by rw [e.target]; exact interactive⟩
        rw [(e.place s).1]
        exact e.members_kind ho
    rcases e.scope_cases σ with ⟨rfl, hs⟩ | ⟨-, hs⟩ <;> rw [hs] at hk ⊢
    · exact old (owner s hk).2.2.2
    · exact old (h.around σ s hk)
  exports s σ hs := by
    rcases e.exports s σ hs with hs | ⟨rfl, hk⟩
    · have he := h.exports s σ hs
      rw [e.stays]
      · exact he
      · rw [he]
        exact fun h => by cases h
    · rw [e.added]
      exact hk
  elder σ s hk t ht := by
    rcases e.scope_cases σ with ⟨rfl, hs⟩ | ⟨-, hs⟩ <;> rw [hs] at hk ht
    · cases ht
    · exact h.elder σ s hk t ht

/-- A new scope, of which its owner knows. -/
theorem Formed.extend (h : a.Formed) (e : Extended a b ⟨kind, some enclosing, ordered, [], []⟩)
    (known : enclosing < a.scopes.size) (notUnits : kind ≠ .units)
    (dynamic : kind.isDynamic = true → (a.scope enclosing).kind.hosts = true)
    (static : kind.isDynamic = false → (a.scope enclosing).kind.isDynamic = false ∧
      ∀ s, (a.scope enclosing).kind ≠ .exports s)
    (owner : ∀ s, kind = .members s → s < a.symbols.size ∧ (a.symbol s).binding = .direct ∧
      (a.symbol s).target.isScoped = true ∧ a.Surrounds s (some enclosing)) : b.Formed :=
  ⟨h.toNested.extend e known notUnits dynamic static, h.toLaid.extend e,
    h.toAllowed.extend h.toLaid e, h.toOwned.extend h.toLaid e owner⟩

/-- Only what `f` makes of its owner is seen, besides the new scope. -/
theorem extended_newScope {owner : SymbolId} {f : Symbol → Symbol}
    (same : ∀ s, (f s).toDeclaration = s.toDeclaration ∧
      ((f s).scope = s.scope ∧ (f s).slot = s.slot) ∧ (f s).resolved = s.resolved)
    (members : ∀ σ, (f (a.symbol owner)).members = some σ ↔
      (a.symbol owner).members = some σ ∨ σ = a.scopes.size ∧ kind = .members owner)
    (exports : ∀ σ, (f (a.symbol owner)).exports = some σ →
      (a.symbol owner).exports = some σ ∨ σ = a.scopes.size ∧ kind = .exports owner)
    (own : ∀ s, kind = .members s → s = owner ∧ owner < a.symbols.size) :
    Extended a ((a.newScope kind (some enclosing) ordered).2.modifySymbol owner f)
      ⟨kind, some enclosing, ordered, [], []⟩ := by
  constructor
  case added => rw [scope_modifySymbol, scope_newScope, if_pos rfl]
  case kept =>
    intro σ hne
    rw [scope_modifySymbol, scope_newScope, if_neg hne]
  case size => simp [modifySymbol, Arena.newScope]
  all_goals
    intro s
    rw [symbol_modifySymbol]
    split
  case declaration.isTrue => exact (same _).1
  case place.isTrue => exact (same _).2.1
  case resolved.isTrue => exact (same _).2.2
  case members.isTrue he =>
    obtain ⟨rfl, -⟩ := he
    exact members
  case members.isFalse other =>
    refine fun σ => ⟨.inl, fun h => h.resolve_right ?_⟩
    rintro ⟨-, hk⟩
    obtain ⟨rfl, hlt⟩ := own s hk
    exact other ⟨rfl, hlt⟩
  case exports.isTrue he =>
    obtain ⟨rfl, -⟩ := he
    exact exports
  case exports.isFalse => exact fun σ => .inl
  all_goals first | rfl | exact ⟨rfl, rfl⟩

end Extend

namespace Formed

/-- A scope for a function or a block, inside a scope that hosts expressions. -/
theorem newScope (h : a.Formed) {kind : ScopeKind} {enclosing : ScopeId} {ordered : Bool}
    (dynamic : kind.isDynamic = true) (known : enclosing < a.scopes.size)
    (hosts : (a.scope enclosing).kind.hosts = true) :
    (a.newScope kind (some enclosing) ordered).2.Formed := by
  have unowned : ∀ s, kind ≠ .members s ∧ kind ≠ .exports s := by
    intro s
    constructor <;> rintro rfl <;> cases dynamic
  have extended : Extended a (a.newScope kind (some enclosing) ordered).2
      ⟨kind, some enclosing, ordered, [], []⟩ :=
    { added := by rw [scope_newScope, if_pos rfl]
      kept := fun σ hne => by rw [scope_newScope, if_neg hne]
      size := rfl
      declaration := fun _ => rfl
      place := fun _ => ⟨rfl, rfl⟩
      resolved := fun _ => rfl
      members := fun s σ => ⟨.inl, fun h => h.resolve_right fun own => (unowned s).1 own.2⟩
      exports := fun s σ => .inl }
  exact h.extend extended known (by rintro rfl; cases dynamic) (fun _ => hosts)
    (fun hd => by rw [dynamic] at hd; cases hd) fun s own => absurd own (unowned s).1

/-- The scope of the members of a symbol. -/
theorem newMembers (h : a.Formed) {owner : SymbolId} {enclosing : ScopeId}
    (declared : owner < a.symbols.size) (direct : (a.symbol owner).binding = .direct)
    (owning : (a.symbol owner).target.isScoped = true) (bare : (a.symbol owner).members = none)
    (known : enclosing < a.scopes.size) (static : (a.scope enclosing).kind.isDynamic = false)
    (inside : ∀ s, (a.scope enclosing).kind ≠ .exports s)
    (around : a.Surrounds owner (some enclosing)) :
    ((a.newScope (.members owner) (some enclosing) false).2.setMembers owner
      a.scopes.size).Formed := by
  refine h.extend (extended_newScope (fun s => ⟨rfl, ⟨rfl, rfl⟩, rfl⟩) (fun σ => ?_)
    (fun σ hs => .inl hs) ?_) known (fun h => by cases h) (fun h => by cases h)
      (fun _ => ⟨static, inside⟩) ?_
  · rw [bare]
    simp [eq_comm]
  · rintro s ⟨⟩
    exact ⟨rfl, declared⟩
  · rintro s ⟨⟩
    exact ⟨declared, direct, owning, around⟩

/-- The scope of what a symbol shows to other units. -/
theorem newExports (h : a.Formed) {owner : SymbolId} {enclosing : ScopeId}
    (known : enclosing < a.scopes.size) (static : (a.scope enclosing).kind.isDynamic = false)
    (inside : ∀ s, (a.scope enclosing).kind ≠ .exports s) :
    ((a.newScope (.exports owner) (some enclosing) false).2.setExports owner
      a.scopes.size).Formed := by
  refine h.extend (extended_newScope (fun s => ⟨rfl, ⟨rfl, rfl⟩, rfl⟩) (fun σ => ?_)
    (fun σ hs => ?_) ?_)
    known (fun h => by cases h) (fun h => by cases h) (fun _ => ⟨static, inside⟩) (by rintro s ⟨⟩)
  · simp
  · cases hs
    exact .inr ⟨rfl, rfl⟩
  · rintro s ⟨⟩

end Formed

end Arena

end CellScript
