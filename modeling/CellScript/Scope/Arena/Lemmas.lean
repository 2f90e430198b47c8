import CellScript.Scope.Arena

/-!
# What operations on the arena leave alone

The arena only grows. A new scope or symbol gets the next number, and a change is seen in the scope
or symbol that was changed.

* `scope_newScope` — a new scope is seen under its own number only
* `declare_eq_ok_iff` — a declaration succeeds exactly if the name is free in its scope
* `symbol_withDeclared`, `get?_withDeclared` — what a declaration adds
* `publish_eq_ok_iff` — a symbol can be published under every name that is free
-/

namespace CellScript.Arena

/-! ## Scopes -/

/-- Numbers out of range denote a scope of global names. -/
theorem lt_size_of_kind {a : Arena} {id : ScopeId} (h : (a.scope id).kind ≠ .global) :
    id < a.scopes.size := by
  refine Nat.lt_of_not_le fun hge => h ?_
  rw [scope, Array.getD_eq_getD_getElem?, Array.getElem?_eq_none hge]
  rfl

/-- Only scopes that exist have a scope around them. -/
theorem lt_size_of_enclosing {a : Arena} {id outer : ScopeId}
    (h : (a.scope id).enclosing = some outer) : id < a.scopes.size := by
  refine Nat.lt_of_not_le fun hge => ?_
  rw [scope, Array.getD_eq_getD_getElem?, Array.getElem?_eq_none hge] at h
  cases h

/-- Only scopes that exist have slots. -/
theorem lt_size_of_slot {a : Arena} {id : ScopeId} {i : Nat} {t : SymbolId}
    (h : (a.scope id).slots[i]? = some t) : id < a.scopes.size := by
  refine Nat.lt_of_not_le fun hge => ?_
  rw [scope, Array.getD_eq_getD_getElem?, Array.getElem?_eq_none hge] at h
  cases h

/-- A new scope is seen under its own number, and every other number denotes what it did. -/
theorem scope_newScope (a : Arena) (kind : ScopeKind) (enclosing : Option ScopeId) (ordered : Bool)
    (id : ScopeId) :
    (a.newScope kind enclosing ordered).2.scope id =
      if id = a.scopes.size then ⟨kind, enclosing, ordered, [], []⟩ else a.scope id := by
  simp only [newScope, scope, Array.getD_eq_getD_getElem?, Array.getElem?_push]
  split <;> rfl

/-- A change is seen in the scope that was changed. -/
theorem scope_modifyScope_self {a : Arena} {id : ScopeId} (h : id < a.scopes.size)
    (f : Scope → Scope) : (a.modifyScope id f).scope id = f (a.scope id) := by
  simp [modifyScope, scope, Array.getD_eq_getD_getElem?, h, Array.getElem_modify]

/-- A change is not seen in any other scope. -/
theorem scope_modifyScope_ne (a : Arena) {id other : ScopeId} (h : other ≠ id) (f : Scope → Scope) :
    (a.modifyScope id f).scope other = a.scope other := by
  simp [modifyScope, scope, Array.getD_eq_getD_getElem?, Array.getElem?_modify, Ne.symm h]

theorem size_scopes_modifyScope (a : Arena) (id : ScopeId) (f : Scope → Scope) :
    (a.modifyScope id f).scopes.size = a.scopes.size := by
  simp only [modifyScope, Array.size_modify]

theorem symbol_modifyScope (a : Arena) (id : ScopeId) (f : Scope → Scope) (symbol : SymbolId) :
    (a.modifyScope id f).symbol symbol = a.symbol symbol := rfl

/-! ## Symbols -/

/-- A change is seen in the symbol that was changed. -/
theorem symbol_modifySymbol_self {a : Arena} {id : SymbolId} (h : id < a.symbols.size)
    (f : Symbol → Symbol) : (a.modifySymbol id f).symbol id = f (a.symbol id) := by
  simp [modifySymbol, symbol, Array.getD_eq_getD_getElem?, h, Array.getElem_modify]

/-- A change is not seen in any other symbol. -/
theorem symbol_modifySymbol_ne (a : Arena) {id other : SymbolId} (h : other ≠ id)
    (f : Symbol → Symbol) : (a.modifySymbol id f).symbol other = a.symbol other := by
  simp [modifySymbol, symbol, Array.getD_eq_getD_getElem?, Array.getElem?_modify, Ne.symm h]

theorem scope_modifySymbol (a : Arena) (id : SymbolId) (f : Symbol → Symbol) (scope : ScopeId) :
    (a.modifySymbol id f).scope scope = a.scope scope := rfl

/-! ## Declarations -/

/-- **A declaration succeeds exactly if the name is free in its scope.** The symbol gets the next
number. -/
theorem declare_eq_ok_iff (a : Arena) (scope : ScopeId) (d : Declaration) (id : SymbolId)
    (after : Arena) :
    a.declare scope d = .ok (id, after) ↔
      (a.scope scope).get? d.name = none ∧ id = a.symbols.size ∧
        after = a.withDeclared scope d := by
  unfold declare
  split
  · next first hfirst =>
    constructor
    · intro h
      cases h
    · intro h
      rw [hfirst] at h
      exact absurd h.1 (by simp)
  · next hfree =>
    refine ⟨fun h => ?_, fun h => ?_⟩
    · cases h
      exact ⟨hfree, rfl, rfl⟩
    · obtain ⟨-, rfl, rfl⟩ := h
      rfl

/-- A declared symbol is seen under its own number, and every other number denotes what it did. -/
theorem symbol_withDeclared (a : Arena) (scope : ScopeId) (d : Declaration) (id : SymbolId) :
    (a.withDeclared scope d).symbol id =
      if id = a.symbols.size then a.declared scope d else a.symbol id := by
  rw [withDeclared, symbol_modifyScope]
  simp only [symbol, Array.getD_eq_getD_getElem?, Array.getElem?_push]
  split <;> rfl

/-- The name of a declared symbol is found in its scope, and every other name denotes what it
did. -/
theorem get?_withDeclared {a : Arena} {scope : ScopeId} (h : scope < a.scopes.size)
    (d : Declaration) (name : String) :
    ((a.withDeclared scope d).scope scope).get? name =
      if d.name = name then some a.symbols.size else (a.scope scope).get? name := by
  rw [withDeclared, scope_modifyScope_self (by exact h)]
  exact Entries.get?_insert ..

/-- A declaration is not seen in any other scope. -/
theorem scope_withDeclared_ne (a : Arena) {scope other : ScopeId} (h : other ≠ scope)
    (d : Declaration) : (a.withDeclared scope d).scope other = a.scope other := by
  rw [withDeclared, scope_modifyScope_ne _ h]
  rfl

/-- **A symbol can be published under every name that is free.** It gets no slot. -/
theorem publish_eq_ok_iff (a : Arena) (scope : ScopeId) (name : String) (symbol : SymbolId)
    (after : Arena) :
    a.publish scope name symbol = .ok after ↔
      (a.scope scope).get? name = none ∧
        after = a.modifyScope scope fun s => { s with names := s.names.insert name symbol } := by
  unfold publish
  split
  · next first hfirst =>
    constructor
    · intro h
      cases h
    · intro h
      rw [hfirst] at h
      exact absurd h.1 (by simp)
  · next hfree =>
    refine ⟨fun h => ?_, fun h => ?_⟩
    · cases h
      exact ⟨hfree, rfl⟩
    · rw [h.2]

end CellScript.Arena
