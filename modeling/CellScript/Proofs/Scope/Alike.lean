import CellScript.Proofs.Scope.Indexed
import Mathlib.Data.List.Forall2

/-!
# Arenas alike

Two programs of the same units hold the same scopes and symbols, under other numbers. A `Pairing`
says which numbers stand for each other. Scopes and symbols are alike if they differ in nothing but
numbers, and these stand for each other.

* `Pairing` — which scopes and symbols of two arenas stand for each other
* `Scope.Alike`, `Symbol.Alike` — what differs in numbers only
* `Scope.Alike.declare`, `Symbol.Alike.declared` — declarations on both sides
-/

namespace CellScript

/-- Which scopes and symbols of two arenas stand for each other. -/
structure Pairing where
  scope : ScopeId → ScopeId → Prop
  symbol : SymbolId → SymbolId → Prop

/-- More scopes and symbols stand for each other. -/
structure Pairing.Le (ρ π : Pairing) : Prop where
  scope : ∀ σ σ', ρ.scope σ σ' → π.scope σ σ'
  symbol : ∀ t t', ρ.symbol t t' → π.symbol t t'

/-- Scopes and symbols stand for each other one to one. -/
structure Pairing.OneToOne (ρ : Pairing) : Prop where
  scope : ∀ {σ σ' τ τ'}, ρ.scope σ σ' → ρ.scope τ τ' → (σ = τ ↔ σ' = τ')
  symbol : ∀ {s s' t t'}, ρ.symbol s s' → ρ.symbol t t' → (s = t ↔ s' = t')

/-- Every number stands for itself. -/
def Pairing.same : Pairing := ⟨Eq, Eq⟩

/-- The numbers of one arena on either side. -/
def Pairing.flip (ρ : Pairing) : Pairing :=
  ⟨fun σ σ' => ρ.scope σ' σ, fun t t' => ρ.symbol t' t⟩

/-- The scopes belong to owners that stand for each other, or to the same node. -/
inductive ScopeKind.Alike (ρ : Pairing) : ScopeKind → ScopeKind → Prop where
  | global : Alike ρ .global .global
  | units : Alike ρ .units .units
  | members {s s' : SymbolId} (owner : ρ.symbol s s') : Alike ρ (.members s) (.members s')
  | exports {s s' : SymbolId} (owner : ρ.symbol s s') : Alike ρ (.exports s) (.exports s')
  | function (node : NodeId) : Alike ρ (.function node) (.function node)
  | block (node : NodeId) : Alike ρ (.block node) (.block node)

/-- The same way to denote something, in scopes that stand for each other. -/
inductive Binding.Alike (ρ : Pairing) : Binding → Binding → Prop where
  | direct : Alike ρ .direct .direct
  | nameImport (unit exported : String) :
      Alike ρ (.nameImport unit exported) (.nameImport unit exported)
  | moduleImport (unit : String) : Alike ρ (.moduleImport unit) (.moduleImport unit)
  | alias (r : Reference) {σ σ' : ScopeId} (scope : ρ.scope σ σ') :
      Alike ρ (.alias r σ) (.alias r σ')
  | export (r : Reference) {σ σ' : ScopeId} (scope : ρ.scope σ σ') :
      Alike ρ (.export r σ) (.export r σ')

/-- The scopes hold the same names in the same slots. The slots of global names and of units depend
on the order in which units are declared. -/
structure Scope.Alike (ρ : Pairing) (s s' : Scope) : Prop where
  kind : s.kind.Alike ρ s'.kind
  enclosing : Option.Rel ρ.scope s.enclosing s'.enclosing
  ordered : s.ordered = s'.ordered
  names : ∀ name, Option.Rel ρ.symbol (s.get? name) (s'.get? name)
  slots : s.kind ≠ .global → s.kind ≠ .units → List.Forall₂ ρ.symbol s.slots s'.slots

/-- The same declaration, in scopes that stand for each other. -/
structure Declaration.Alike (ρ : Pairing) (d d' : Declaration) : Prop where
  name : d.name = d'.name
  binding : d.binding.Alike ρ d'.binding
  target : d.target = d'.target
  node : d.node = d'.node
  ty : d.ty = d'.ty
  exported : d.exported = d'.exported

/-- The symbols are declared alike, own scopes that stand for each other, and are bound to symbols
that do. -/
structure Symbol.Alike (ρ : Pairing) (s s' : Symbol) : Prop
    extends Declaration.Alike ρ s.toDeclaration s'.toDeclaration where
  scope : ρ.scope s.scope s'.scope
  members : Option.Rel ρ.scope s.members s'.members
  exports : Option.Rel ρ.scope s.exports s'.exports
  resolved : Option.Rel ρ.symbol s.resolved s'.resolved

/-- Scopes and symbols that stand for each other are alike. -/
structure Arena.Alike (ρ : Pairing) (a a' : Arena) : Prop where
  scope : ∀ σ σ', ρ.scope σ σ' → (a.scope σ).Alike ρ (a'.scope σ')
  symbol : ∀ t t', ρ.symbol t t' → (a.symbol t).Alike ρ (a'.symbol t')

variable {ρ π : Pairing}

/-! ## Optional numbers -/

section Options

variable {α β : Type} {R S : α → β → Prop}

theorem optionRel_some {x : α} {y : Option β} (h : Option.Rel R (some x) y) :
    ∃ y', y = some y' ∧ R x y' := by
  cases h with
  | some h => exact ⟨_, rfl, h⟩

theorem optionRel_none {y : Option β} (h : Option.Rel R none y) : y = none := by
  cases h
  rfl

theorem optionRel_mono {x : Option α} {y : Option β} (h : Option.Rel R x y)
    (mono : ∀ v w, x = some v → R v w → S v w) : Option.Rel S x y := by
  cases h with
  | none => exact .none
  | some h => exact .some (mono _ _ rfl h)

theorem optionRel_flip {x : Option α} {y : Option β} (h : Option.Rel R x y) :
    Option.Rel (fun w v => R v w) y x := by
  cases h with
  | none => exact .none
  | some h => exact .some h

theorem optionRel_bind {γ δ : Type} {T : γ → δ → Prop} {x : Option α} {y : Option β}
    (h : Option.Rel R x y) {f : α → Option γ} {g : β → Option δ}
    (rest : ∀ v w, R v w → Option.Rel T (f v) (g w)) : Option.Rel T (x.bind f) (y.bind g) := by
  cases h with
  | none => exact .none
  | some h => exact rest _ _ h

theorem optionRel_map {γ δ : Type} {T : γ → δ → Prop} {x : Option α} {y : Option β}
    (h : Option.Rel R x y) {f : α → γ} {g : β → δ} (rest : ∀ v w, R v w → T (f v) (g w)) :
    Option.Rel T (x.map f) (y.map g) := by
  cases h with
  | none => exact .none
  | some h => exact .some (rest _ _ h)

theorem optionRel_getD {x : Option α} {y : Option β} (h : Option.Rel R x y) {v : α} {w : β}
    (otherwise : R v w) : R (x.getD v) (y.getD w) := by
  cases h with
  | none => exact otherwise
  | some h => exact h

end Options

/-! ## The other way around -/

theorem ScopeKind.Alike.flip {kind kind' : ScopeKind} (h : kind.Alike ρ kind') :
    kind'.Alike ρ.flip kind := by
  cases h with
  | global => exact .global
  | units => exact .units
  | members owner => exact .members owner
  | exports owner => exact .exports owner
  | function node => exact .function node
  | block node => exact .block node

theorem Binding.Alike.flip {binding binding' : Binding} (h : binding.Alike ρ binding') :
    binding'.Alike ρ.flip binding := by
  cases h with
  | direct => exact .direct
  | nameImport unit exported => exact .nameImport unit exported
  | moduleImport unit => exact .moduleImport unit
  | «alias» r scope => exact .alias r scope
  | «export» r scope => exact .export r scope

/-! ## Kinds of scopes -/

namespace ScopeKind.Alike

variable {kind kind' : ScopeKind}

theorem isDynamic (h : kind.Alike ρ kind') : kind.isDynamic = kind'.isDynamic := by
  cases h <;> rfl

theorem global_iff (h : kind.Alike ρ kind') : kind = .global ↔ kind' = .global := by
  cases h <;> simp

theorem units_iff (h : kind.Alike ρ kind') : kind = .units ↔ kind' = .units := by
  cases h <;> simp

end ScopeKind.Alike

namespace Binding.Alike

variable {binding binding' : Binding}

theorem eq_direct (h : Binding.Alike ρ .direct binding) : binding = .direct := by
  cases h
  rfl

theorem eq_moduleImport {unit : String} (h : Binding.Alike ρ (.moduleImport unit) binding) :
    binding = .moduleImport unit := by
  cases h
  rfl

theorem eq_nameImport {unit name : String} (h : Binding.Alike ρ (.nameImport unit name) binding) :
    binding = .nameImport unit name := by
  cases h
  rfl

/-- A path is looked up in scopes that stand for each other. -/
theorem path {r : Reference} {σ : ScopeId} (h : binding.Alike ρ binding')
    (path : binding = .alias r σ ∨ binding = .export r σ) :
    ∃ σ', ρ.scope σ σ' ∧ (binding' = .alias r σ' ∨ binding' = .export r σ') := by
  rcases path with rfl | rfl
  · cases h with
    | «alias» _ scope => exact ⟨_, scope, .inl rfl⟩
  · cases h with
    | «export» _ scope => exact ⟨_, scope, .inr rfl⟩

theorem isIndirect (h : binding.Alike ρ binding') : binding.isIndirect = binding'.isIndirect := by
  cases h <;> rfl

end Binding.Alike

namespace Scope.Alike

variable {s s' : Scope}

theorem flip (h : s.Alike ρ s') : s'.Alike ρ.flip s where
  kind := h.kind.flip
  enclosing := optionRel_flip h.enclosing
  ordered := h.ordered.symm
  names name := optionRel_flip (h.names name)
  slots global units :=
    (h.slots (mt h.kind.global_iff.mp global) (mt h.kind.units_iff.mp units)).flip

end Scope.Alike

theorem Symbol.Alike.flip {s s' : Symbol} (h : s.Alike ρ s') : s'.Alike ρ.flip s where
  name := h.name.symm
  binding := h.binding.flip
  target := h.target.symm
  node := h.node.symm
  ty := h.ty.symm
  exported := h.exported.symm
  scope := h.scope
  members := optionRel_flip h.members
  exports := optionRel_flip h.exports
  resolved := optionRel_flip h.resolved

theorem Arena.Alike.flip {a a' : Arena} (h : a.Alike ρ a') : a'.Alike ρ.flip a :=
  ⟨fun σ σ' paired => (h.scope σ' σ paired).flip, fun t t' paired => (h.symbol t' t paired).flip⟩

/-! ## What is alike by itself -/

theorem ScopeKind.alike_same (kind : ScopeKind) : kind.Alike .same kind := by
  cases kind with
  | global => exact .global
  | units => exact .units
  | members s => exact .members rfl
  | exports s => exact .exports rfl
  | function node => exact .function node
  | block node => exact .block node

theorem optionRel_same {α : Type} (x : Option α) : Option.Rel Eq x x := by
  cases x with
  | none => exact .none
  | some v => exact .some rfl

theorem Scope.alike_same (s : Scope) : s.Alike .same s :=
  ⟨s.kind.alike_same, optionRel_same _, rfl, fun _ => optionRel_same _,
    fun _ _ => List.forall₂_same.mpr fun _ _ => rfl⟩

/-! ## Declarations -/

/-- The same name is declared in both scopes, for symbols that stand for each other. -/
theorem Scope.Alike.declare {s s' : Scope} (h : s.Alike ρ s') (name : String) {t t' : SymbolId}
    (new : ρ.symbol t t') :
    Alike ρ { s with names := s.names.insert name t, slots := s.slots ++ [t] }
      { s' with names := s'.names.insert name t', slots := s'.slots ++ [t'] } where
  kind := h.kind
  enclosing := h.enclosing
  ordered := h.ordered
  names other := by
    simp only [Scope.get?, Entries.get?_insert]
    split
    · exact .some new
    · exact h.names other
  slots global units := List.rel_append (h.slots global units) (.cons new .nil)

/-- A symbol becomes visible under the same name in both scopes. -/
theorem Scope.Alike.publish {s s' : Scope} (h : s.Alike ρ s') (name : String) {t t' : SymbolId}
    (shown : ρ.symbol t t') :
    Alike ρ { s with names := s.names.insert name t }
      { s' with names := s'.names.insert name t' } where
  kind := h.kind
  enclosing := h.enclosing
  ordered := h.ordered
  names other := by
    simp only [Scope.get?, Entries.get?_insert]
    split
    · exact .some shown
    · exact h.names other
  slots := h.slots

/-- What is declared alike in scopes that stand for each other. -/
theorem Symbol.Alike.declared {a a' : Arena} {d d' : Declaration} (h : d.Alike ρ d')
    {σ σ' : ScopeId} (scope : ρ.scope σ σ') : Alike ρ (a.declared σ d) (a'.declared σ' d') :=
  ⟨h, scope, .none, .none, .none⟩

/-- A scope without names. -/
theorem Scope.Alike.bare {kind kind' : ScopeKind} (h : kind.Alike ρ kind') {σ σ' : ScopeId}
    (enclosing : ρ.scope σ σ') (ordered : Bool) :
    Alike ρ ⟨kind, some σ, ordered, [], []⟩ ⟨kind', some σ', ordered, [], []⟩ :=
  ⟨h, .some enclosing, rfl, fun _ => .none, fun _ _ => .nil⟩

/-! ## Other pairings

What is alike is so under every pairing that has the numbers which occur. -/

theorem ScopeKind.Alike.transfer {kind kind' : ScopeKind} (h : kind.Alike ρ kind')
    (owner : ∀ s, kind = .members s ∨ kind = .exports s → ∀ s', ρ.symbol s s' → π.symbol s s') :
    kind.Alike π kind' := by
  cases h with
  | global => exact .global
  | units => exact .units
  | members paired => exact .members (owner _ (.inl rfl) _ paired)
  | exports paired => exact .exports (owner _ (.inr rfl) _ paired)
  | function node => exact .function node
  | block node => exact .block node

theorem Binding.Alike.transfer {binding binding' : Binding} (h : binding.Alike ρ binding')
    (root : ∀ σ, binding.root? = some σ → ∀ σ', ρ.scope σ σ' → π.scope σ σ') :
    binding.Alike π binding' := by
  cases h with
  | direct => exact .direct
  | nameImport unit exported => exact .nameImport unit exported
  | moduleImport unit => exact .moduleImport unit
  | «alias» r scope => exact .alias r (root _ rfl _ scope)
  | «export» r scope => exact .export r (root _ rfl _ scope)

theorem forall₂_transfer {α β : Type} {R S : α → β → Prop} {l : List α} {l' : List β}
    (h : List.Forall₂ R l l') (transfer : ∀ v ∈ l, ∀ w, R v w → S v w) : List.Forall₂ S l l' := by
  induction h with
  | nil => exact .nil
  | cons first _ ih =>
    rw [List.forall_mem_cons] at transfer
    exact .cons (transfer.1 _ first) (ih transfer.2)

theorem Scope.Alike.transfer {s s' : Scope} (h : s.Alike ρ s')
    (owner : ∀ t, s.kind = .members t ∨ s.kind = .exports t → ∀ t', ρ.symbol t t' → π.symbol t t')
    (enclosing : ∀ σ, s.enclosing = some σ → ∀ σ', ρ.scope σ σ' → π.scope σ σ')
    (names : ∀ name t, s.get? name = some t → ∀ t', ρ.symbol t t' → π.symbol t t')
    (slots : ∀ t ∈ s.slots, ∀ t', ρ.symbol t t' → π.symbol t t') : s.Alike π s' where
  kind := h.kind.transfer owner
  enclosing := optionRel_mono h.enclosing fun σ σ' he => enclosing σ he σ'
  ordered := h.ordered
  names name := optionRel_mono (h.names name) fun t t' hn => names name t hn t'
  slots global units := forall₂_transfer (h.slots global units) slots

theorem Scope.Alike.mono {s s' : Scope} (h : s.Alike ρ s') (le : ρ.Le π) : s.Alike π s' :=
  h.transfer (fun _ _ => le.symbol _) (fun _ _ => le.scope _) (fun _ _ _ => le.symbol _)
    fun _ _ => le.symbol _

/-- The second pairing has those pairs of the first one whose first numbers denote something. -/
structure Pairing.Covers (ρ π : Pairing) (a : Arena) : Prop where
  scope : ∀ σ σ', σ < a.scopes.size → ρ.scope σ σ' → π.scope σ σ'
  symbol : ∀ t t', t < a.symbols.size → ρ.symbol t t' → π.symbol t t'

section Covered

variable {a : Arena} (inRange : a.InRange) (covers : ρ.Covers π a)

include inRange covers

theorem Scope.Alike.covered {σ : ScopeId} {s' : Scope} (h : (a.scope σ).Alike ρ s') :
    (a.scope σ).Alike π s' := by
  refine h.transfer (fun t kind t' => covers.symbol t t' (inRange.owner σ t ?_))
    (fun τ he τ' => covers.scope τ τ' (inRange.enclosing σ τ he))
    (fun name t hn t' => covers.symbol t t' (inRange.names σ (name, t) (Entries.mem_of_get? hn)))
    fun t mem t' => covers.symbol t t' (inRange.slots σ t mem)
  rcases kind with kind | kind <;> rw [Arena.owner?, kind]

theorem Symbol.Alike.covered {t : SymbolId} {s' : Symbol} (known : t < a.symbols.size)
    (h : (a.symbol t).Alike ρ s') : (a.symbol t).Alike π s' where
  name := h.name
  binding := h.binding.transfer fun σ root σ' => covers.scope σ σ' (inRange.root t σ root)
  target := h.target
  node := h.node
  ty := h.ty
  exported := h.exported
  scope := covers.scope _ _ (inRange.home t known) h.scope
  members := optionRel_mono h.members fun σ σ' hm => covers.scope σ σ' (inRange.members t σ hm)
  exports := optionRel_mono h.exports fun σ σ' he => covers.scope σ σ' (inRange.exports t σ he)
  resolved := optionRel_mono h.resolved fun s s' hr => covers.symbol s s' (inRange.resolved t s hr)

end Covered

end CellScript
