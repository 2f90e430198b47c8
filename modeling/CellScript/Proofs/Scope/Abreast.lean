import CellScript.Proofs.Scope.Alike
import CellScript.Proofs.Scope.Pass
import CellScript.Proofs.Scope.Indexed

/-!
# Two runs abreast

What the first pass does with a part of a program does not depend on what came before: it reads the
scopes that belong to the part, gives out the next numbers, and leaves everything else alone. Two
runs over the same part, begun in different states, therefore go on abreast. Both end with the same
fault or neither does, and what they have added is alike.

* `TwinRuns` — two states in which the same part of a program is about to be visited
* `TwinRuns.Abreast` — the states of two runs from there, after the same steps
* `TwinRuns.Lockstep` — steps that keep two runs abreast
-/

namespace CellScript

/-- Two states in which the same part of a program is about to be visited. -/
structure TwinRuns where
  first : Building
  second : Building
  /-- Which of the numbers that have been given stand for each other. -/
  old : Pairing
  /-- The scopes that exist already and belong to the part. -/
  opened : ScopeId → ScopeId → Prop

namespace TwinRuns

section

variable (T : TwinRuns)

/-- The scopes are created as the same one counted from where the runs begin. -/
def NewScope (σ σ' : Nat) : Prop :=
  ∃ i : Nat, σ = T.first.arena.scopes.size + i ∧ σ' = T.second.arena.scopes.size + i

/-- The symbols are declared as the same one counted from where the runs begin. -/
def NewSymbol (t t' : Nat) : Prop :=
  ∃ i : Nat, t = T.first.arena.symbols.size + i ∧ t' = T.second.arena.symbols.size + i

/-- Which scopes and symbols stand for each other, those included that are still to come. -/
def pairing : Pairing where
  scope σ σ' := T.old.scope σ σ' ∨ T.NewScope σ σ'
  symbol t t' := T.old.symbol t t' ∨ T.NewSymbol t t'

/-- The scopes belong to the part. -/
def Open (σ σ' : ScopeId) : Prop := T.opened σ σ' ∨ T.NewScope σ σ'

/-- The scopes that belong to the part have been created, and correspond one to one. -/
structure Proper : Prop where
  old : ∀ {σ σ'}, T.opened σ σ' → T.old.scope σ σ'
  first : ∀ {σ σ' : Nat}, T.opened σ σ' → σ < T.first.arena.scopes.size
  second : ∀ {σ σ' : Nat}, T.opened σ σ' → σ' < T.second.arena.scopes.size
  once : ∀ {σ σ' τ τ'}, T.opened σ σ' → T.opened τ τ' → (σ = τ ↔ σ' = τ')

/-- Two arenas to which the same has been added: the scopes of the part and the new symbols are
alike, and nothing else has changed. -/
structure Grown (a a' : Arena) : Prop where
  moreScopes : T.first.arena.scopes.size ≤ a.scopes.size
  sameScopes : a.scopes.size + T.second.arena.scopes.size = a'.scopes.size +
    T.first.arena.scopes.size
  moreSymbols : T.first.arena.symbols.size ≤ a.symbols.size
  sameSymbols : a.symbols.size + T.second.arena.symbols.size =
    a'.symbols.size + T.first.arena.symbols.size
  scope : ∀ σ σ' : Nat, T.Open σ σ' → σ < a.scopes.size → (a.scope σ).Alike T.pairing (a'.scope σ')
  symbol : ∀ t t' : Nat, T.NewSymbol t t' → t < a.symbols.size →
    (a.symbol t).Alike T.pairing (a'.symbol t')
  keepsScope : ∀ σ : Nat, σ < T.first.arena.scopes.size → (∀ σ', ¬ T.opened σ σ') →
    a.scope σ = T.first.arena.scope σ
  keepsScope' : ∀ σ' : Nat, σ' < T.second.arena.scopes.size → (∀ σ, ¬ T.opened σ σ') →
    a'.scope σ' = T.second.arena.scope σ'
  keepsSymbol : ∀ t : Nat, t < T.first.arena.symbols.size → a.symbol t = T.first.arena.symbol t
  keepsSymbol' : ∀ t' : Nat, t' < T.second.arena.symbols.size →
    a'.symbol t' = T.second.arena.symbol t'

/-- The references wait at the same node, and have been met after the same declarations. -/
structure Awaits (p p' : PendingReference) : Prop where
  node : p.node = p'.node
  scope : T.pairing.scope p.scope p'.scope
  reference : p.reference = p'.reference
  visible : T.NewSymbol p.visible p'.visible

end

/-- Under each node both tables hold what they held, or else entries that stand for each other. -/
def Entered {α β : Type} (R : α → β → Prop) (t₀ t : Table NodeId α)
    (t₀' t' : Table NodeId β) : Prop :=
  ∀ n, (t.get? n = t₀.get? n ∧ t'.get? n = t₀'.get? n) ∨
    ∃ v v', t.get? n = some v ∧ t'.get? n = some v' ∧ R v v'

theorem Entered.refl {α β : Type} {R : α → β → Prop} (t : Table NodeId α) (t' : Table NodeId β) :
    Entered R t t t' t' := fun _ => .inl ⟨rfl, rfl⟩

theorem Entered.insert {α β : Type} {R : α → β → Prop} {t₀ t : Table NodeId α}
    {t₀' t' : Table NodeId β} (h : Entered R t₀ t t₀' t') (n : NodeId) {v : α} {v' : β}
    (related : R v v') :
    Entered R t₀ (t.insert n v) t₀' (t'.insert n v') := by
  intro m
  rw [Table.get?_insert, Table.get?_insert]
  split
  · exact .inr ⟨v, v', rfl, rfl, related⟩
  · exact h m

/-- Two runs after the same steps. -/
structure Abreast (T : TwinRuns) (c c' : Building) : Prop where
  arena : T.Grown c.arena c'.arena
  created : Entered T.pairing.scope T.first.analysis.createdScopes c.analysis.createdScopes
    T.second.analysis.createdScopes c'.analysis.createdScopes
  definitions : Entered T.pairing.symbol T.first.analysis.definitions c.analysis.definitions
    T.second.analysis.definitions c'.analysis.definitions
  pending : ∃ l l', c.pending = l ++ T.first.pending ∧ c'.pending = l' ++ T.second.pending ∧
    List.Forall₂ T.Awaits l l'
  units : c.analysis.units = T.first.analysis.units ∧ c'.analysis.units = T.second.analysis.units
  strict : c.recovery = false ∧ c'.recovery = false

variable {T : TwinRuns} {c c' : Building} {a a' : Arena} {σ σ' τ τ' t t' : Nat}

/-! ## Numbers that stand for each other -/

theorem Open.paired (proper : T.Proper) (h : T.Open σ σ') : T.pairing.scope σ σ' :=
  h.imp_left proper.old

theorem Open.eq_iff (proper : T.Proper) (h : T.Open σ σ') (h' : T.Open τ τ') : σ = τ ↔ σ' = τ' := by
  rcases h with h | ⟨i, rfl, rfl⟩
  · rcases h' with h' | ⟨j, rfl, rfl⟩
    · exact proper.once h h'
    · have := proper.first h
      have := proper.second h
      omega
  · rcases h' with h' | ⟨j, rfl, rfl⟩
    · have := proper.first h'
      have := proper.second h'
      omega
    · omega

namespace Grown

theorem open_lt_iff (h : T.Grown a a') (proper : T.Proper) (paired : T.Open σ σ') :
    σ < a.scopes.size ↔ σ' < a'.scopes.size := by
  have := h.moreScopes
  have := h.sameScopes
  rcases paired with paired | ⟨i, rfl, rfl⟩
  · have := proper.first paired
    have := proper.second paired
    omega
  · omega

/-- The next scopes stand for each other. -/
theorem newScope (h : T.Grown a a') : T.NewScope a.scopes.size a'.scopes.size := by
  have := h.moreScopes
  have := h.sameScopes
  exact ⟨a.scopes.size - T.first.arena.scopes.size, by omega, by omega⟩

/-- The next symbols stand for each other. -/
theorem newSymbol (h : T.Grown a a') : T.NewSymbol a.symbols.size a'.symbols.size := by
  have := h.moreSymbols
  have := h.sameSymbols
  exact ⟨a.symbols.size - T.first.arena.symbols.size, by omega, by omega⟩

/-- A name is free in both scopes or in neither. -/
theorem free (h : T.Grown a a') (proper : T.Proper) (paired : T.Open σ σ') (name : String)
    (free : (a.scope σ).get? name = none) : (a'.scope σ').get? name = none := by
  by_cases known : σ < a.scopes.size
  · have names := (h.scope σ σ' paired known).names name
    rw [free] at names
    exact optionRel_none names
  · have unknown := Nat.le_of_not_lt (mt (h.open_lt_iff proper paired).mpr known)
    rw [Arena.scope, Array.getD_eq_getD_getElem?, Array.getElem?_eq_none unknown]
    rfl

/-! ## What keeps arenas grown alike -/

/-- The same change of two scopes of the part. -/
theorem modifyScope (h : T.Grown a a') (proper : T.Proper) (paired : T.Open σ σ')
    {f g : Scope → Scope} (alike : ∀ s s', s.Alike T.pairing s' → (f s).Alike T.pairing (g s')) :
    T.Grown (a.modifyScope σ f) (a'.modifyScope σ' g) where
  moreScopes := by
    rw [Arena.size_scopes_modifyScope]
    exact h.moreScopes
  sameScopes := by
    rw [Arena.size_scopes_modifyScope, Arena.size_scopes_modifyScope]
    exact h.sameScopes
  moreSymbols := h.moreSymbols
  sameSymbols := h.sameSymbols
  scope τ τ' here known := by
    rw [Arena.size_scopes_modifyScope] at known
    have same := here.eq_iff proper paired
    rw [Arena.scope_modifyScope, Arena.scope_modifyScope]
    by_cases he : τ = σ
    · have known' := (h.open_lt_iff proper here).mp known
      rw [if_pos ⟨he, he ▸ known⟩, if_pos ⟨same.mp he, same.mp he ▸ known'⟩]
      exact alike _ _ (h.scope τ τ' here known)
    · rw [if_neg fun hc => he hc.1, if_neg fun hc => he (same.mpr hc.1)]
      exact h.scope τ τ' here known
  symbol := h.symbol
  keepsScope τ known closed := by
    rw [Arena.scope_modifyScope_ne]
    · exact h.keepsScope τ known closed
    · rintro rfl
      rcases paired with opened | ⟨i, rfl, rfl⟩
      · exact closed _ opened
      · omega
  keepsScope' τ' known closed := by
    rw [Arena.scope_modifyScope_ne]
    · exact h.keepsScope' τ' known closed
    · rintro rfl
      rcases paired with opened | ⟨i, rfl, rfl⟩
      · exact closed _ opened
      · omega
  keepsSymbol := h.keepsSymbol
  keepsSymbol' := h.keepsSymbol'

/-- The same new symbol on both sides. -/
theorem push (h : T.Grown a a') {s s' : Symbol} (alike : s.Alike T.pairing s') :
    T.Grown { a with symbols := a.symbols.push s } { a' with symbols := a'.symbols.push s' } := by
  have symbol : ∀ (b : Arena) (s : Symbol) (t : Nat),
      Arena.symbol { b with symbols := b.symbols.push s } t =
        if t = b.symbols.size then s else b.symbol t := by
    intro b s t
    simp only [Arena.symbol, Array.getD_eq_getD_getElem?, Array.getElem?_push]
    split <;> rfl
  have more := h.moreSymbols
  have same := h.sameSymbols
  refine ⟨h.moreScopes, h.sameScopes, ?_, ?_, h.scope, fun t t' new known => ?_, h.keepsScope,
    h.keepsScope', fun t known => ?_, fun t' known => ?_⟩
  · simp only [Array.size_push]
    omega
  · simp only [Array.size_push]
    omega
  · rw [symbol, symbol]
    simp only [Array.size_push] at known
    obtain ⟨i, rfl, rfl⟩ := new
    by_cases he : T.first.arena.symbols.size + i = a.symbols.size
    · rw [if_pos he, if_pos (by omega)]
      exact alike
    · rw [if_neg he, if_neg (by omega)]
      exact h.symbol _ _ ⟨i, rfl, rfl⟩ (by omega)
  · rw [symbol, if_neg (by omega)]
    exact h.keepsSymbol t known
  · rw [symbol, if_neg (by omega)]
    exact h.keepsSymbol' t' known

/-- The same declaration in two scopes of the part. -/
theorem withDeclared (h : T.Grown a a') (proper : T.Proper) (paired : T.Open σ σ')
    {d d' : Declaration} (alike : d.Alike T.pairing d') :
    T.Grown (a.withDeclared σ d) (a'.withDeclared σ' d') := by
  have new : T.pairing.symbol a.symbols.size a'.symbols.size := .inr h.newSymbol
  refine (h.push (.declared alike (paired.paired proper))).modifyScope proper paired
    fun s s' same => ?_
  rw [← alike.name]
  exact same.declare d.name new

/-- The same new scope on both sides. -/
theorem newScopes (h : T.Grown a a') (proper : T.Proper) {kind kind' : ScopeKind}
    (alike : kind.Alike T.pairing kind') (around : T.pairing.scope σ σ') (ordered : Bool) :
    T.Grown (a.newScope kind (some σ) ordered).2 (a'.newScope kind' (some σ') ordered).2 := by
  have more := h.moreScopes
  have same := h.sameScopes
  refine ⟨?_, ?_, h.moreSymbols, h.sameSymbols, fun τ τ' here known => ?_, h.symbol,
    fun τ known closed => ?_, fun τ' known closed => ?_, h.keepsSymbol, h.keepsSymbol'⟩
  · simp only [Arena.newScope, Array.size_push]
    omega
  · simp only [Arena.newScope, Array.size_push]
    omega
  · simp only [Arena.newScope, Array.size_push] at known
    have next := here.eq_iff proper (.inr h.newScope)
    rw [Arena.scope_newScope, Arena.scope_newScope]
    by_cases he : τ = a.scopes.size
    · rw [if_pos he, if_pos (next.mp he)]
      exact .bare alike around ordered
    · rw [if_neg he, if_neg (fun hc => he (next.mpr hc))]
      exact h.scope τ τ' here (by omega)
  · rw [Arena.scope_newScope, if_neg (Nat.ne_of_lt (Nat.lt_of_lt_of_le known more))]
    exact h.keepsScope τ known closed
  · rw [Arena.scope_newScope, if_neg (Nat.ne_of_lt (Nat.lt_of_lt_of_le known (by omega)))]
    exact h.keepsScope' τ' known closed

/-- New symbols come to own scopes that stand for each other. -/
theorem setMembers (h : T.Grown a a') {s s' : Nat} (new : T.NewSymbol s s')
    (paired : T.pairing.scope σ σ') : T.Grown (a.setMembers s σ) (a'.setMembers s' σ') := by
  have more := h.moreSymbols
  have same := h.sameSymbols
  obtain ⟨i, rfl, rfl⟩ := new
  have size : ∀ (b : Arena) (t : SymbolId) (τ : ScopeId),
      (b.setMembers t τ).symbols.size = b.symbols.size := by
    intro b t τ
    simp only [Arena.setMembers, Arena.modifySymbol, Array.size_modify]
  refine ⟨h.moreScopes, h.sameScopes, ?_, ?_, h.scope, fun t t' new known => ?_, h.keepsScope,
    h.keepsScope', fun t known => ?_, fun t' known => ?_⟩
  · rw [size]
    exact more
  · rw [size, size]
    exact same
  · rw [size] at known
    have alike := h.symbol t t' new known
    obtain ⟨j, rfl, rfl⟩ := new
    rw [Arena.setMembers, Arena.setMembers, Arena.symbol_modifySymbol, Arena.symbol_modifySymbol]
    by_cases he : j = i
    · subst he
      have known' : T.second.arena.symbols.size + j < a'.symbols.size := by omega
      rw [if_pos ⟨rfl, known⟩, if_pos ⟨rfl, known'⟩]
      exact { alike with members := .some paired }
    · rw [if_neg (fun hc => he (Nat.add_left_cancel hc.1)),
        if_neg (fun hc => he (Nat.add_left_cancel hc.1))]
      exact alike
  · rw [Arena.setMembers, Arena.symbol_modifySymbol_ne _ (Nat.ne_of_lt (Nat.lt_add_right i known))]
    exact h.keepsSymbol t known
  · rw [Arena.setMembers, Arena.symbol_modifySymbol_ne _ (Nat.ne_of_lt (Nat.lt_add_right i known))]
    exact h.keepsSymbol' t' known

end Grown

end TwinRuns

/-! ## Steps without recovery -/

/-- The state after the position of a node was noted. -/
def Building.noted (b : Building) (node : Node) : Building :=
  if node.span.hasPosition then
    b.mapAnalysis fun a => { a with positions := (node.id, node.span) :: a.positions }
  else b

namespace Build

variable {b b' : Building}

theorem recordPosition_eq (node : Node) (b : Building) :
    recordPosition node b = .ok (⟨⟩, b.noted node) := by
  unfold recordPosition Building.noted
  split <;> rfl

theorem enter_eq (node : Node) (σ : ScopeId) (b : Building) : enter node σ b =
    .ok (⟨⟩,
    (b.mapAnalysis fun a => { a with nodeScopes := a.nodeScopes.insert node.id σ }).noted node) :=
  recordPosition_eq node _

/-- The state after a declaration. -/
def declaring (σ : ScopeId) (d : Declaration) (b : Building) : Building :=
  (b.mapAnalysis fun a =>
    { a with
      arena := a.arena.withDeclared σ d
      definitions := a.definitions.insert d.node.id a.arena.symbols.size }).noted d.node

/-- **Without recovery a declaration succeeds exactly if the name is free.** -/
theorem declare_eq_ok {σ : ScopeId} {d : Declaration} {id? : Option SymbolId}
    (strict : b.recovery = false) : declare σ d b = .ok (id?, b') ↔
      (b.arena.scope σ).get? d.name = none ∧ id? = some b.arena.symbols.size ∧
        b' = declaring σ d b := by
  simp only [declare, bind_eq_ok, get_eq_ok]
  cases hd : b.analysis.arena.declare σ d with
  | error fault =>
    have taken : (b.arena.scope σ).get? d.name ≠ none := by
      intro free
      have ok := (b.arena.declare_eq_ok_iff σ d _ _).mpr ⟨free, rfl, rfl⟩
      rw [show b.arena.declare σ d = _ from hd] at ok
      cases ok
    constructor
    · rintro ⟨_, _, ⟨rfl, rfl⟩, h⟩
      simp only [hd, bind_eq_ok] at h
      obtain ⟨_, _, hr, -⟩ := h
      obtain ⟨recovery, -⟩ : _ ∧ Steps [] b _ := report_steps hr
      rw [strict] at recovery
      cases recovery
    · exact fun h => absurd h.1 taken
  | ok p =>
    obtain ⟨id, arena⟩ := p
    obtain ⟨free, rfl, rfl⟩ := (b.arena.declare_eq_ok_iff σ d id arena).mp hd
    constructor
    · rintro ⟨_, _, ⟨rfl, rfl⟩, h⟩
      simp only [hd, bind_eq_ok, modifyAnalysis_eq_ok, recordPosition_eq, pure_eq_ok] at h
      obtain ⟨_, _, rfl, _, _, hp, rfl, rfl⟩ := h
      cases hp
      exact ⟨free, rfl, rfl⟩
    · rintro ⟨-, rfl, rfl⟩
      refine ⟨b, b, ⟨rfl, rfl⟩, ?_⟩
      simp only [hd, bind_eq_ok, modifyAnalysis_eq_ok, pure_eq_ok]
      exact ⟨⟨⟩, _, rfl, ⟨⟩, _, recordPosition_eq _ _, trivial, rfl⟩

/-- **Without recovery a symbol is shown exactly if the name is free.** -/
theorem publish_eq_ok {exports : ScopeId} {name : String} {s : SymbolId} {u : PUnit}
    (strict : b.recovery = false) : publish exports name s b = .ok (u, b') ↔
      (b.arena.scope exports).get? name = none ∧ b' = b.mapAnalysis fun a =>
        { a with arena := a.arena.modifyScope exports fun scope =>
            { scope with names := scope.names.insert name s } } := by
  simp only [publish, bind_eq_ok, get_eq_ok]
  cases hp : b.analysis.arena.publish exports name s with
  | error fault =>
    have taken : (b.arena.scope exports).get? name ≠ none := by
      intro free
      have ok := (b.arena.publish_eq_ok_iff exports name s _).mpr ⟨free, rfl⟩
      rw [show b.arena.publish exports name s = _ from hp] at ok
      cases ok
    constructor
    · rintro ⟨_, _, ⟨rfl, rfl⟩, h⟩
      simp only [hp] at h
      obtain ⟨recovery, -⟩ : _ ∧ Steps [] b _ := report_steps h
      rw [strict] at recovery
      cases recovery
    · exact fun h => absurd h.1 taken
  | ok arena =>
    obtain ⟨free, rfl⟩ := (b.arena.publish_eq_ok_iff exports name s arena).mp hp
    constructor
    · rintro ⟨_, _, ⟨rfl, rfl⟩, h⟩
      simp only [hp, modifyAnalysis_eq_ok] at h
      exact ⟨free, h⟩
    · rintro ⟨-, rfl⟩
      refine ⟨b, b, ⟨rfl, rfl⟩, ?_⟩
      simp only [hp, modifyAnalysis_eq_ok]
      rfl

end Build

/-! ## Steps on both sides -/

namespace TwinRuns

open Build

variable {T : TwinRuns} {c c' : Building} {σ σ' : ScopeId} {α α' β β' : Type}

/-- Where the first step succeeds, so does the second one, with a related result, and the runs stay
abreast. -/
def Lockstep (T : TwinRuns) (R : α → α' → Prop) (x : Build α) (x' : Build α') : Prop :=
  ∀ ⦃c c' : Building⦄, T.Abreast c c' → ∀ ⦃v d⦄, x c = .ok (v, d) →
    ∃ v' d', x' c' = .ok (v', d') ∧ R v v' ∧ T.Abreast d d'

/-- Steps whose results say nothing. -/
abbrev Pass (T : TwinRuns) (x x' : Build PUnit) : Prop := T.Lockstep (fun _ _ => True) x x'

namespace Lockstep

theorem pure {R : α → α' → Prop} {v : α} {v' : α'} (h : R v v') :
    T.Lockstep R (Pure.pure v) (Pure.pure v') := by
  intro c c' abreast w d hw
  rw [pure_eq_ok] at hw
  obtain ⟨rfl, rfl⟩ := hw
  exact ⟨v', c', rfl, h, abreast⟩

theorem bind {R : α → α' → Prop} {S : β → β' → Prop} {x : Build α} {x' : Build α'} {f : α → Build β}
    {f' : α' → Build β'} (h : T.Lockstep R x x') (rest : ∀ v v', R v v' →
      T.Lockstep S (f v) (f' v')) :
    T.Lockstep S (x >>= f) (x' >>= f') := by
  intro c c' abreast w d hw
  rw [bind_eq_ok] at hw
  obtain ⟨v, c₁, hx, hf⟩ := hw
  obtain ⟨v', c₁', hx', related, abreast₁⟩ := h abreast hx
  obtain ⟨w', d', hf', related', abreast'⟩ := rest v v' related abreast₁ hf
  exact ⟨w', d', bind_eq_ok.mpr ⟨v', c₁', hx', hf'⟩, related', abreast'⟩

/-- One step behind the other. -/
theorem seq {R : α → α' → Prop} {S : β → β' → Prop} {x : Build α} {x' : Build α'} {y : Build β}
    {y' : Build β'} (h : T.Lockstep R x x') (rest : T.Lockstep S y y') :
    T.Lockstep S (x >>= fun _ => y) (x' >>= fun _ => y') := h.bind fun _ _ _ => rest

end Lockstep

/-- Nothing has happened that keeps runs from being abreast. -/
theorem Abreast.noted (h : T.Abreast c c') (node : Node) :
    T.Abreast (c.noted node) (c'.noted node) := by
  unfold Building.noted
  split
  · exact { h with }
  · exact h

/-- Changes of the analyses that keep runs abreast. -/
theorem modifyAnalysis_lockstep {f g : Analysis → Analysis}
    (h : ∀ c c', T.Abreast c c' → T.Abreast (c.mapAnalysis f) (c'.mapAnalysis g)) :
    T.Pass (modifyAnalysis f) (modifyAnalysis g) := by
  intro c c' abreast v d hf
  rw [modifyAnalysis_eq_ok] at hf
  subst hf
  exact ⟨⟨⟩, _, rfl, trivial, h c c' abreast⟩

theorem recordPosition_lockstep (node : Node) :
    T.Pass (recordPosition node) (recordPosition node) := by
  intro c c' abreast v d h
  rw [recordPosition_eq] at h
  cases h
  exact ⟨⟨⟩, _, recordPosition_eq node c', trivial, abreast.noted node⟩

theorem enter_lockstep (node : Node) (σ σ' : ScopeId) : T.Pass (enter node σ) (enter node σ') := by
  intro c c' abreast v d h
  rw [enter_eq] at h
  cases h
  refine ⟨⟨⟩, _, enter_eq node σ' c', trivial, Abreast.noted ?_ node⟩
  exact ⟨abreast.arena, abreast.created, abreast.definitions, abreast.pending, abreast.units,
    abreast.strict⟩

theorem await_lockstep (node : Node) (r : Reference) (paired : T.pairing.scope σ σ') :
    T.Pass (await node σ r) (await node σ' r) := by
  intro c c' abreast v d h
  cases h
  refine ⟨⟨⟩, _, rfl, trivial, { abreast with pending := ?_ }⟩
  obtain ⟨l, l', hl, hl', awaits⟩ := abreast.pending
  refine ⟨_ :: l, _ :: l', congrArg _ hl, congrArg _ hl', .cons ⟨rfl, paired, rfl, ?_⟩ awaits⟩
  exact abreast.arena.newSymbol

/-- The same declaration in scopes of the part. -/
theorem declare_lockstep (proper : T.Proper) (paired : T.Open σ σ') {d d' : Declaration}
    (alike : d.Alike T.pairing d') :
    T.Lockstep (Option.Rel T.NewSymbol) (declare σ d) (declare σ' d') := by
  intro c c' abreast v b h
  obtain ⟨free, rfl, rfl⟩ := (declare_eq_ok abreast.strict.1).mp h
  have free' := abreast.arena.free proper paired d.name free
  rw [alike.name] at free'
  refine ⟨_, _, (declare_eq_ok abreast.strict.2).mpr ⟨free', rfl, rfl⟩,
    .some abreast.arena.newSymbol, ?_⟩
  unfold declaring
  rw [← alike.node]
  refine Abreast.noted ?_ d.node
  exact { abreast with
    arena := abreast.arena.withDeclared proper paired alike
    definitions := abreast.definitions.insert d.node.id (.inr abreast.arena.newSymbol) }

/-- The same new scope, inside scopes that stand for each other. -/
theorem createScope_lockstep (proper : T.Proper) (node : NodeId) {kind kind' : ScopeKind}
    (alike : kind.Alike T.pairing kind') (paired : T.pairing.scope σ σ') (ordered : Bool) :
    T.Lockstep T.NewScope (createScope node kind σ ordered)
      (createScope node kind' σ' ordered) := by
  intro c c' abreast v d h
  obtain ⟨rfl, rfl⟩ := createScope_eq_ok.mp h
  refine ⟨_, _, createScope_eq_ok.mpr ⟨rfl, rfl⟩, abreast.arena.newScope, ?_⟩
  exact { abreast with
    arena := abreast.arena.newScopes proper alike paired ordered
    created := abreast.created.insert node (.inr abreast.arena.newScope) }

/-- Members for new symbols. -/
theorem memberScope_lockstep (proper : T.Proper) (node : NodeId) {s s' : SymbolId}
    (new : T.NewSymbol s s') (paired : T.pairing.scope σ σ') :
    T.Lockstep T.NewScope (memberScope s σ node) (memberScope s' σ' node) := by
  refine (createScope_lockstep proper node (.members (.inr new)) paired false).bind
    fun τ τ' created => ?_
  refine (modifyAnalysis_lockstep fun c c' abreast => ?_).seq (.pure created)
  exact { abreast with arena := abreast.arena.setMembers new (.inr created) }

/-- Symbols that stand for each other become visible under the same name. -/
theorem publish_lockstep (proper : T.Proper) (name : String) (paired : T.Open σ σ')
    {s s' : SymbolId} (shown : T.pairing.symbol s s') :
    T.Pass (publish σ name s) (publish σ' name s') := by
  intro c c' abreast v d h
  obtain ⟨free, rfl⟩ := (publish_eq_ok abreast.strict.1).mp h
  refine ⟨⟨⟩, _, (publish_eq_ok abreast.strict.2).mpr
    ⟨abreast.arena.free proper paired name free, rfl⟩, trivial, ?_⟩
  exact { abreast with
    arena := abreast.arena.modifyScope proper paired fun _ _ alike => alike.publish name shown }

end TwinRuns

end CellScript
