import CellScript.Proofs.Scope.Declared
import CellScript.Proofs.Scope.Lockstep

/-!
# Units in another order

When all units have been declared they are visited one after the other, and a visit reads and
changes only what belongs to the unit. So it does not matter which units were visited before: the
visits of a unit in two runs stay abreast, wherever they begin.

* `Build.Frame` — what visits of units leave alone
* `TwinRuns.visitUnit_lockstep` — two visits of a unit
* `Build.Twice` — two runs over the same units, each in its own order
* `Build.Twice.abreast` — the visits of a unit in both runs
* `Build.Twice.visitUnits_ok` — the units can be visited in either order or in none
-/

namespace CellScript

namespace Build

variable {b b' c c' d d' : Building} {u : SourceUnit} {ps qs : List (SourceUnit × SymbolId)}

/-- Visits a unit that has been declared. -/
def visitUnit (u : SourceUnit) (t : SymbolId) : Build PUnit :=
  match u.kind with
  | .module m => visitModule m t
  | .interactive sections => visitInteractive sections t

theorem visitUnits_cons_eq (u : SourceUnit) (t : SymbolId) (rest : List (SourceUnit × SymbolId)) :
    visitUnits ((u, t) :: rest) = visitUnit u t >>= fun _ => visitUnits rest := by
  simp only [visitUnits, visitUnit]
  cases u.kind <;> rfl

theorem visitUnits_append (ps qs : List (SourceUnit × SymbolId)) {v : PUnit} :
    visitUnits (ps ++ qs) b = .ok (v, b') ↔
      ∃ c, visitUnits ps b = .ok (⟨⟩, c) ∧ visitUnits qs c = .ok (⟨⟩, b') := by
  induction ps generalizing b with
  | nil => exact ⟨fun h => ⟨b, rfl, h⟩, fun ⟨_, h, h'⟩ => (by cases h; exact h')⟩
  | cons pair rest ih =>
    rw [List.cons_append, visitUnits_cons_eq, visitUnits_cons_eq]
    simp only [bind_eq_ok, ih]
    constructor
    · rintro ⟨_, c₁, h₁, c, h₂, h₃⟩
      exact ⟨c, ⟨_, c₁, h₁, h₂⟩, h₃⟩
    · rintro ⟨c, ⟨_, c₁, h₁, h₂⟩, h₃⟩
      exact ⟨_, c₁, h₁, c, h₂, h₃⟩

/-- What happens when a module is visited that owns scopes. -/
theorem visitModule_eq (m : Module) {t : SymbolId} {σ τ : ScopeId}
    (members : (b.arena.symbol t).members = some σ)
    (exports : (b.arena.symbol t).exports = some τ) :
    visitModule m t b = (declareImports σ m.imports >>= fun _ =>
      declareAliases σ m.aliases >>= fun _ =>
      visitLibraries σ τ m.libraries >>= fun _ => declareExports σ τ m.exports) b := by
  rw [visitModule, bind_ok (get_eq_ok.mpr ⟨rfl, rfl⟩)]
  simp only [members, exports]

/-- What happens when an interactive unit is visited that owns a scope. -/
theorem visitInteractive_eq (sections : List Section) {t : SymbolId} {σ : ScopeId}
    (members : (b.arena.symbol t).members = some σ) :
    visitInteractive sections t b = visitSections σ sections b := by
  rw [visitInteractive, bind_ok (get_eq_ok.mpr ⟨rfl, rfl⟩)]
  simp only [members]

end Build

/-- The symbol owns the scope. -/
def Building.Houses (b : Building) (t : SymbolId) (σ : ScopeId) : Prop :=
  (b.arena.symbol t).members = some σ ∨ (b.arena.symbol t).exports = some σ

/-! ## Visits of a unit abreast -/

namespace TwinRuns

open Build

variable {T : TwinRuns} {c c' : Building} {u : SourceUnit} {t t' : SymbolId}

/-- The unit has been declared on both sides, and its scopes belong to the part. -/
structure Hosts (T : TwinRuns) (u : SourceUnit) (t t' : SymbolId) : Prop where
  known : t < T.first.arena.symbols.size
  known' : t' < T.second.arena.symbols.size
  members : ∃ σ σ', (T.first.arena.symbol t).members = some σ ∧
    (T.second.arena.symbol t').members = some σ' ∧ T.opened σ σ'
  exports : u.kind.isModule = true → ∃ τ τ', (T.first.arena.symbol t).exports = some τ ∧
    (T.second.arena.symbol t').exports = some τ' ∧ T.opened τ τ'

/-- **Two runs visit a unit in lockstep.** -/
theorem visitUnit_lockstep (proper : T.Proper)
    (units : T.old.scope Analysis.unitsScope Analysis.unitsScope) (hosts : T.Hosts u t t') :
    T.Pass (visitUnit u t) (visitUnit u t') := by
  intro c c' abreast v d h
  have same := abreast.arena.keepsSymbol t hosts.known
  have same' := abreast.arena.keepsSymbol' t' hosts.known'
  obtain ⟨σ, σ', members, members', opened⟩ := hosts.members
  rw [← same] at members
  rw [← same'] at members'
  cases hk : u.kind with
  | module m =>
    obtain ⟨τ, τ', exports, exports', shown⟩ := hosts.exports (by rw [hk]; rfl)
    rw [← same] at exports
    rw [← same'] at exports'
    simp only [visitUnit, hk] at h ⊢
    rw [visitModule_eq m members exports] at h
    rw [visitModule_eq m members' exports']
    have inside : T.Open σ σ' := .inl opened
    have outside : T.Open τ τ' := .inl shown
    exact ((declareImports_lockstep proper inside m.imports).seq <|
      (declareAliases_lockstep proper inside m.aliases).seq <|
      (visitLibraries_lockstep proper inside outside m.libraries).seq <|
      declareExports_lockstep proper (inside.paired proper) outside m.exports) abreast h
  | interactive sections =>
    simp only [visitUnit, hk] at h ⊢
    rw [visitInteractive_eq sections members] at h
    rw [visitInteractive_eq sections members']
    exact visitSections_lockstep proper (.inl opened) (.inl units) sections abreast h

/-- **Two runs visit units in lockstep.** -/
theorem visitUnits_lockstep (proper : T.Proper)
    (units : T.old.scope Analysis.unitsScope Analysis.unitsScope)
    {ps ps' : List (SourceUnit × SymbolId)}
    (hosts : List.Forall₂ (fun p p' => p.1 = p'.1 ∧ T.Hosts p.1 p.2 p'.2) ps ps') :
    T.Pass (visitUnits ps) (visitUnits ps') := by
  induction hosts with
  | nil => exact .pure trivial
  | cons first _ ih =>
    rename_i p p' rest rest' _
    obtain ⟨u, t⟩ := p
    obtain ⟨u', t'⟩ := p'
    obtain ⟨rfl, first⟩ := first
    rw [visitUnits_cons_eq, visitUnits_cons_eq]
    exact (visitUnit_lockstep proper units first).seq ih

/-- Runs are abreast where they begin. -/
theorem abreast_start (strict : T.first.recovery = false)
    (strict' : T.second.recovery = false)
    (alike : ∀ σ σ', T.opened σ σ' →
      (T.first.arena.scope σ).Alike T.pairing (T.second.arena.scope σ')) :
    T.Abreast T.first T.second where
  arena :=
    { moreScopes := Nat.le_refl _
      sameScopes := Nat.add_comm ..
      moreSymbols := Nat.le_refl _
      sameSymbols := Nat.add_comm ..
      scope := by
        rintro σ σ' (opened | ⟨i, rfl, rfl⟩) known
        · exact alike σ σ' opened
        · exact absurd known (Nat.not_lt.mpr (Nat.le_add_right ..))
      symbol := by
        rintro t t' ⟨i, rfl, rfl⟩ known
        exact absurd known (Nat.not_lt.mpr (Nat.le_add_right ..))
      keepsScope := fun _ _ _ => rfl
      keepsScope' := fun _ _ _ => rfl
      keepsSymbol := fun _ _ => rfl
      keepsSymbol' := fun _ _ => rfl }
  created := .refl _ _
  definitions := .refl _ _
  pending := ⟨[], [], rfl, rfl, .nil⟩
  units := ⟨rfl, rfl⟩
  strict := ⟨strict, strict'⟩

end TwinRuns

/-! ## What visits leave alone -/

namespace Build

variable {b b' c c' d d' : Building} {u : SourceUnit} {ps qs : List (SourceUnit × SymbolId)}

/-- Between two states nothing has changed but the scopes in `S`, and there may be more. -/
structure Frame (S : ScopeId → Prop) (c d : Building) : Prop where
  moreScopes : c.arena.scopes.size ≤ d.arena.scopes.size
  moreSymbols : c.arena.symbols.size ≤ d.arena.symbols.size
  scope : ∀ σ : Nat, σ < c.arena.scopes.size → ¬ S σ → d.arena.scope σ = c.arena.scope σ
  symbol : ∀ t : Nat, t < c.arena.symbols.size → d.arena.symbol t = c.arena.symbol t
  units : d.analysis.units = c.analysis.units
  strict : d.recovery = false
  pending : ∃ l, d.pending = l ++ c.pending

theorem Frame.refl {S : ScopeId → Prop} (strict : c.recovery = false) : Frame S c c :=
  ⟨Nat.le_refl _, Nat.le_refl _, fun _ _ _ => rfl, fun _ _ => rfl, rfl, strict, [], rfl⟩

theorem Frame.trans {S S' : ScopeId → Prop} (h : Frame S b c) (h' : Frame S' c d) :
    Frame (fun σ => S σ ∨ S' σ) b d where
  moreScopes := Nat.le_trans h.moreScopes h'.moreScopes
  moreSymbols := Nat.le_trans h.moreSymbols h'.moreSymbols
  scope σ known outside := by
    rw [not_or] at outside
    rw [h'.scope σ (Nat.lt_of_lt_of_le known h.moreScopes) outside.2, h.scope σ known outside.1]
  symbol t known := by
    rw [h'.symbol t (Nat.lt_of_lt_of_le known h.moreSymbols), h.symbol t known]
  units := h'.units.trans h.units
  strict := h'.strict
  pending := by
    obtain ⟨l, hl⟩ := h.pending
    obtain ⟨l', hl'⟩ := h'.pending
    exact ⟨l' ++ l, by rw [hl', hl, List.append_assoc]⟩

/-- The unit has been declared. -/
structure Hosted (b : Building) (u : SourceUnit) (t : SymbolId) : Prop where
  known : t < b.arena.symbols.size
  members : ∃ σ, (b.arena.symbol t).members = some σ
  exports : u.kind.isModule = true → ∃ τ, (b.arena.symbol t).exports = some τ
  created : ∀ σ, b.Houses t σ → σ < b.arena.scopes.size

theorem Frame.houses {S : ScopeId → Prop} (frame : Frame S b c) {t : SymbolId}
    (known : t < b.arena.symbols.size) (σ : ScopeId) : c.Houses t σ ↔ b.Houses t σ := by
  rw [Building.Houses, Building.Houses, frame.symbol t known]

theorem Hosted.stays {S : ScopeId → Prop} {t : SymbolId} (h : Hosted b u t) (frame : Frame S b c) :
    Hosted c u t := by
  have same := frame.symbol t h.known
  refine ⟨Nat.lt_of_lt_of_le h.known frame.moreSymbols, same ▸ h.members, same ▸ h.exports,
    fun σ houses => ?_⟩
  rw [frame.houses h.known] at houses
  exact Nat.lt_of_lt_of_le (h.created σ houses) frame.moreScopes

/-- Only modules have exports, and nothing has been exported yet. -/
theorem Lodges.shows {t : SymbolId} {m σ : ScopeId} (h : Lodges b u t m)
    (exports : (b.arena.symbol t).exports = some σ) : u.kind.isModule = true ∧
      σ < b.arena.scopes.size ∧ Analysis.unitsScope < σ ∧
      b.arena.scope σ = ⟨.exports t, some Analysis.unitsScope, false, [], []⟩ := by
  cases hm : u.kind.isModule with
  | false =>
    rw [h.closed hm] at exports
    cases exports
  | true =>
    obtain ⟨e, he, facts⟩ := h.exports hm
    rw [he] at exports
    cases exports
    exact ⟨rfl, facts⟩

theorem Lodges.hosted {t : SymbolId} {m : ScopeId} (h : Lodges b u t m) : Hosted b u t := by
  refine ⟨h.known, ⟨m, h.members⟩, fun isModule => (h.exports isModule).imp fun _ e => e.1, ?_⟩
  rintro σ (members | exports)
  · rw [h.members] at members
    cases members
    exact h.created
  · exact (h.shows exports).2.1

/-- A run beside itself. -/
def solo (c : Building) (S : ScopeId → Prop) : TwinRuns := ⟨c, c, .same, fun σ σ' => σ = σ' ∧ S σ⟩

theorem solo_proper {S : ScopeId → Prop} (created : ∀ σ, S σ → σ < c.arena.scopes.size) :
    (solo c S).Proper where
  old h := h.1
  first h := created _ h.2
  second h := h.1 ▸ created _ h.2
  once h h' := by rw [h.1, h'.1]

theorem solo_start {S : ScopeId → Prop} (strict : c.recovery = false) : (solo c S).Abreast c c :=
  TwinRuns.abreast_start (T := solo c S) strict strict fun _ _ opened =>
    opened.1 ▸ (Scope.alike_same _).mono ⟨fun _ _ => .inl, fun _ _ => .inl⟩

/-- **Visits of units leave alone what does not belong to the units.** -/
theorem visitUnits_frame {v : PUnit} (strict : c.recovery = false)
    (hosted : ∀ p ∈ ps, Hosted c p.1 p.2) (run : visitUnits ps c = .ok (v, d)) :
    Frame (fun σ => ∃ p ∈ ps, c.Houses p.2 σ) c d := by
  have created : ∀ σ, (∃ p ∈ ps, c.Houses p.2 σ) → σ < c.arena.scopes.size :=
    fun σ ⟨p, mem, houses⟩ => (hosted p mem).created σ houses
  have hosts : List.Forall₂ (fun p p' : SourceUnit × SymbolId => p.1 = p'.1 ∧
      (solo c fun σ => ∃ p ∈ ps, c.Houses p.2 σ).Hosts p.1 p.2 p'.2) ps ps := by
    refine List.forall₂_same.mpr fun p mem =>
      ⟨rfl, (hosted p mem).known, (hosted p mem).known, ?_, ?_⟩
    · obtain ⟨σ, hσ⟩ := (hosted p mem).members
      exact ⟨σ, σ, hσ, hσ, rfl, p, mem, .inl hσ⟩
    · intro isModule
      obtain ⟨τ, hτ⟩ := (hosted p mem).exports isModule
      exact ⟨τ, τ, hτ, hτ, rfl, p, mem, .inr hτ⟩
  obtain ⟨v', d', run', -, abreast⟩ := TwinRuns.visitUnits_lockstep (solo_proper created) rfl hosts
    (solo_start strict) run
  obtain ⟨l, -, hl, -⟩ := abreast.pending
  exact ⟨abreast.arena.moreScopes, abreast.arena.moreSymbols,
    fun σ known outside => abreast.arena.keepsScope σ known fun σ' opened => outside opened.2,
    abreast.arena.keepsSymbol, abreast.units.1, abreast.strict.1, l, hl⟩

/-- Nothing in the unit has been visited. -/
structure Vacant (c : Building) (u : SourceUnit) (t : SymbolId) : Prop extends Hosted c u t where
  strict : c.recovery = false
  inside : ∀ σ, (c.arena.symbol t).members = some σ →
    c.arena.scope σ = ⟨.members t, some Analysis.unitsScope, false, [], []⟩
  shown : ∀ τ, (c.arena.symbol t).exports = some τ →
    c.arena.scope τ = ⟨.exports t, some Analysis.unitsScope, false, [], []⟩

theorem Lodges.vacant {t : SymbolId} {m : ScopeId} (h : Lodges b u t m)
    (strict : b.recovery = false) :
    Vacant b u t where
  toHosted := h.hosted
  strict := strict
  inside σ hσ := by
    rw [h.members] at hσ
    cases hσ
    exact h.inside
  shown τ hτ := (h.shows hτ).2.2.2

/-- A scope has one owner. -/
theorem Vacant.owner {t t' : SymbolId} {u' : SourceUnit} (h : Vacant b u t) (h' : Vacant b u' t')
    {σ : ScopeId} (houses : b.Houses t σ) (houses' : b.Houses t' σ) : t = t' := by
  rcases houses with hm | he
  · have kind := h.inside σ hm
    rcases houses' with hm' | he'
    · rw [h'.inside σ hm'] at kind
      cases kind
      rfl
    · rw [h'.shown σ he'] at kind
      cases kind
  · have kind := h.shown σ he
    rcases houses' with hm' | he'
    · rw [h'.inside σ hm'] at kind
      cases kind
    · rw [h'.shown σ he'] at kind
      cases kind
      rfl

theorem Vacant.stays {S : ScopeId → Prop} {t : SymbolId} (h : Vacant b u t) (frame : Frame S b c)
    (apart : ∀ σ, b.Houses t σ → ¬ S σ) : Vacant c u t where
  toHosted := h.toHosted.stays frame
  strict := frame.strict
  inside σ hσ := by
    rw [frame.symbol t h.known] at hσ
    rw [frame.scope σ (h.created σ (.inl hσ)) (apart σ (.inl hσ))]
    exact h.inside σ hσ
  shown τ hτ := by
    rw [frame.symbol t h.known] at hτ
    rw [frame.scope τ (h.created τ (.inr hτ)) (apart τ (.inr hτ))]
    exact h.shown τ hτ

/-- The scopes have the same use for a unit on both sides. -/
def Rooms (c c' : Building) (t t' : SymbolId) (σ σ' : ScopeId) : Prop :=
  (c.arena.symbol t).members = some σ ∧ (c'.arena.symbol t').members = some σ' ∨
    (c.arena.symbol t).exports = some σ ∧ (c'.arena.symbol t').exports = some σ'

theorem Rooms.houses {t t' : SymbolId} {σ σ' : ScopeId} (h : Rooms c c' t t' σ σ') :
    c.Houses t σ ∧ c'.Houses t' σ' :=
  ⟨h.imp And.left And.left, h.imp And.right And.right⟩

/-- Members are not exports. -/
theorem Vacant.apart {t : SymbolId} {σ : ScopeId} (h : Vacant c u t)
    (members : (c.arena.symbol t).members = some σ)
    (exports : (c.arena.symbol t).exports = some σ) :
    False := by
  have kind := h.inside σ members
  rw [h.shown σ exports] at kind
  cases kind

theorem Rooms.eq_iff {t t' : SymbolId} {σ σ' τ τ' : ScopeId} (vacant : Vacant c u t)
    (vacant' : Vacant c' u t') (h : Rooms c c' t t' σ σ') (h' : Rooms c c' t t' τ τ') :
    σ = τ ↔ σ' = τ' := by
  rcases h with ⟨hσ, hσ'⟩ | ⟨hσ, hσ'⟩
  · rcases h' with ⟨hτ, hτ'⟩ | ⟨hτ, hτ'⟩
    · rw [hσ] at hτ
      rw [hσ'] at hτ'
      cases hτ
      cases hτ'
      exact iff_of_true rfl rfl
    · exact iff_of_false (fun same => vacant.apart hσ (same ▸ hτ))
        fun same => vacant'.apart hσ' (same ▸ hτ')
  · rcases h' with ⟨hτ, hτ'⟩ | ⟨hτ, hτ'⟩
    · exact iff_of_false (fun same => vacant.apart hτ (same ▸ hσ))
        fun same => vacant'.apart hτ' (same ▸ hσ')
    · rw [hσ] at hτ
      rw [hσ'] at hτ'
      cases hτ
      cases hτ'
      exact iff_of_true rfl rfl

/-- Visits of a unit in two runs. -/
def twins (c c' : Building) (ρ : Pairing) (t t' : SymbolId) : TwinRuns :=
  ⟨c, c', ρ, Rooms c c' t t'⟩

/-- What stands for each other outside of the unit. -/
structure Rooted₂ (ρ : Pairing) (c c' : Building) (t t' : SymbolId) : Prop where
  symbol : ρ.symbol t t'
  units : ρ.scope Analysis.unitsScope Analysis.unitsScope
  rooms : ∀ σ σ', Rooms c c' t t' σ σ' → ρ.scope σ σ'

theorem twins_proper {ρ : Pairing} {t t' : SymbolId} (vacant : Vacant c u t)
    (vacant' : Vacant c' u t') (paired : Rooted₂ ρ c c' t t') : (twins c c' ρ t t').Proper where
  old := paired.rooms _ _
  first h := vacant.created _ h.houses.1
  second h := vacant'.created _ h.houses.2
  once h h' := h.eq_iff vacant vacant' h'

/-- **A unit that nothing has been done about is visited alike in two runs.** -/
theorem visitUnit_abreast {ρ : Pairing} {t t' : SymbolId} {v : PUnit} (vacant : Vacant c u t)
    (vacant' : Vacant c' u t') (paired : Rooted₂ ρ c c' t t') (run : visitUnit u t c = .ok (v, d)) :
    ∃ d', visitUnit u t' c' = .ok (⟨⟩, d') ∧ (twins c c' ρ t t').Abreast d d' := by
  have proper := twins_proper vacant vacant' paired
  have hosts : (twins c c' ρ t t').Hosts u t t' := by
    refine ⟨vacant.known, vacant'.known, ?_, fun isModule => ?_⟩
    · obtain ⟨σ, hσ⟩ := vacant.members
      obtain ⟨σ', hσ'⟩ := vacant'.members
      exact ⟨σ, σ', hσ, hσ', .inl ⟨hσ, hσ'⟩⟩
    · obtain ⟨τ, hτ⟩ := vacant.exports isModule
      obtain ⟨τ', hτ'⟩ := vacant'.exports isModule
      exact ⟨τ, τ', hτ, hτ', .inr ⟨hτ, hτ'⟩⟩
  have owner : (twins c c' ρ t t').pairing.symbol t t' := .inl paired.symbol
  have around : (twins c c' ρ t t').pairing.scope Analysis.unitsScope Analysis.unitsScope :=
    .inl paired.units
  have start := TwinRuns.abreast_start (T := twins c c' ρ t t') vacant.strict vacant'.strict ?_
  · obtain ⟨v', d', run', -, abreast⟩ :=
      TwinRuns.visitUnit_lockstep proper paired.units hosts start run
    exact ⟨d', run', abreast⟩
  · rintro σ σ' (⟨hσ, hσ'⟩ | ⟨hσ, hσ'⟩)
    · show Scope.Alike _ (c.arena.scope σ) (c'.arena.scope σ')
      rw [vacant.inside σ hσ, vacant'.inside σ' hσ']
      exact .bare (.members owner) around false
    · show Scope.Alike _ (c.arena.scope σ) (c'.arena.scope σ')
      rw [vacant.shown σ hσ, vacant'.shown σ' hσ']
      exact .bare (.exports owner) around false

/-! ## All units -/

/-- The units of a program have been declared. -/
structure Prepared (units : UnitSet) (ps : List (SourceUnit × SymbolId)) (b : Building) : Prop where
  numbered : units.Numbered
  opening : Opening b units
  units : ps.map (·.1) = units
  lodges : ∀ p ∈ ps, ∃ m, Lodges b p.1 p.2 m
  housed : ∀ p ∈ ps, Housed b p.1 p.2
  formed : Formed b
  tabled : b.arena.Tabled
  outermost : ∀ σ, σ = Analysis.globalScope ∨ σ = Analysis.unitsScope →
    SameScope (Analysis.initial.arena.scope σ) (b.arena.scope σ)

namespace Prepared

variable {units : UnitSet} {t : SymbolId} {v : PUnit}

theorem vacant (h : Prepared units ps b) {p : SourceUnit × SymbolId} (mem : p ∈ ps) :
    Vacant b p.1 p.2 := by
  obtain ⟨m, lodged⟩ := h.lodges p mem
  exact lodged.vacant h.opening.strict

/-- Different units have different symbols. -/
theorem nodup (h : Prepared units ps b) : (ps.map (·.2)).Nodup := by
  have nodes : (ps.map fun p => p.1.node.id).Nodup := by
    have nodup := h.numbered.rooted.nodup
    rw [← h.units, List.map_map] at nodup
    exact nodup
  refine nodes.of_map.map_on fun p mem q mem' same => ?_
  refine List.inj_on_of_nodup_map nodes mem mem' ?_
  obtain ⟨m, lodged⟩ := h.lodges p mem
  obtain ⟨m', lodged'⟩ := h.lodges q mem'
  have declared := lodged.declared
  rw [same, lodged'.declared] at declared
  have node := congrArg Declaration.node declared
  rw [unitDeclaration_node, unitDeclaration_node] at node
  exact congrArg Node.id node.symm

/-- The state in which a unit is about to be visited. -/
theorem reached (h : Prepared units (ps ++ (u, t) :: qs) b) (run : visitUnits ps b = .ok (v, c)) :
    Frame (fun σ => ∃ p ∈ ps, b.Houses p.2 σ) b c ∧ Vacant c u t := by
  have first : ∀ {p}, p ∈ ps → p ∈ ps ++ (u, t) :: qs := fun mem => List.mem_append_left _ mem
  have here : (u, t) ∈ ps ++ (u, t) :: qs := List.mem_append_right _ (List.mem_cons_self ..)
  have frame := visitUnits_frame h.opening.strict (fun p mem => (h.vacant (first mem)).toHosted) run
  refine ⟨frame, (h.vacant here).stays frame ?_⟩
  rintro σ houses ⟨p, mem, houses'⟩
  have same := (h.vacant here).owner (h.vacant (first mem)) houses houses'
  have nodup := h.nodup
  rw [List.map_append, List.map_cons, List.nodup_append'] at nodup
  exact nodup.2.2 (List.mem_map.mpr ⟨p, mem, rfl⟩) (same ▸ List.mem_cons_self ..)

end Prepared

/-- The visit of a unit leads from one state to the other, during the visits of all units. -/
structure Visit (ps : List (SourceUnit × SymbolId)) (b b' : Building) (u : SourceUnit)
    (t : SymbolId) (c d : Building) : Prop where
  around : ∃ before after, ps = before ++ (u, t) :: after ∧
    visitUnits before b = .ok (⟨⟩, c) ∧ visitUnits after d = .ok (⟨⟩, b')
  here : visitUnit u t c = .ok (⟨⟩, d)

/-- Every unit is visited. -/
theorem exists_visit {v : PUnit} (run : visitUnits ps b = .ok (v, b')) {p : SourceUnit × SymbolId}
    (mem : p ∈ ps) : ∃ c d, Visit ps b b' p.1 p.2 c d := by
  obtain ⟨before, after, rfl⟩ := List.append_of_mem mem
  obtain ⟨c, first, rest⟩ := (visitUnits_append before _).mp run
  rw [show p = (p.1, p.2) from rfl, visitUnits_cons_eq, bind_eq_ok] at rest
  obtain ⟨_, d, here, last⟩ := rest
  exact ⟨c, d, ⟨before, after, rfl, first, last⟩, here⟩

/-- Two runs over the same units, each in its own order. -/
structure Twice (units units' : UnitSet) (ps ps' : List (SourceUnit × SymbolId)) (b b' : Building) :
    Prop where
  first : Prepared units ps b
  second : Prepared units' ps' b'
  perm : List.Perm units units'

/-- The scopes and symbols of units and global names stand for each other. -/
def declaredPairing (b b' : Building) : Pairing where
  scope σ σ' := σ = σ' ∧ (σ = Analysis.globalScope ∨ σ = Analysis.unitsScope) ∨
    ∃ path t t', (b.arena.scope Analysis.unitsScope).get? path = some t ∧
      (b'.arena.scope Analysis.unitsScope).get? path = some t' ∧ Rooms b b' t t' σ σ'
  symbol t t' := ∃ σ name, (σ = Analysis.globalScope ∨ σ = Analysis.unitsScope) ∧
    (b.arena.scope σ).get? name = some t ∧ (b'.arena.scope σ).get? name = some t'

namespace Twice

variable {units units' : UnitSet} {ps' : List (SourceUnit × SymbolId)} {t t' : SymbolId} {v : PUnit}
  {final final' : Building}

/-- What stands for each other outside of a unit. -/
theorem rooted (h : Twice units units' ps ps' b b') (mem : (u, t) ∈ ps) (mem' : (u, t') ∈ ps')
    {S S' : ScopeId → Prop} (frame : Frame S b c) (frame' : Frame S' b' c') :
    Rooted₂ (declaredPairing b b') c c' t t' := by
  obtain ⟨m, lodged⟩ := h.first.lodges _ mem
  obtain ⟨m', lodged'⟩ := h.second.lodges _ mem'
  refine ⟨⟨_, u.path, .inr rfl, lodged.path, lodged'.path⟩, .inl ⟨rfl, .inr rfl⟩,
    fun σ σ' rooms => ?_⟩
  rw [Rooms, frame.symbol t lodged.known, frame'.symbol t' lodged'.known] at rooms
  exact .inr ⟨u.path, t, t', lodged.path, lodged'.path, rooms⟩

/-- Whatever was visited before, a unit is visited alike in both runs. -/
theorem visits (h : Twice units units' ps ps' b b') (visit : Visit ps b final u t c d)
    {before after : List (SourceUnit × SymbolId)} (split : ps' = before ++ (u, t') :: after)
    (run : visitUnits before b' = .ok (v, c')) : ∃ d', visitUnit u t' c' = .ok (⟨⟩, d') ∧
      (twins c c' (declaredPairing b b') t t').Abreast d d' := by
  obtain ⟨⟨before₁, after₁, rfl, first, -⟩, here⟩ := visit
  subst split
  obtain ⟨frame, vacant⟩ := h.first.reached first
  obtain ⟨frame', vacant'⟩ := h.second.reached run
  exact visitUnit_abreast vacant vacant' (h.rooted (List.mem_append_right _ (List.mem_cons_self ..))
    (List.mem_append_right _ (List.mem_cons_self ..)) frame frame') here

/-- **The visits of a unit in two runs are abreast.** -/
theorem abreast (h : Twice units units' ps ps' b b') (visit : Visit ps b final u t c d)
    (visit' : Visit ps' b' final' u t' c' d') :
    (twins c c' (declaredPairing b b') t t').Abreast d d' := by
  obtain ⟨⟨before, after, split, first, -⟩, here⟩ := visit'
  obtain ⟨d'', run, abreast⟩ := h.visits visit split first
  rw [run] at here
  cases here
  exact abreast

/-- **If the units can be visited in one order, so they can in the other.** -/
theorem visitUnits_ok (h : Twice units units' ps ps' b b')
    (run : visitUnits ps b = .ok (v, final)) :
    ∃ final', visitUnits ps' b' = .ok (⟨⟩, final') := by
  have all : ∀ (after before : List (SourceUnit × SymbolId)) (c' : Building), ps' = before ++
      after → visitUnits before b' = .ok (⟨⟩, c') → ∃ final', visitUnits after c' =
        .ok (⟨⟩, final') := by
    intro after
    induction after with
    | nil => exact fun _ c' _ _ => ⟨c', rfl⟩
    | cons p rest ih =>
      obtain ⟨u, t'⟩ := p
      intro before c' split first
      have known : u ∈ ps.map (·.1) := by
        rw [h.first.units]
        refine h.perm.mem_iff.mpr ?_
        rw [← h.second.units, split, List.map_append]
        exact List.mem_append_right _ (List.mem_cons_self ..)
      obtain ⟨⟨w, t⟩, mem, same⟩ := List.mem_map.mp known
      have same : w = u := same
      subst same
      obtain ⟨c, d, visit⟩ := exists_visit run mem
      obtain ⟨d', here, -⟩ := h.visits visit split first
      obtain ⟨final', last⟩ := ih (before ++ [(w, t')]) d' (by rw [split, List.append_assoc]; rfl)
        ((visitUnits_append _ _).mpr ⟨c', first, by
          rw [visitUnits_cons_eq]
          exact bind_eq_ok.mpr ⟨_, d', here, rfl⟩⟩)
      exact ⟨final', by
        rw [visitUnits_cons_eq]
        exact bind_eq_ok.mpr ⟨_, d', here, last⟩⟩
  exact all ps' [] b' rfl rfl

end Twice

end Build

end CellScript
