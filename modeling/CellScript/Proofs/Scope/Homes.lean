import CellScript.Proofs.Scope.Owners

/-!
# What stands among the members of a unit

Definitions stand in libraries and sections. Among the members of a unit itself there are only
imports, aliases, libraries and sections, so that no variable is declared there.

* `Building.Bare` — no variable is declared in the scope
* `Build.KeepsBare` — the steps of the first pass that declare no variables
* `Build.declareUnits_bare` — units are declared without any
* `Build.Steps.bare` — nor does one come to the members of a node while other nodes are visited
-/

namespace CellScript

/-- No variable is declared in the scope. -/
def Building.Bare (b : Building) (σ : ScopeId) : Prop :=
  ∀ t ∈ (b.arena.scope σ).slots, t < b.arena.symbols.size ∧ (b.arena.symbol t).target ≠ .var

namespace Build

variable {b b' : Building} {σ : ScopeId} {ids : List NodeId}

/-- While other nodes are visited, nothing is declared among the members of a node. -/
theorem Steps.bare {n : NodeId} {s : SymbolId} (steps : Steps ids b b') (member : b.MembersOf n σ s)
    (absent : n ∉ ids) (bare : b.Bare σ) : b'.Bare σ := by
  intro t mem
  rw [steps.membersScope member absent] at mem
  obtain ⟨known, notVar⟩ := bare t mem
  exact ⟨(steps.sameSymbol known).1, by rw [steps.target known]; exact notVar⟩

/-! ## Steps that declare no variable -/

/-- The step declares no variables. -/
def KeepsBare {α : Type} (x : Build α) : Prop :=
  ∀ ⦃b b' : Building⦄ ⦃v : α⦄, x b = .ok (v, b') → ∀ σ, b.Bare σ → b'.Bare σ

namespace KeepsBare

variable {α β : Type}

theorem pure (v : α) : KeepsBare (Pure.pure v) := by
  intro b b' w h σ bare
  rw [pure_eq_ok] at h
  exact h.2 ▸ bare

theorem bind {x : Build α} {f : α → Build β} (hx : KeepsBare x) (hf : ∀ v, KeepsBare (f v)) :
    KeepsBare (x >>= f) := by
  intro b b' w h σ bare
  rw [bind_eq_ok] at h
  obtain ⟨v, b₁, h₁, h⟩ := h
  exact hf v h σ (hx h₁ σ bare)

theorem modifyAnalysis {f : Analysis → Analysis}
    (h : ∀ (b : Building) (σ : ScopeId), b.Bare σ → (b.mapAnalysis f).Bare σ) :
    KeepsBare (modifyAnalysis f) := by
  intro b b' w hf σ bare
  rw [modifyAnalysis_eq_ok] at hf
  exact hf ▸ h b σ bare

theorem recordPosition (node : Node) : KeepsBare (recordPosition node) := by
  unfold Build.recordPosition
  split
  · exact modifyAnalysis fun b σ bare => bare
  · exact pure _

theorem report (fault : Fault) : KeepsBare (report fault) := by
  intro b b' w h σ bare
  simp only [Build.report, bind_eq_ok, get_eq_ok] at h
  obtain ⟨_, _, ⟨rfl, rfl⟩, h⟩ := h
  split at h
  · cases h
    exact bare
  · cases h

/-- A symbol that is no variable is declared. -/
theorem declare (into : ScopeId) (d : Declaration) (notVar : d.target ≠ .var) :
    KeepsBare (declare into d) := by
  refine fun b b' w h σ bare => ?_
  simp only [Build.declare, bind_eq_ok, get_eq_ok] at h
  obtain ⟨_, _, ⟨rfl, rfl⟩, h⟩ := h
  cases hd : b.analysis.arena.declare into d with
  | error fault =>
    simp only [hd] at h
    exact (report fault).bind (fun _ => pure _) h σ bare
  | ok p =>
    simp only [hd, bind_eq_ok, modifyAnalysis_eq_ok] at h
    obtain ⟨id, arena⟩ := p
    rw [Arena.declare_eq_ok_iff] at hd
    obtain ⟨-, rfl, rfl⟩ := hd
    obtain ⟨_, b₁, rfl, h⟩ := h
    refine (recordPosition d.node).bind (fun _ => pure _) (bind_eq_ok.mpr h) σ fun t mem => ?_
    change t ∈ ((b.arena.withDeclared into d).scope σ).slots at mem
    show t < (b.arena.withDeclared into d).symbols.size ∧
      ((b.arena.withDeclared into d).symbol t).target ≠ .var
    rw [Arena.size_symbols_withDeclared, Arena.symbol_withDeclared]
    split
    · next new => exact ⟨by rw [new]; exact Nat.lt_succ_self _, notVar⟩
    · next old =>
      have mem : t ∈ (b.arena.scope σ).slots := by
        rw [Arena.withDeclared, Arena.scope_modifyScope] at mem
        split at mem
        · exact (List.mem_append.mp mem).resolve_right fun new => old (List.mem_singleton.mp new)
        · exact mem
      obtain ⟨known, notVar⟩ := bare t mem
      exact ⟨Nat.lt_succ_of_lt known, notVar⟩

/-- A scope is created for a symbol, and noted with it. -/
theorem newScope {kind : ScopeKind} {enclosing : Option ScopeId} {ordered : Bool}
    {owner : SymbolId} (f : Symbol → Symbol) (same : ∀ s, (f s).target = s.target) (bare : b.Bare σ)
    (arena : b'.arena = (b.arena.newScope kind enclosing ordered).2.modifySymbol owner f) :
    b'.Bare σ := by
  intro t mem
  rw [arena] at mem ⊢
  rw [Arena.scope_modifySymbol, Arena.scope_newScope] at mem
  split at mem
  · cases mem
  · obtain ⟨known, notVar⟩ := bare t mem
    refine ⟨by rw [Arena.modifySymbol, Array.size_modify]; exact known, ?_⟩
    rw [Arena.symbol_modifySymbol]
    split
    · rw [same]
      exact notVar
    · exact notVar

theorem memberScope (owner : SymbolId) (enclosing : ScopeId) (node : NodeId) :
    KeepsBare (memberScope owner enclosing node) := by
  intro b b' w h σ bare
  obtain ⟨-, rfl⟩ := memberScope_eq_ok.mp h
  exact newScope (fun s => { s with members := some b.arena.scopes.size }) (fun _ => rfl) bare rfl

theorem declareMembers (scope : ScopeId) (source : String) (members : List ImportMember) :
    KeepsBare (declareMembers scope source members) := by
  induction members with
  | nil => exact pure _
  | cons m rest ih => exact (declare _ _ (fun h => by cases h)).bind fun _ => ih

theorem declareImports (scope : ScopeId) (imports : List Import) :
    KeepsBare (declareImports scope imports) := by
  induction imports with
  | nil => exact pure _
  | cons i rest ih => exact (declareMembers _ _ _).bind fun _ => ih

theorem declareAliases (scope : ScopeId) (aliases : List Renaming) :
    KeepsBare (declareAliases scope aliases) := by
  induction aliases with
  | nil => exact pure _
  | cons r rest ih => exact (declare _ _ (fun h => by cases h)).bind fun _ => ih

theorem declareExports (scope exports : ScopeId) (renamings : List Renaming) :
    KeepsBare (declareExports scope exports renamings) := by
  induction renamings with
  | nil => exact pure _
  | cons r rest ih => exact (declare _ _ (fun h => by cases h)).bind fun _ => ih

theorem declareUnit (u : SourceUnit) : KeepsBare (declareUnit u) := by
  obtain ⟨target, unit_eq, notVar, -, -⟩ := unitDeclaration_eq u
  unfold Build.declareUnit
  refine (declare _ _ (by rw [unit_eq]; exact notVar)).bind fun declared? => ?_
  split
  · exact pure _
  · refine (modifyAnalysis (f := fun a => { a with units := a.units.insert u.path _ })
      fun b σ bare => bare).bind fun _ => (memberScope _ _ _).bind fun _ => ?_
    split
    · exact pure _
    · refine (modifyAnalysis fun b σ bare => newScope
        (fun s => { s with exports := some b.arena.scopes.size })
          (fun _ => rfl) bare rfl).bind fun _ => ?_
      split
      · exact pure _
      · exact (declare _ _ (fun h => by cases h)).bind fun _ => pure _

theorem declareUnits (units : List SourceUnit) : KeepsBare (declareUnits units) := by
  induction units with
  | nil => exact pure _
  | cons u rest ih =>
    refine (declareUnit u).bind fun declared? => ?_
    split
    · exact ih.bind fun _ => pure _
    · exact ih

end KeepsBare

/-- **Units are declared without any variables.** -/
theorem declareUnits_bare {recovery : Bool} {units : List SourceUnit}
    {pairs : List (SourceUnit × SymbolId)}
    (h : declareUnits units (.start recovery) = .ok (pairs, b)) (σ : ScopeId) : b.Bare σ := by
  refine KeepsBare.declareUnits units h σ fun t mem => ?_
  have empty : ∀ σ, (Analysis.initial.arena.scope σ).slots = [] := by
    intro σ
    match σ with
    | 0 | 1 | _ + 2 => rfl
  change t ∈ (Analysis.initial.arena.scope σ).slots at mem
  rw [empty] at mem
  cases mem

end Build

end CellScript
