import CellScript.Scope.Arena.Lemmas
import CellScript.Scope.Lookup

/-!
# Walks through the arena end

Looking outwards goes from a scope to the one around it, and asking for a path of slots goes from a
symbol to its owner. Both are counted down from the size of the arena. Where every scope is younger
than the scope around it, and every symbol younger than its owner, the count is never used up: the
walks satisfy the equations of loops that are not bounded at all.

* `Arena.Descends`, `Arena.Elder` — what is walked to is older
* `Arena.outwards_eq`, `Arena.slotPath?_eq` — more fuel makes no difference
* `Arena.walks` — the equations of all walks
-/

namespace CellScript.Arena

variable {a : Arena} {σ τ : ScopeId}

/-- Every scope lies inside an older one. -/
def Descends (a : Arena) : Prop := ∀ σ outer, (a.scope σ).enclosing = some outer → outer < σ

/-- Every owner is older than its members. -/
def Elder (a : Arena) : Prop :=
  ∀ t, t < a.symbols.size → ∀ s, (a.scope (a.symbol t).scope).kind = .members s → s < t

/-- What the search among the members of an owner of this kind comes to in one scope. -/
def searchMembers? (a : Arena) (wanted : Target) (name : String) (σ : ScopeId) :
    Option (Option SymbolId) :=
  match (a.scope σ).kind with
  | .members owner => if (a.symbol owner).target ==
      wanted then some ((a.scope σ).get? name) else none
  | _ => none

/-- What the search for the first name of a path comes to in one scope: its outcome, or nothing yet,
so that it goes on around the scope. -/
def search? (a : Arena) (anchor : Anchor) (name : String) (σ : ScopeId) :
    Option (Option SymbolId) :=
  match anchor with
  | .global => if (a.scope σ).kind == .global then some ((a.scope σ).get? name) else none
  | .here => if a.isOutermost σ then some none else ((a.scope σ).get? name).map some
  | .module => a.searchMembers? .module name σ
  | .library => a.searchMembers? .library name σ

/-- Walks end, and none of them is cut short. -/
structure Walks (a : Arena) : Prop where
  /-- Going outwards never comes back to a scope. -/
  descending : ∀ σ, (a.chain σ).Pairwise (· > ·)
  /-- It ends at a scope that nothing encloses. -/
  ends : ∀ σ, ∃ last ∈ a.chain σ, (a.scope last).enclosing = none
  chain : ∀ σ, a.chain σ = σ :: (a.scope σ).enclosing.elim [] a.chain
  depth : ∀ σ τ, a.depth? σ τ =
    if σ = τ then some 0 else (a.scope σ).enclosing.bind fun outer => (a.depth? outer τ).map (· + 1)
  first : ∀ σ anchor name, a.firstSymbol? σ anchor name =
    (a.search? anchor name σ).getD
      ((a.scope σ).enclosing.bind fun outer => a.firstSymbol? outer anchor name)
  path : ∀ t, t < a.symbols.size → a.absolutePath? t =
    match (a.scope (a.symbol t).scope).kind with
    | .units => some [(a.symbol t).slot]
    | .members owner => (a.absolutePath? owner).map (· ++ [(a.symbol t).slot])
    | _ => none

/-! ## Outwards -/

/-- Going outwards takes no more steps than there are older scopes. -/
theorem outwards_eq (h : a.Descends) {fuel more : Nat} (enough : σ < fuel) (enough' : σ < more) :
    a.outwards fuel σ = a.outwards more σ := by
  induction fuel generalizing more σ with
  | zero => exact absurd enough (Nat.not_lt_zero σ)
  | succ fuel ih =>
    obtain ⟨more, rfl⟩ := Nat.exists_eq_succ_of_ne_zero (Nat.ne_zero_of_lt enough')
    simp only [outwards]
    cases he : (a.scope σ).enclosing with
    | none => rfl
    | some outer =>
      have older := h σ outer he
      simp only
      rw [ih (Nat.lt_of_lt_of_le older (Nat.le_of_lt_succ enough))
        (Nat.lt_of_lt_of_le older (Nat.le_of_lt_succ enough'))]

theorem chain_eq (h : a.Descends) (σ : ScopeId) :
    a.chain σ = σ :: (a.scope σ).enclosing.elim [] a.chain := by
  rw [chain, outwards]
  cases he : (a.scope σ).enclosing with
  | none => rfl
  | some outer =>
    have older := h σ outer he
    have known : outer < a.scopes.size := Nat.lt_trans older (lt_size_of_enclosing he)
    simp only [Option.elim_some, chain]
    rw [outwards_eq h known (Nat.lt_succ_of_lt known)]

/-- Induction along the scopes around a scope. -/
theorem Descends.induction {P : ScopeId → Prop} (h : a.Descends)
    (outermost : ∀ σ, (a.scope σ).enclosing = none → P σ)
    (inner : ∀ σ outer, (a.scope σ).enclosing = some outer → P outer → P σ)
    (σ : ScopeId) : P σ := by
  induction σ using Nat.strongRecOn with
  | _ σ ih =>
    cases he : (a.scope σ).enclosing with
    | none => exact outermost σ he
    | some outer => exact inner σ outer he (ih outer (h σ outer he))

theorem chain_outermost (h : a.Descends) (outermost : (a.scope σ).enclosing = none) :
    a.chain σ = [σ] := by
  rw [chain_eq h, outermost]
  rfl

theorem chain_inner (h : a.Descends) {outer : ScopeId}
    (inner : (a.scope σ).enclosing = some outer) :
    a.chain σ = σ :: a.chain outer := by
  rw [chain_eq h, inner]
  rfl

theorem le_of_mem_chain (h : a.Descends) (σ : ScopeId) : ∀ τ ∈ a.chain σ, τ ≤ σ := by
  induction σ using Descends.induction h with
  | outermost σ outermost =>
    intro τ mem
    rw [chain_outermost h outermost, List.mem_singleton] at mem
    exact Nat.le_of_eq mem
  | inner σ outer inner ih =>
    intro τ mem
    rw [chain_inner h inner, List.mem_cons] at mem
    rcases mem with rfl | mem
    · exact Nat.le_refl _
    · exact Nat.le_trans (ih τ mem) (Nat.le_of_lt (h σ outer inner))

theorem chain_descending (h : a.Descends) (σ : ScopeId) : (a.chain σ).Pairwise (· > ·) := by
  induction σ using Descends.induction h with
  | outermost σ outermost =>
    rw [chain_outermost h outermost]
    exact List.pairwise_singleton ..
  | inner σ outer inner ih =>
    rw [chain_inner h inner]
    exact List.pairwise_cons.mpr
      ⟨fun τ mem => Nat.lt_of_le_of_lt (le_of_mem_chain h outer τ mem) (h σ outer inner), ih⟩

theorem chain_ends (h : a.Descends) (σ : ScopeId) :
    ∃ last ∈ a.chain σ, (a.scope last).enclosing = none := by
  induction σ using Descends.induction h with
  | outermost σ outermost =>
    exact ⟨σ, by rw [chain_outermost h outermost]; exact List.mem_singleton_self σ, outermost⟩
  | inner σ outer inner ih =>
    obtain ⟨last, mem, ends⟩ := ih
    exact ⟨last, by rw [chain_inner h inner]; exact List.mem_cons_of_mem _ mem, ends⟩

theorem depth?_eq (h : a.Descends) (σ τ : ScopeId) : a.depth? σ τ =
    if σ = τ then some 0
    else (a.scope σ).enclosing.bind fun outer => (a.depth? outer τ).map (· + 1) := by
  rw [depth?, chain_eq h, List.idxOf?_cons]
  by_cases he : σ = τ
  · simp [he]
  · rw [if_neg he, if_neg (by simpa using he)]
    cases (a.scope σ).enclosing with
    | none => rfl
    | some outer => rfl

/-- The first scope around a scope that passes a test, seen from the scope itself. -/
theorem find?_chain (h : a.Descends) (p : ScopeId → Bool) (σ : ScopeId) : (a.chain σ).find? p =
    if p σ then some σ else (a.scope σ).enclosing.bind fun outer => (a.chain outer).find? p := by
  rw [chain_eq h, List.find?_cons]
  cases p σ with
  | true => rfl
  | false => cases (a.scope σ).enclosing <;> rfl

theorem firstSymbol?_eq (h : a.Descends) (σ : ScopeId) (anchor : Anchor) (name : String) :
    a.firstSymbol? σ anchor name = (a.search? anchor name σ).getD
      ((a.scope σ).enclosing.bind fun outer => a.firstSymbol? outer anchor name) := by
  -- An anchor names the scope in which the name is looked up.
  have anchored :
      ∀ (p : ScopeId → Bool), ((a.chain σ).find? p).bind (fun id => (a.scope id).get? name) =
      (if p σ then some ((a.scope σ).get? name) else none).getD
        ((a.scope σ).enclosing.bind fun outer =>
          ((a.chain outer).find? p).bind fun id => (a.scope id).get? name) := by
    intro p
    rw [find?_chain h]
    cases p σ with
    | true => rfl
    | false => cases (a.scope σ).enclosing <;> rfl
  cases anchor with
  | global => exact anchored _
  | module =>
    refine (anchored _).trans ?_
    simp only [search?, searchMembers?]
    cases (a.scope σ).kind <;> rfl
  | library =>
    refine (anchored _).trans ?_
    simp only [search?, searchMembers?]
    cases (a.scope σ).kind <;> rfl
  | here =>
    simp only [firstSymbol?, search?]
    rw [chain_eq h, List.takeWhile_cons]
    cases a.isOutermost σ with
    | true => rfl
    | false =>
      cases hn : (a.scope σ).get? name with
      | some t => simp [hn]
      | none => cases he : (a.scope σ).enclosing <;> simp [hn]

/-! ## Upwards -/

/-- A path of slots leads through no more owners than there are older symbols. -/
theorem slotPath?_eq (h : a.Elder) {t : SymbolId} (known : t < a.symbols.size) {fuel more : Nat}
    (enough : t < fuel) (enough' : t < more) : a.slotPath? fuel t = a.slotPath? more t := by
  induction fuel generalizing more t with
  | zero => exact absurd enough (Nat.not_lt_zero t)
  | succ fuel ih =>
    obtain ⟨more, rfl⟩ := Nat.exists_eq_succ_of_ne_zero (Nat.ne_zero_of_lt enough')
    simp only [slotPath?]
    cases hk : (a.scope (a.symbol t).scope).kind with
    | members s =>
      have older := h t known s hk
      simp only
      rw [ih (Nat.lt_trans older known) (Nat.lt_of_lt_of_le older (Nat.le_of_lt_succ enough))
        (Nat.lt_of_lt_of_le older (Nat.le_of_lt_succ enough'))]
    | _ => rfl

theorem absolutePath?_eq (h : a.Elder) {t : SymbolId} (known : t < a.symbols.size) :
    a.absolutePath? t = match (a.scope (a.symbol t).scope).kind with
      | .units => some [(a.symbol t).slot]
      | .members owner => (a.absolutePath? owner).map (· ++ [(a.symbol t).slot])
      | _ => none := by
  rw [absolutePath?, slotPath?]
  cases hk : (a.scope (a.symbol t).scope).kind with
  | members s =>
    have older : s < a.symbols.size := Nat.lt_trans (h t known s hk) known
    simp only [absolutePath?]
    rw [slotPath?_eq h older older (Nat.lt_succ_of_lt older)]
  | _ => rfl

/-- **Walks end where everything that is walked to is older.** -/
theorem walks (outer : a.Descends) (elder : a.Elder) : a.Walks :=
  ⟨chain_descending outer, chain_ends outer, chain_eq outer, depth?_eq outer, firstSymbol?_eq outer,
    fun _ => absolutePath?_eq elder⟩

end CellScript.Arena
