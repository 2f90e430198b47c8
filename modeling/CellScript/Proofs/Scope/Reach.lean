import CellScript.Proofs.Scope.Ready
import CellScript.Scope.Resolve

/-!
# Where names are reached from

How the scope of a symbol lies relative to the scope in which an expression stands. A symbol that is
laid out once is reached by a path of slots from the units. Any other symbol lies in a function or
block around the expression: it is near if no function is left on the way out to it.

* `Arena.Inside` — from a scope outwards, through functions and blocks only
* `Arena.Near` — from a scope outwards, without leaving a function
* `Arena.SlotPath` — slots that lead from the units to a symbol
* `Arena.Ready.resolve_located` — what a reference is bound to is laid out once, or lies around it
-/

namespace CellScript

namespace Arena

variable {a : Arena} {σ τ outer : ScopeId} {t s : SymbolId}

/-- The symbol is laid out once, among the members of an owner. -/
def Static (a : Arena) (t : SymbolId) : Prop :=
  ∃ s, (a.scope (a.symbol t).scope).kind = .members s

/-- The second scope is the first one or lies around it, with functions and blocks between. -/
inductive Inside (a : Arena) : ScopeId → ScopeId → Prop where
  | refl {σ : ScopeId} (dynamic : (a.scope σ).kind.isDynamic = true) : Inside a σ σ
  | step {σ outer τ : ScopeId} (dynamic : (a.scope σ).kind.isDynamic = true)
    (enclosing : (a.scope σ).enclosing = some outer) (rest : Inside a outer τ) : Inside a σ τ

/-- The second scope lies that many steps around the first one, and only blocks are left on the
way. -/
inductive Near (a : Arena) : ScopeId → ScopeId → Nat → Prop where
  | here {σ : ScopeId} : Near a σ σ 0
  | out {σ outer τ : ScopeId} {d : Nat} {n : NodeId} (block : (a.scope σ).kind = .block n)
    (enclosing : (a.scope σ).enclosing = some outer) (rest : Near a outer τ d) : Near a σ τ (d + 1)

/-- Slots that lead from the units down to a symbol. -/
inductive SlotPath (a : Arena) : SymbolId → List Nat → Prop where
  | unit {t : SymbolId} (home : (a.scope (a.symbol t).scope).kind = .units) :
    SlotPath a t [(a.symbol t).slot]
  | member {t s : SymbolId} {path : List Nat}
    (home : (a.scope (a.symbol t).scope).kind = .members s) (owner : SlotPath a s path) :
    SlotPath a t (path ++ [(a.symbol t).slot])

/-! ## Walking outwards -/

theorem Inside.isDynamic (h : Inside a σ τ) :
    (a.scope σ).kind.isDynamic = true ∧ (a.scope τ).kind.isDynamic = true := by
  induction h with
  | refl dynamic => exact ⟨dynamic, dynamic⟩
  | step dynamic _ _ ih => exact ⟨dynamic, ih.2⟩

theorem Inside.le (ready : a.Ready) (h : Inside a σ τ) : τ ≤ σ := by
  induction h with
  | refl dynamic => exact Nat.le_refl _
  | step dynamic enclosing _ ih =>
    exact Nat.le_of_lt (Nat.lt_of_le_of_lt ih (ready.dynamic _ _ enclosing dynamic).1)

theorem outwards_succ (fuel : Nat) (he : (a.scope σ).enclosing = some outer) :
    a.outwards (fuel + 1) σ = σ :: a.outwards fuel outer := by
  rw [outwards, he]

/-- A function or block among the scopes around another scope is reached through functions and
blocks. -/
theorem Ready.inside_of_mem (ready : a.Ready) (fuel : Nat) (mem : τ ∈ a.outwards fuel σ)
    (dynamic : (a.scope τ).kind.isDynamic = true) : Inside a σ τ := by
  induction fuel generalizing σ with
  | zero => cases mem
  | succ fuel ih =>
    cases he : (a.scope σ).enclosing with
    | none =>
      rw [outwards, he, List.mem_singleton] at mem
      subst mem
      exact .refl dynamic
    | some outer =>
      rw [outwards_succ fuel he] at mem
      rcases List.mem_cons.mp mem with rfl | mem
      · exact .refl dynamic
      · have rest := ih mem
        cases hd : (a.scope σ).kind.isDynamic with
        | true => exact .step hd he rest
        | false =>
          have := ready.static σ outer he hd
          rw [rest.isDynamic.1] at this
          cases this

theorem isWithin_iff : a.isWithin σ τ = true ↔ τ ∈ a.chain σ := by
  rw [isWithin, depth?, List.isSome_idxOf?]

theorem mem_chain_self (a : Arena) (σ : ScopeId) : σ ∈ a.chain σ := by
  rw [chain, outwards]
  exact List.mem_cons_self ..

theorem Near.add_le (ready : a.Ready) {d : Nat} (h : Near a σ τ d) : τ + d ≤ σ := by
  induction h with
  | here => exact Nat.le_refl _
  | out block enclosing _ ih =>
    have older := (ready.dynamic _ _ enclosing (by rw [block]; rfl)).1
    exact Nat.succ_le_of_lt (Nat.lt_of_le_of_lt ih older)

theorem Near.idxOf?_outwards (ready : a.Ready) {d : Nat} (h : Near a σ τ d) {fuel : Nat}
    (enough : d < fuel) : (a.outwards fuel σ).idxOf? τ = some d := by
  induction h generalizing fuel with
  | here =>
    obtain ⟨fuel, rfl⟩ := Nat.exists_eq_add_one_of_ne_zero (Nat.ne_of_gt enough)
    rw [outwards, List.idxOf?_cons, if_pos (beq_self_eq_true _)]
  | @out σ outer τ d n block enclosing rest ih =>
    obtain ⟨fuel, rfl⟩ := Nat.exists_eq_add_one_of_ne_zero (Nat.ne_of_gt (Nat.zero_lt_of_lt enough))
    have older := (ready.dynamic _ _ enclosing (by rw [block]; rfl)).1
    have apart : ¬ (σ == τ) = true := by
      rw [beq_iff_eq]
      exact Nat.ne_of_gt (Nat.lt_of_le_of_lt (Nat.le_trans (Nat.le_add_right τ d)
        (rest.add_le ready)) older)
    rw [outwards_succ fuel enclosing, List.idxOf?_cons, if_neg apart,
      ih (Nat.lt_of_succ_lt_succ enough)]
    rfl

/-- The number of steps to a scope that is near. -/
theorem Near.depth? (ready : a.Ready) {d : Nat} (h : Near a σ τ d) : a.depth? σ τ = some d := by
  refine h.idxOf?_outwards ready ?_
  cases h with
  | here => exact Nat.succ_pos _
  | out block enclosing rest =>
    have known : σ < a.scopes.size := lt_size_of_kind (by rw [block]; exact fun h => by cases h)
    have deep := (Near.out block enclosing rest).add_le ready
    exact Nat.lt_succ_of_lt (Nat.lt_of_le_of_lt (Nat.le_trans (Nat.le_add_left ..) deep) known)

/-! ## Paths of slots -/

theorem Ready.mem_slots (ready : a.Ready) (known : t < a.symbols.size) :
    t ∈ (a.scope (a.symbol t).scope).slots :=
  List.mem_of_getElem? (ready.placed t known)

theorem Ready.slotPath?_eq (ready : a.Ready) (fuel : Nat) (enough : t < fuel)
    (known : t < a.symbols.size)
    (home : (a.scope (a.symbol t).scope).kind = .units ∨
      ∃ s, (a.scope (a.symbol t).scope).kind = .members s) :
    ∃ path, a.slotPath? fuel t = some path ∧ SlotPath a t path := by
  induction fuel generalizing t with
  | zero => exact absurd enough (Nat.not_lt_zero _)
  | succ fuel ih =>
    rcases home with home | ⟨s, home⟩
    · exact ⟨_, by simp only [slotPath?, home], .unit home⟩
    · -- The owner is older than its members, so less fuel suffices for it.
      have elder := ready.elder _ s home t (ready.mem_slots known)
      obtain ⟨path, found, leads⟩ := ih (Nat.lt_of_lt_of_le elder (Nat.le_of_lt_succ enough))
        (ready.owner _ s home).1 (ready.ownerHome _ s home)
      exact ⟨_, by simp only [slotPath?, home, found, Option.map_some], .member home leads⟩

theorem Ready.absolutePath?_of_static (ready : a.Ready) (known : t < a.symbols.size)
    (static : a.Static t) : ∃ path, a.absolutePath? t = some path ∧ SlotPath a t path :=
  ready.slotPath?_eq _ (Nat.lt_succ_of_lt known) known (.inr static)

theorem absolutePath?_of_isDynamic
    (dynamic : (a.scope (a.symbol t).scope).kind.isDynamic = true) : a.absolutePath? t = none := by
  simp only [absolutePath?, slotPath?]
  cases hk : (a.scope (a.symbol t).scope).kind <;> rw [hk] at dynamic <;>
    first | rfl | cases dynamic

/-! ## What references are bound to -/

/-- A reference in a scope is bound to a variable that is laid out once, or lies around the
scope. -/
structure Bound (a : Arena) (σ : ScopeId) (r : ResolvedReference) : Prop where
  scope : r.scope = σ
  known : r.target < a.symbols.size
  isVariable : a.IsVariable r.target
  place : a.Static r.target ∨ Inside a σ (a.symbol r.target).scope
  own : r.kind = .ownScope → a.depth? σ (a.symbol r.target).scope = some 0
  parent : r.kind = .parentScope → a.depth? σ (a.symbol r.target).scope = some 1

/-- What a path ends at is laid out once, unless the path is a single name. -/
theorem Ready.laidOnce_of_follow (ready : a.Ready) {r : Reference} {span : Span}
    (names : List String) {start last : SymbolId} (h : a.follow r span start names = .ok last) :
    last = start ∨ a.LaidOnce last := by
  induction names generalizing start with
  | nil =>
    cases h
    exact .inl rfl
  | cons name rest ih =>
    rw [follow] at h
    split at h
    · cases h
    · next container _ =>
      split at h
      · cases h
      · next next found =>
        refine .inr ?_
        have laid : a.LaidOnce next := by
          rw [publicMember] at found
          split at found
          · cases found
          · next scope shown =>
            split at found
            · next id named =>
              cases found
              obtain ⟨known, home | ⟨s, home⟩⟩ := ready.name scope name next named
              · refine ⟨known, ?_⟩
                rw [home]
                rcases kind_of_publicScope? shown with hs | hs
                · rw [ready.exports _ _ hs]
                  rfl
                · rw [ready.members _ _ hs]
                  rfl
              · exact ⟨known, by rw [home]; rfl⟩
            · cases found
        rcases ih h with rfl | h
        · exact laid
        · exact h

/-- What a symbol stands for is the symbol itself, or laid out once. -/
theorem Ready.linked_cases (ready : a.Ready) {span : Span} {last target : SymbolId}
    (h : a.linked last span = .ok target) :
    (a.symbol last).binding = .direct ∧ target = last ∨
      (a.symbol target).binding = .direct ∧ a.LaidOnce target := by
  rw [linked, targetOf?] at h
  cases hb : (a.symbol last).binding with
  | direct =>
    simp only [hb, Binding.isIndirect] at h
    cases h
    exact .inl ⟨rfl, rfl⟩
  | _ =>
    simp only [hb, Binding.isIndirect] at h
    cases hr : (a.symbol last).resolved with
    | none =>
      simp only [hr, if_true] at h
      cases h
    | some found =>
      simp only [hr, if_true] at h
      cases h
      obtain ⟨known, direct, static⟩ := ready.resolved last target hr
      exact .inr ⟨direct, known, static⟩

/-- The first symbol of a path is laid out once, or lies around the scope. -/
theorem Ready.first_cases (ready : a.Ready) {r : Reference} {span : Span}
    (h : a.first σ r span = .ok t) :
    t < a.symbols.size ∧ (a.LaidOnce t ∨ Inside a σ (a.symbol t).scope) := by
  rw [first] at h
  cases hf : r.path.head?.bind (a.firstSymbol? σ r.anchor) with
  | none =>
    rw [hf] at h
    cases h
  | some id =>
    rw [hf] at h
    cases h
    rw [Option.bind_eq_some_iff] at hf
    obtain ⟨name, -, hf⟩ := hf
    obtain ⟨id, mem, named, -⟩ := mem_chain_of_firstSymbol? hf
    obtain ⟨known, home⟩ := ready.name id name t named
    refine ⟨known, ?_⟩
    cases hd : (a.scope (a.symbol t).scope).kind.isDynamic with
    | false => exact .inl ⟨known, hd⟩
    | true =>
      rcases home with home | ⟨s, home⟩
      · rw [home] at hd ⊢
        exact .inr (ready.inside_of_mem _ mem hd)
      · rw [home] at hd
        cases hd

theorem LaidOnce.static (ready : a.Ready) (h : a.LaidOnce t)
    (direct : (a.symbol t).binding = .direct) (var : (a.symbol t).target = .var) : a.Static t := by
  rcases ready.home t h.1 direct var with dynamic | static
  · rw [h.2] at dynamic
    cases dynamic
  · exact static

/-- A reference that is resolved has a first symbol, from which its names lead to the last one. -/
theorem resolve_eq_ok {p : PendingReference} {r : ResolvedReference} (h : a.resolve p = .ok r) :
    ∃ first, p.reference.path.head?.bind (a.firstSymbol? p.scope p.reference.anchor) = some first ∧
      a.follow p.reference p.node.span first (p.reference.path.drop 1) = .ok r.symbol ∧
      a.linked r.symbol p.node.span = .ok r.target := by
  simp only [resolve, bind, Except.bind, throw, throwThe, MonadExceptOf.throw] at h
  split at h
  · cases h
  · next first hf =>
    split at h
    · cases h
    · next last hw =>
      split at h
      · cases h
      · split at h
        · cases h
        · next target hl =>
          split at h
          · cases h
          · cases h
            rw [Arena.first] at hf
            split at hf
            · next id found =>
              cases hf
              exact ⟨first, found, hw, hl⟩
            · cases hf

/-- **A reference that is resolved is bound to something that can be reached from its scope.** -/
theorem Ready.bound_of_resolve (ready : a.Ready) {p : PendingReference} {r : ResolvedReference}
    (h : a.resolve p = .ok r) : Bound a p.scope r := by
  simp only [resolve, bind, Except.bind, throw, throwThe, MonadExceptOf.throw] at h
  split at h
  · cases h
  · next first hf =>
    split at h
    · cases h
    · next last hw =>
      split at h
      · cases h
      · split at h
        · cases h
        · next target hl =>
          split at h
          · cases h
          · next hv =>
            cases h
            have var : (a.symbol target).target = .var := by simpa using hv
            obtain ⟨known, place⟩ := ready.first_cases hf
            have place : target < a.symbols.size ∧ (a.symbol target).binding = .direct ∧
                (a.Static target ∨ Inside a p.scope (a.symbol target).scope) := by
              rcases ready.linked_cases hl with ⟨direct, rfl⟩ | ⟨direct, laid⟩
              · rcases ready.laidOnce_of_follow _ hw with rfl | laid
                · refine ⟨known, direct, ?_⟩
                  rcases place with laid | inside
                  · exact .inl (laid.static ready direct var)
                  · exact .inr inside
                · exact ⟨laid.1, direct, .inl (laid.static ready direct var)⟩
              · exact ⟨laid.1, direct, .inl (laid.static ready direct var)⟩
            refine ⟨rfl, place.1, ⟨place.2.1, var⟩, place.2.2, fun own => ?_, fun parent => ?_⟩
            · simp only [classify] at own
              split at own
              · split at own
                · assumption
                · cases own
                · cases own
              · cases own
            · simp only [classify] at parent
              split at parent
              · split at parent
                · cases parent
                · assumption
                · cases parent
              · cases parent

end Arena

end CellScript
