import CellScript.Proofs.Linking.Indexed
import CellScript.Proofs.Linking.Renumbered
import CellScript.Proofs.Scope.Exact
import CellScript.Proofs.Scope.Ordered
import CellScript.Proofs.Syntax.Distinct

/-!
# References under other numbers

In programs that differ in numbers only, references are resolved alike. A name of an ordered scope
counts only if it was declared before the reference was met; which symbols these are does not depend
on the order of units, since only functions and blocks are ordered.

* `Arena.OrdersInside` — only functions and blocks are ordered
* `ResolvedReference.Alike` — references to what stands for each other
* `Arena.Renumbers.resolve` — a reference is resolved alike
* `buildScopes_alone` — every reference waits once
* `Rebuilt.resolveAll` — all references are resolved alike
-/

namespace CellScript

/-! ## Ordered scopes -/

/-- Only in functions and blocks is a name visible only after its declaration. -/
def Arena.OrdersInside (a : Arena) : Prop :=
  ∀ σ, (a.scope σ).ordered = true → (a.scope σ).kind.isDynamic = true

namespace Build

variable {ids : List NodeId} {b b' : Building}

theorem Step.ordersInside (step : Step ids b b') (h : b.arena.OrdersInside) :
    b'.arena.OrdersInside := by
  have same : ∀ {s : Scope} {σ : ScopeId}, SameScope (b.arena.scope σ) s → s.ordered = true →
      s.kind.isDynamic = true := fun same ordered => same.kind ▸ h _ (same.ordered ▸ ordered)
  have created : ∀ {kind : ScopeKind} {enclosing : Option ScopeId} {ordered : Bool},
      (ordered = true → kind.isDynamic = true) →
        (b.arena.newScope kind enclosing ordered).2.OrdersInside := by
    intro kind enclosing ordered inside σ hσ
    by_cases new : σ = b.arena.scopes.size
    · rw [Arena.scope_newScope, if_pos new] at hσ ⊢
      exact inside hσ
    · rw [Arena.scope_newScope, if_neg new] at hσ ⊢
      exact h σ hσ
  cases step with
  | declare mem known free admits opened =>
    exact fun σ => same (sameScope_modifyScope fun s => ⟨rfl, rfl, rfl⟩)
  | publish declared free shared called library shown =>
    exact fun σ => same (sameScope_modifyScope fun s => ⟨rfl, rfl, rfl⟩)
  | scope mem dynamic hosts =>
    exact created fun _ => by rcases dynamic with rfl | rfl <;> rfl
  | members mem declared own owning nested bare nests around => exact created fun h => by cases h
  | exports nests declared module closed => exact created fun h => by cases h
  | unit mem name declared own called owning home bare early => exact created fun h => by cases h
  | _ => exact h

end Build

theorem buildScopes_ordersInside {recovery : Bool} {units : UnitSet} {built : Analysis}
    {pending : List PendingReference} (h : buildScopes recovery units = .ok (built, pending)) :
    built.arena.OrdersInside := by
  obtain ⟨b, steps, rfl, -⟩ := buildScopes_steps h
  have start : (Building.start recovery).arena.OrdersInside := by
    intro σ ordered
    match σ with
    | 0 | 1 | _ + 2 => cases ordered
  exact steps.preserve (fun _ _ => Build.Step.ordersInside) start

/-! ## One reference -/

/-- The references lead to symbols that stand for each other, in the same way. -/
structure ResolvedReference.Alike (ρ : Pairing) (r r' : ResolvedReference) : Prop where
  scope : ρ.scope r.scope r'.scope
  symbol : ρ.symbol r.symbol r'.symbol
  target : ρ.symbol r.target r'.target
  kind : r.kind = r'.kind

namespace Arena.Renumbers

variable {ρ : Pairing} {a a' : Arena} {p p' : PendingReference}

/-- The same names come too late for a reference. -/
theorem too_late (h : a.Renumbers ρ a') (ready : a.Ready) (ordered : a.OrdersInside)
    (waits : Build.Waits ρ a p p') {span : Span} {s s' : SymbolId}
    (first : a.first p.scope p.reference span = .ok s) (paired : ρ.symbol s s') :
    ((a.scope (a.symbol s).scope).ordered && decide (p.visible ≤ s)) =
      ((a'.scope (a'.symbol s').scope).ordered && decide (p'.visible ≤ s')) := by
  rw [← (h.alike.scope _ _ (h.alike.symbol s s' paired).scope).ordered]
  cases orders : (a.scope (a.symbol s).scope).ordered with
  | false => rfl
  | true =>
    have dynamic := ordered _ orders
    rcases (ready.first_cases first).2 with ⟨-, static⟩ | inside
    · rw [dynamic] at static
      cases static
    · simp only [waits.visible s s' paired inside]

/-- **A reference is resolved alike.** -/
theorem resolve (h : a.Renumbers ρ a') (outer : a.Descends) (outer' : a'.Descends) (ready : a.Ready)
    (ordered : a.OrdersInside) (waits : Build.Waits ρ a p p') :
    Agrees (ResolvedReference.Alike ρ) (a.resolve p) (a'.resolve p') := by
  have start := h.first outer outer' p.reference p.node.span waits.scope
  simp only [Arena.resolve, ← waits.node, ← waits.reference, bind, Except.bind, throw, throwThe,
    MonadExceptOf.throw]
  generalize hf : a.first p.scope p.reference p.node.span = x at start ⊢
  generalize a'.first p'.scope p.reference p.node.span = y at start ⊢
  cases start with
  | error e e' => exact .error e e'
  | @ok s s' first =>
    have walk := h.follow p.reference p.node.span (p.reference.path.drop 1) first
    simp only
    generalize a.follow p.reference p.node.span s (p.reference.path.drop 1) = x at walk ⊢
    generalize a'.follow p.reference p.node.span s' (p.reference.path.drop 1) = y at walk ⊢
    cases walk with
    | error e e' => exact .error e e'
    | @ok last last' symbol =>
      simp only [← h.too_late ready ordered waits hf first]
      split
      · exact .error _ _
      · have stands := h.linked p.node.span symbol
        generalize a.linked last p.node.span = x at stands ⊢
        generalize a'.linked last' p.node.span = y at stands ⊢
        cases stands with
        | error e e' => exact .error e e'
        | @ok t t' target =>
          simp only [← (h.alike.symbol t t' target).target]
          split
          · exact .error _ _
          · exact .ok ⟨waits.scope, symbol, target,
              h.classify outer outer' p.reference waits.scope first target⟩

end Arena.Renumbers

/-! ## All references -/

/-- Without recovery, resolving comes to an end if and only if every reference is resolved. -/
theorem Analysis.resolveAll_ok_iff {a : Analysis} (pending : List PendingReference) :
    (∃ r, resolveAll false pending a = .ok r) ↔ ∀ p ∈ pending, ∃ r, a.arena.resolve p = .ok r := by
  induction pending generalizing a with
  | nil => exact ⟨fun _ p mem => (by cases mem), fun _ => ⟨_, rfl⟩⟩
  | cons p rest ih =>
    rw [resolveAll, List.forall_mem_cons]
    cases hp : a.arena.resolve p with
    | ok r =>
      simp only [ih]
      exact ⟨fun all => ⟨⟨r, rfl⟩, all⟩, And.right⟩
    | error fault =>
      constructor
      · rintro ⟨r, ok⟩
        cases ok
      · rintro ⟨⟨r, ok⟩, -⟩
        cases ok

/-- **Every reference waits once.** -/
theorem buildScopes_alone {recovery : Bool} {units : UnitSet} {built : Analysis}
    {pending : List PendingReference} (numbered : units.Numbered)
    (h : buildScopes recovery units = .ok (built, pending)) {p q : PendingReference}
    (hp : p ∈ pending) (hq : q ∈ pending) (same : q.node.id = p.node.id) : q = p := by
  obtain ⟨u, mem, used, -⟩ := buildScopes_stands numbered h hp
  obtain ⟨b, -, rfl, meets⟩ := buildScopes_meets numbered h
  obtain ⟨unit, hunit, mem⟩ := List.mem_flatMap.mp mem
  obtain ⟨g, hg, mem⟩ := List.mem_flatMap.mp mem
  obtain ⟨v, hv, mem⟩ := List.mem_flatMap.mp mem
  obtain ⟨node, r, own, occurs⟩ := Expr.reference_of_mem_uses _ mem
  have here : p.node.id = node.id := (own.trans used).symm
  rw [List.mem_reverse] at hp hq
  rcases meets (.reference node r) ⟨unit, hunit, g, hg, v, hv,
    occurs⟩ with visits | ⟨ids, steps, apart⟩
  · obtain ⟨first, -, -, -, -, -, -, alone⟩ := visits.awaits
    have only : ∀ x ∈ b.pending, x.node.id = node.id → x = first := fun x hx hn =>
      (alone x hx hn).resolve_right fun none => by cases none
    rw [only q hq (same.trans here), only p hp here]
  · rcases steps.pending.2 hp with none | inside
    · cases none
    · exact absurd inside (apart (here ▸ Expr.node_mem_nodeIds (.reference node r)))

/-- Linking keeps what lies around functions and blocks. -/
theorem Analysis.Relinked.inside {a a' : Analysis} (same : a.Relinked a') {σ τ : ScopeId}
    (h : a'.arena.Inside σ τ) : a.arena.Inside σ τ := by
  induction h with
  | refl dynamic => exact .refl (same.kind _ ▸ dynamic)
  | step dynamic enclosing _ ih =>
    rw [same.kind] at dynamic
    rw [same.dynamic _ dynamic] at enclosing
    exact .step dynamic enclosing ih

/-- A reference goes on waiting when the program has been linked. -/
theorem Build.Waits.linked {ρ : Pairing} {a a' : Analysis} {p p' : PendingReference}
    (h : Waits ρ a.arena p p') (same : a.Relinked a') : Waits ρ a'.arena p p' :=
  { h with visible := fun t t' paired inside =>
      h.visible t t' paired ((same.symbol t).scope ▸ same.inside inside) }

/-- What is known of a program that has been linked after the first pass. -/
structure Analysis.Linked (built linked : Analysis) : Prop where
  ready : linked.arena.Ready
  indexed : linked.arena.Indexed
  same : built.Relinked linked
  ordered : linked.arena.OrdersInside
  references : linked.references = []
  closures : linked.closures = []

theorem buildScopes_linked {units : UnitSet} {built linked : Analysis}
    {pending : List PendingReference} (hb : buildScopes false units = .ok (built, pending))
    (hl : built.linkUnits false = .ok linked) :
    built.Linked linked := by
  have asBuilt := buildScopes_asBuilt hb
  obtain ⟨ready, same⟩ := linkUnits_ready asBuilt.formed asBuilt.fresh asBuilt.laidOnce hl
  obtain ⟨-, bound, binds, moved, -⟩ := linkUnits_built hb hl
  have orders := buildScopes_ordersInside hb
  have indexed := (buildScopes_indexed hb).2 linked hl
  obtain ⟨b, steps, rfl, -⟩ := buildScopes_steps hb
  refine ⟨ready, indexed, same, fun σ ordered => ?_, same.references.trans steps.references,
    same.closures.trans steps.closures⟩
  rw [moved.scope, binds.scope] at ordered
  rw [same.kind]
  exact orders σ ordered

/-- Outcomes of resolving without a fault, for references to what stands for each other. -/
def ResolvedReference.BothResolved (ρ : Pairing) (x y : Except Fault ResolvedReference) : Prop :=
  ∃ r r', x = .ok r ∧ y = .ok r' ∧ r.Alike ρ r'

/-- **All references of programs that differ in numbers only are resolved alike**, if they are
resolved in one of them. -/
theorem Rebuilt.resolveAll {ρ : Pairing} {units units' : UnitSet}
    {built built' linked linked' resolved : Analysis} {pending pending' : List PendingReference}
    (numbered : units.Numbered) (numbered' : units'.Numbered)
    (hb : buildScopes false units = .ok (built, pending))
    (hb' : buildScopes false units' = .ok (built', pending'))
    (h : Rebuilt ρ built built' pending pending') (hl : built.linkUnits false = .ok linked)
    (hl' : built'.linkUnits false = .ok linked') (arenas : linked.arena.Renumbers ρ linked'.arena)
    (run : Analysis.resolveAll false pending linked = .ok resolved) :
    ∃ resolved', Analysis.resolveAll false pending' linked' = .ok resolved' ∧
      ∀ n, Option.Rel (ResolvedReference.BothResolved ρ) (resolved.references.get? n)
        (resolved'.references.get? n) := by
  have facts := buildScopes_linked hb hl
  have facts' := buildScopes_linked hb' hl'
  have resolves : ∀ {p p' r}, Build.Waits ρ built.arena p p' → linked.arena.resolve p = .ok r →
      ∃ r', linked'.arena.resolve p' = .ok r' ∧ r.Alike ρ r' := by
    intro p p' r waits ok
    have agrees :=
      arenas.resolve facts.indexed.descends facts'.indexed.descends facts.ready facts.ordered
      (waits.linked facts.same)
    rw [ok] at agrees
    generalize linked'.arena.resolve p' = y at agrees ⊢
    cases agrees with
    | ok related => exact ⟨_, rfl, related⟩
  have all := (Analysis.resolveAll_ok_iff pending).mp ⟨_, run⟩
  obtain ⟨resolved', run'⟩ := (Analysis.resolveAll_ok_iff pending').mpr fun p' mem' => by
    obtain ⟨p, mem, waits⟩ := h.waits' p' mem'
    obtain ⟨r, ok⟩ := all p mem
    exact (resolves waits ok).imp fun _ found => found.1
  refine ⟨resolved', run', fun n => ?_⟩
  by_cases waiting : ∃ p ∈ pending, p.node.id = n
  · obtain ⟨p, mem, rfl⟩ := waiting
    obtain ⟨p', mem', waits⟩ := h.waits p mem
    obtain ⟨r, ok, entry⟩ := Analysis.resolveAll_entry pending mem
      (fun q hq => buildScopes_alone numbered hb mem hq) run
    obtain ⟨r', ok', entry'⟩ := Analysis.resolveAll_entry pending' mem'
      (fun q hq => buildScopes_alone numbered' hb' mem' hq) run'
    obtain ⟨r'', ok'', related⟩ := resolves waits ok
    cases ok'.symm.trans ok''
    rw [entry, waits.node, entry']
    exact .some ⟨r, r', rfl, rfl, related⟩
  · have absent : ∀ p ∈ pending, p.node.id ≠ n := fun p mem same => waiting ⟨p, mem, same⟩
    have absent' : ∀ p' ∈ pending', p'.node.id ≠ n := by
      intro p' mem' same
      obtain ⟨p, mem, waits⟩ := h.waits' p' mem'
      exact absent p mem (waits.node ▸ same)
    rw [Analysis.resolveAll_other pending absent run, Analysis.resolveAll_other pending' absent'
      run', facts.references, facts'.references]
    exact .none

end CellScript
