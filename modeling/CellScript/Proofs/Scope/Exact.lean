import CellScript.Proofs.Scope.Outlined
import CellScript.Proofs.Scope.Traced

/-!
# Functions capture exactly what they use

The walk over a program captures nothing in vain: a function captures what is used in its body, at
any depth, and declared outside of it, once and in the order of first use. A reference is reached
through a capture if and only if it stands in a function that captures what it refers to.

* `Analysis.outside` — what is used in the body of a function and declared outside
* `Capturing.Tallies` — a walk that has entered the uses it went past
* `Capturing.visitExpr_tallies` — the walk over an expression
* `analyze_captures` — every analysis captures exactly what is used
-/

namespace CellScript

/-! ## Scopes around scopes -/

namespace Arena

variable {a : Arena} {σ τ ρ : ScopeId}

theorem Inside.trans (h : a.Inside σ τ) (h' : a.Inside τ ρ) : a.Inside σ ρ := by
  induction h with
  | refl _ => exact h'
  | step dynamic enclosing _ ih => exact .step dynamic enclosing (ih h')

/-- What lies around a scope is found on the way outwards. -/
theorem Inside.mem_outwards (ready : a.Ready) (h : a.Inside σ τ) {fuel : Nat} (enough : σ < fuel) :
    τ ∈ a.outwards fuel σ := by
  induction h generalizing fuel with
  | refl _ =>
    obtain ⟨fuel, rfl⟩ := Nat.exists_eq_add_one_of_ne_zero (Nat.ne_of_gt (Nat.zero_lt_of_lt enough))
    exact List.mem_cons_self ..
  | step dynamic enclosing _ ih =>
    obtain ⟨fuel, rfl⟩ := Nat.exists_eq_add_one_of_ne_zero (Nat.ne_of_gt (Nat.zero_lt_of_lt enough))
    have older := (ready.dynamic _ _ enclosing dynamic).1
    rw [outwards_succ fuel enclosing]
    exact List.mem_cons_of_mem _ (ih (Nat.lt_of_lt_of_le older (Nat.le_of_lt_succ enough)))

theorem Ready.isWithin_iff_inside (ready : a.Ready) (dynamic : (a.scope τ).kind.isDynamic = true) :
    a.isWithin σ τ = true ↔ a.Inside σ τ := by
  rw [isWithin_iff]
  refine ⟨fun h => ready.inside_of_mem _ h dynamic, fun h => h.mem_outwards ready ?_⟩
  refine Nat.lt_succ_of_lt (lt_size_of_kind fun kind => ?_)
  have := h.isDynamic.1
  rw [kind] at this
  cases this

/-- All functions around a scope lie around it. -/
theorem Frames.inside {fs : List FunctionFrame} (h : a.Frames σ fs) :
    ∀ f ∈ fs, a.Inside σ f.scope := by
  induction h with
  | members _ => exact fun f hf => by cases hf
  | function kind enclosing _ ih =>
    have dynamic := congrArg ScopeKind.isDynamic kind
    rw [List.forall_mem_cons]
    exact ⟨.refl dynamic, fun f hf => .step dynamic enclosing (ih f hf)⟩
  | block kind enclosing _ ih =>
    exact fun f hf => .step (congrArg ScopeKind.isDynamic kind) enclosing (ih f hf)

/-- **All functions capture that do not lie around the declaration**: once a function lies around
it, so do all those further out. -/
theorem Frames.capturers_eq_filter (ready : a.Ready) {fs : List FunctionFrame} (h : a.Frames σ fs)
    (τ : ScopeId) :
    Capturing.capturers a fs τ = fs.filter fun f => !a.isWithin τ f.scope := by
  induction h with
  | members _ => rfl
  | @function σ outer n fs kind enclosing rest ih =>
    have dynamic := congrArg ScopeKind.isDynamic kind
    cases hw : a.isWithin τ σ with
    | false =>
      have outside : σ ∉ a.chain τ := by
        rw [← isWithin_iff, hw]
        exact Bool.false_ne_true
      rw [capturers_cons_of_not_within outside, ih, List.filter_cons, if_pos (by rw [hw]; rfl)]
    | true =>
      rw [capturers_eq_nil (isWithin_iff.mp hw), eq_comm, List.filter_eq_nil_iff]
      intro f hf
      have inner := (ready.isWithin_iff_inside dynamic).mp hw
      have outward := (Frames.function kind enclosing rest).inside f hf
      rw [(ready.isWithin_iff_inside outward.isDynamic.2).mpr (inner.trans outward)]
      decide
  | block kind enclosing rest ih => exact ih

end Arena

/-- Resolving does not find captures. -/
theorem Arena.kind_of_resolve {a : Arena} {p : PendingReference} {r : ResolvedReference}
    (h : a.resolve p = .ok r) : r.kind ≠ .closure := by
  have classified : ∀ (σ : ScopeId) (ref : Reference) (first target : SymbolId),
      a.classify σ ref first target ≠ .closure := by
    intro σ ref first target
    rw [classify]
    repeat' split
    all_goals exact fun h => by cases h
  simp only [resolve, bind, Except.bind, throw, throwThe, MonadExceptOf.throw] at h
  repeat' split at h
  all_goals cases h
  exact classified _ _ _ _

/-! ## Uses of what lies outside -/

namespace Analysis

/-- What a use refers to, if it was resolved. -/
def target? (a : Analysis) (u : Use) : Option SymbolId :=
  match a.references.get? u.node with
  | some (.ok r) => some r.target
  | _ => none

/-- The targets of the references that are used in the body of a function and declared outside its
scope, in the order in which they are used. -/
def outside (a : Analysis) (uses : List Use) (function : NodeId)
    (scope : ScopeId) : List SymbolId :=
  ((uses.filter fun u => function ∈ u.functions).filterMap a.target?).filter fun t =>
    !a.arena.isWithin (a.arena.symbol t).scope scope

theorem target?_eq_some {a : Analysis} {u : Use} {t : SymbolId} :
    a.target? u = some t ↔ ∃ r, a.references.get? u.node = some (.ok r) ∧ r.target = t := by
  simp only [target?]
  split
  · next r found =>
    constructor
    · rintro ⟨⟩
      exact ⟨r, found, rfl⟩
    · rintro ⟨r', found', rfl⟩
      rw [found] at found'
      cases found'
      rfl
  · next none =>
    exact ⟨fun h => (by cases h), fun ⟨r, found, _⟩ => absurd found (none r)⟩

theorem target?_eq_none {a : Analysis} {u : Use} :
    a.target? u = none ↔ ∀ r, a.references.get? u.node ≠ some (.ok r) := by
  rw [Option.eq_none_iff_forall_ne_some]
  refine ⟨fun h r found => h _ (target?_eq_some.mpr ⟨r, found, rfl⟩), fun h t target => ?_⟩
  obtain ⟨r, found, -⟩ := target?_eq_some.mp target
  exact h r found

/-- What a reference is bound to stays the same when more is captured. -/
theorem Captures.target? {a a' : Analysis} (h : a.Captures a') (u : Use) :
    a'.target? u = a.target? u := by
  simp only [Analysis.target?]
  rcases h.references u.node with same | ⟨r, before, after⟩
  · rw [same]
  · rw [before, after]

/-- The innermost function around the use lies inside the scope of the symbol. -/
def Escapes (a : Analysis) (u : Use) (t : SymbolId) : Prop :=
  ∃ f σ, u.functions.head? = some f ∧ a.createdScopes.get? f = some σ ∧
    a.arena.isWithin (a.arena.symbol t).scope σ = false

end Analysis

namespace Capturing

variable {a₀ a : Analysis} {fs : List FunctionFrame} {seen uses more : List Use}

/-! ## What a walk has entered -/

/-- The functions that the walk is in, each with the scope that it has created. -/
def Placed (a : Analysis) (fs : List FunctionFrame) : Prop :=
  ∀ f ∈ fs, a.createdScopes.get? f.node = some f.scope

/-- Frames are determined by their nodes. -/
theorem Placed.eq {gs : List FunctionFrame} (h : Placed a fs) (h' : Placed a gs)
    (same : fs.map (·.node) = gs.map (·.node)) : fs = gs := by
  induction fs generalizing gs with
  | nil =>
    cases gs with
    | nil => rfl
    | cons g gs => cases same
  | cons f fs ih =>
    cases gs with
    | nil => cases same
    | cons g gs =>
      obtain ⟨node, scope⟩ := f
      obtain ⟨node', scope'⟩ := g
      obtain ⟨rfl, rest⟩ := List.cons.inj same
      rw [Placed, List.forall_mem_cons] at h h'
      have := h.1.symm.trans h'.1
      cases this
      rw [ih h.2 h'.2 rest]

/-- The uses have been entered in `a`, which goes on from `a₀`: functions have captured what is used
in them and declared outside, and the references which so escape the innermost function are
known. -/
structure Tallied (a₀ : Analysis) (seen : List Use) (a : Analysis) : Prop where
  goes : a₀.Captures a
  closed : ∀ f σ, a₀.createdScopes.get? f = some σ →
    a.closedOver f = (a₀.outside seen f σ).eraseDups
  kind : ∀ n r, a.references.get? n = some (.ok r) →
    (r.kind = .closure ↔ ∃ u ∈ seen, u.node = n ∧ a₀.Escapes u r.target)

/-- Inside the functions, the step enters the uses. -/
def Tallies (a₀ : Analysis) (fs : List FunctionFrame) (uses : List Use)
    (x : Capturing PUnit) : Prop :=
  ∀ ⦃seen a⦄, Tallied a₀ seen a → Noted a fs →
    a.Captures (x a).2 ∧ Tallied a₀ (seen ++ uses) (x a).2

namespace Tallies

variable {x y : Capturing PUnit}

theorem pure : Tallies a₀ fs [] (Pure.pure ⟨⟩) := by
  intro seen a tallied _
  rw [List.append_nil]
  exact ⟨.refl a, tallied⟩

theorem seq (hx : Tallies a₀ fs uses x) (hy : Tallies a₀ fs more y) :
    Tallies a₀ fs (uses ++ more) (x >>= fun _ => y) := by
  intro seen a tallied noted
  obtain ⟨goes, tallied₁⟩ := hx tallied noted
  obtain ⟨goes', tallied₂⟩ := hy tallied₁ (noted.captures goes)
  rw [← List.append_assoc]
  exact ⟨goes.trans goes', tallied₂⟩

end Tallies

/-- References that were not resolved leave no trace. -/
theorem Tallied.append_unresolved (h : Tallied a₀ seen a)
    (unresolved : ∀ u ∈ uses, a₀.target? u = none) : Tallied a₀ (seen ++ uses) a := by
  refine ⟨h.goes, fun f σ created => ?_, fun n r found => ?_⟩
  · rw [h.closed f σ created, Analysis.outside, Analysis.outside, List.filter_append,
      List.filterMap_append]
    have : (uses.filter fun u => f ∈ u.functions).filterMap a₀.target? = [] :=
      List.filterMap_eq_nil_iff.mpr fun u hu => unresolved u (List.mem_of_mem_filter hu)
    rw [this, List.append_nil]
  · rw [h.kind n r found]
    refine ⟨fun ⟨u, hu, rest⟩ => ⟨u, List.mem_append_left _ hu, rest⟩,
      fun ⟨u, hu, same, escapes⟩ => ?_⟩
    rcases List.mem_append.mp hu with hu | hu
    · exact ⟨u, hu, same, escapes⟩
    · -- The reference was resolved before, for the walk resolves nothing.
      have target :=
        (h.goes.target? u).symm.trans (Analysis.target?_eq_some.mpr ⟨r, same ▸ found, rfl⟩)
      rw [unresolved u hu] at target
      cases target

/-! ## Visiting a reference -/

theorem eraseDups_append_singleton (l : List SymbolId) (t : SymbolId) :
    (l ++ [t]).eraseDups = if t ∈ l then l.eraseDups else l.eraseDups ++ [t] := by
  rw [List.eraseDups_append]
  split
  · next mem => simp [List.removeAll, mem]
  · next fresh => simp [List.removeAll, fresh, List.eraseDups_cons]

/-- All functions that capture a symbol have it in the end, entered once, and no others. -/
theorem closedOver_forM (t : SymbolId) (n : NodeId) (cs : List FunctionFrame) (a : Analysis)
    (noted : ∀ f ∈ cs, (a.closures.get? f.node).isSome = true) :
    (((cs.forM fun f => capture t f.node : Capturing PUnit) a).2).closedOver n =
      if n ∈ cs.map (·.node) ∧ t ∉ a.closedOver n then a.closedOver n ++
      [t] else a.closedOver n := by
  induction cs generalizing a with
  | nil => rw [if_neg (fun h => by cases h.1)]; rfl
  | cons c rest ih =>
    rw [List.forall_mem_cons] at noted
    have first := captures_capture t c.node a
    have same := closedOver_capture t c.node n a
    have := ih (capture t c.node a).2 fun f hf => first.noted _ (noted.2 f hf)
    change ((rest.forM fun f => capture t f.node : Capturing PUnit)
      (capture t c.node a).2).2.closedOver n = _
    rw [this, same, List.map_cons]
    by_cases mem : t ∈ a.closedOver n <;> by_cases here : n = c.node
    · subst here
      simp [mem]
    · simp [mem, here]
    · subst here
      simp [mem, noted.1]
    · simp [mem, here]

theorem references_forM (t : SymbolId) (cs : List FunctionFrame) (a : Analysis) :
    (((cs.forM fun f => capture t f.node : Capturing PUnit) a).2).references = a.references := by
  induction cs generalizing a with
  | nil => rfl
  | cons c rest ih =>
    refine (ih (capture t c.node a).2).trans ?_
    show (if (a.closedOver c.node).contains t then a else _).references = _
    split <;> rfl

/-- A use escapes if any function captures what it refers to. -/
theorem escapes_iff (placed : Placed a₀ fs) (n : NodeId) (t : SymbolId) :
    a₀.Escapes ⟨n, fs.map (·.node)⟩ t ↔ capturers a₀.arena fs (a₀.arena.symbol t).scope ≠ [] := by
  cases fs with
  | nil =>
    refine ⟨?_, fun h => absurd rfl h⟩
    rintro ⟨_, _, h, _⟩
    cases h
  | cons f fs =>
    have created : a₀.createdScopes.get? f.node = some f.scope := placed f (List.mem_cons_self ..)
    cases hw : a₀.arena.isWithin (a₀.arena.symbol t).scope f.scope with
    | false =>
      refine ⟨fun _ => ?_, fun _ => ⟨f.node, f.scope, rfl, created, hw⟩⟩
      simp [capturers, hw]
    | true =>
      refine ⟨?_, fun h => absurd (by simp [capturers, hw]) h⟩
      rintro ⟨_, σ, first, found, outside⟩
      cases first
      rw [created] at found
      cases found
      rw [hw] at outside
      cases outside

theorem outside_append (seen : List Use) (u : Use) (f : NodeId) (σ : ScopeId) {t : SymbolId}
    (target : a₀.target? u = some t) : a₀.outside (seen ++ [u]) f σ = a₀.outside seen f σ ++
      if f ∈ u.functions ∧ a₀.arena.isWithin (a₀.arena.symbol t).scope σ =
        false then [t] else [] := by
  rw [Analysis.outside, Analysis.outside, List.filter_append, List.filterMap_append,
    List.filter_append]
  congr 1
  by_cases inside : f ∈ u.functions <;> simp [inside, target, List.filter_cons]

/-- A reference that was not resolved is passed over. -/
theorem visitReference_unresolved {n : NodeId}
    (unresolved : ∀ r, a.references.get? n ≠ some (.ok r)) : (visitReference fs n a).2 = a := by
  have got : (get : Capturing Analysis) a = (a, a) := rfl
  simp only [visitReference, bind, StateT.bind, got]
  rfl

/-- Visiting a reference gives what it refers to to all functions that capture it. If there are any,
the reference is reached through a capture. -/
theorem visitReference_resolved {n : NodeId} {r : ResolvedReference} {cs : List FunctionFrame}
    (found : a.references.get? n = some (.ok r))
    (capturing : capturers a.arena fs (a.arena.symbol r.target).scope = cs)
    (noted : ∀ f ∈ cs, (a.closures.get? f.node).isSome = true) :
    a.Captures (visitReference fs n a).2 ∧
      (∀ m, (visitReference fs n a).2.closedOver m =
        if m ∈ cs.map (·.node) ∧ r.target ∉ a.closedOver m then a.closedOver m ++ [r.target]
        else a.closedOver m) ∧
      ∀ m r', (visitReference fs n a).2.references.get? m = some (.ok r') →
        if m = n ∧ cs ≠ [] then r' = { r with kind := .closure }
        else a.references.get? m = some (.ok r') := by
  cases cs with
  | nil =>
    rw [visitReference_of_nil found capturing]
    refine ⟨.refl a, fun m => ?_, fun m r' found' => ?_⟩
    · rw [if_neg fun h => by cases h.1]
    · rw [if_neg fun h => h.2 rfl]
      exact found'
  | cons c cs =>
    rw [visitReference_of_cons found capturing]
    obtain ⟨goes, -, -⟩ := captures_forM r.target (c :: cs) a
    have closed := fun m => closedOver_forM r.target m (c :: cs) a noted
    have references := references_forM r.target (c :: cs) a
    generalize (((c :: cs).forM fun f => capture r.target f.node : Capturing PUnit) a).2 = a₁
      at goes closed references
    refine ⟨goes.trans (captures_asCaptured n a₁), closed, fun m r' found' => ?_⟩
    rw [asCaptured, Table.get?_update, references] at found'
    by_cases same : n = m
    · subst same
      rw [if_pos rfl, found] at found'
      cases found'
      rw [if_pos ⟨rfl, List.cons_ne_nil _ _⟩]
    · rw [if_neg same] at found'
      rw [if_neg fun h => same h.1.symm]
      exact found'

/-- **Visiting a reference enters its use.** -/
theorem visitReference_tallies (ready : a₀.arena.Ready) (placed : Placed a₀ fs) (n : NodeId)
    (stands : ∀ t, a₀.target? ⟨n, fs.map (·.node)⟩ = some t → ∃ σ, a₀.Stands σ (fs.map (·.node))) :
    Tallies a₀ fs [⟨n, fs.map (·.node)⟩] (visitReference fs n) := by
  intro seen a tallied noted
  cases ht : a₀.target? ⟨n, fs.map (·.node)⟩ with
  | none =>
    rw [visitReference_unresolved (Analysis.target?_eq_none.mp ((tallied.goes.target? _).trans ht))]
    exact ⟨.refl a, tallied.append_unresolved fun u hu => by rw [List.mem_singleton.mp hu, ht]⟩
  | some t =>
    obtain ⟨r, found, rfl⟩ := Analysis.target?_eq_some.mp ((tallied.goes.target? _).trans ht)
    obtain ⟨σ, gs, frames, created, names⟩ := stands _ ht
    obtain rfl := placed.eq created names.symm
    have capturing := frames.capturers_eq_filter ready (a₀.arena.symbol r.target).scope
    have escapes := escapes_iff placed n r.target
    generalize hcs : capturers a₀.arena fs (a₀.arena.symbol r.target).scope =
      cs at capturing escapes
    obtain ⟨goes, closed, references⟩ := visitReference_resolved found
      (show capturers _ fs _ = cs by rw [tallied.goes.arena]; exact hcs)
      fun f hf => (noted f (List.mem_of_mem_filter (capturing ▸ hf))).1
    refine ⟨goes, tallied.goes.trans goes, fun f σ created => ?_, fun m r' found' => ?_⟩
    · rw [closed, tallied.closed f σ created, outside_append seen _ f σ ht]
      have captures : f ∈ cs.map (·.node) ↔ f ∈ fs.map (·.node) ∧
          a₀.arena.isWithin (a₀.arena.symbol r.target).scope σ = false := by
        simp only [capturing, List.mem_map, List.mem_filter, Bool.not_eq_true']
        constructor
        · rintro ⟨g, ⟨hg, outside⟩, rfl⟩
          rw [placed g hg] at created
          cases created
          exact ⟨⟨g, hg, rfl⟩, outside⟩
        · rintro ⟨⟨g, hg, rfl⟩, outside⟩
          rw [placed g hg] at created
          cases created
          exact ⟨g, ⟨hg, outside⟩, rfl⟩
      simp only [captures, List.mem_eraseDups]
      split
      · next given => rw [if_pos given.1, eraseDups_append_singleton, if_neg given.2]
      · next old =>
        split
        · next captured =>
          rw [eraseDups_append_singleton, if_pos (not_not.mp fun fresh => old ⟨captured, fresh⟩)]
        · rw [List.append_nil]
    · have after := references m r' found'
      have old : (∃ u ∈ seen, u.node = m ∧ a₀.Escapes u r'.target) →
          ∃ u ∈ seen ++ [⟨n, fs.map (·.node)⟩], u.node = m ∧ a₀.Escapes u r'.target :=
        fun ⟨u, hu, rest⟩ => ⟨u, List.mem_append_left _ hu, rest⟩
      split at after
      · next captured =>
        rw [after]
        exact ⟨fun _ => ⟨_, List.mem_append_right _ (List.mem_singleton.mpr rfl), captured.1.symm,
          escapes.mpr captured.2⟩, fun _ => rfl⟩
      · next free =>
        rw [tallied.kind m r' after]
        refine ⟨old, fun ⟨u, hu, same, escapes'⟩ => ?_⟩
        rcases List.mem_append.mp hu with hu | hu
        · exact ⟨u, hu, same, escapes'⟩
        · rw [List.mem_singleton.mp hu] at same escapes'
          subst same
          rw [found] at after
          cases after
          exact absurd ⟨rfl, escapes.mp escapes'⟩ free

/-! ## The whole walk -/

theorem visitExprs_append (fs : List FunctionFrame) (es rest : List Expr) :
    visitExprs fs (es ++ rest) = (visitExprs fs es >>= fun _ => visitExprs fs rest) := by
  induction es with
  | nil => rfl
  | cons e es ih =>
    rw [List.cons_append, visitExprs, visitExprs, ih]
    rfl

theorem visitItems_eq (fs : List FunctionFrame) (items : List ListItem) :
    visitItems fs items = visitExprs fs (items.map (·.expr)) := by
  induction items with
  | nil => rfl
  | cons item rest ih => cases item <;> rw [visitItems, ih] <;> rfl

theorem visitEntries_eq (fs : List FunctionFrame) (entries : List DictEntry) :
    visitEntries fs entries = visitExprs fs (entries.flatMap (·.exprs)) := by
  induction entries with
  | nil => rfl
  | cons entry rest ih => cases entry <;> rw [visitEntries, ih] <;> rfl

theorem visitDefaults_eq (fs : List FunctionFrame) (params : List Param) :
    visitDefaults fs params = visitExprs fs (params.filterMap (·.default)) := by
  induction params with
  | nil => rfl
  | cons param rest ih =>
    obtain ⟨node, name, ty, default⟩ := param
    cases default <;> rw [visitDefaults, ih] <;> rfl

theorem visitArguments_eq (fs : List FunctionFrame) (args : List Argument) :
    visitArguments fs args = visitExprs fs (args.map (·.expr)) := by
  induction args with
  | nil => rfl
  | cons arg rest ih => cases arg <;> rw [visitArguments, ih] <;> rfl

theorem visitNamed_eq (fs : List FunctionFrame) (args : List NamedExpr) :
    visitNamed fs args = visitExprs fs (args.map (·.value)) := by
  induction args with
  | nil => rfl
  | cons arg rest ih =>
    cases arg
    rw [visitNamed, ih]
    rfl

theorem visitBindings_eq (fs : List FunctionFrame) (vars : List VarDef) :
    visitBindings fs vars = visitExprs fs (vars.map (·.value)) := by
  induction vars with
  | nil => rfl
  | cons v rest ih =>
    cases v
    rw [visitBindings, ih]
    rfl

theorem visitHeads_eq (fs : List FunctionFrame) (heads : List ForHead) :
    visitHeads fs heads = visitExprs fs (heads.map (·.expr)) := by
  induction heads with
  | nil => rfl
  | cons head rest ih => cases head <;> rw [visitHeads, ih] <;> rfl

mutual

theorem visitPattern_eq (fs : List FunctionFrame) : ∀ p : Pattern,
    visitPattern fs p = visitExprs fs p.expressions
  | ⟨_, shape, _⟩ => visitShape_eq fs shape

theorem visitShape_eq (fs : List FunctionFrame) : ∀ shape : PatternShape,
    visitShape fs shape = visitExprs fs shape.expressions
  | .expr _ | .wildcard | .default | .ofType _ => rfl
  | .list items => visitPatterns_eq fs items
  | .headTail head _ => visitPatterns_eq fs head
  | .initLast _ last => visitPatterns_eq fs last
  | .middle head _ last => by
    rw [visitShape, PatternShape.expressions, visitExprs_append, visitPatterns_eq fs head,
      visitPatterns_eq fs last]
  | .dict entries => visitKeyPatterns_eq fs entries
  | .openDict entries _ => visitKeyPatterns_eq fs entries

theorem visitPatterns_eq (fs : List FunctionFrame) : ∀ ps : List Pattern,
    visitPatterns fs ps = visitExprs fs (expressionsOfPatterns ps)
  | [] => rfl
  | p :: rest => by
    rw [visitPatterns, expressionsOfPatterns, visitExprs_append, visitPattern_eq fs p,
      visitPatterns_eq fs rest]

theorem visitKeyPatterns_eq (fs : List FunctionFrame) : ∀ entries : List KeyPattern,
    visitKeyPatterns fs entries = visitExprs fs (expressionsOfEntries entries)
  | [] => rfl
  | ⟨_, p⟩ :: rest => by
    rw [visitKeyPatterns, expressionsOfEntries, visitExprs_append, visitPattern_eq fs p,
      visitKeyPatterns_eq fs rest]

end

theorem visitOption_eq (fs : List FunctionFrame) (e : Option Expr) :
    visitOption fs e = visitExprs fs e.toList := by
  cases e <;> rfl

theorem visitLines_eq (fs : List FunctionFrame) (lines : List MatchLine) :
    visitLines fs lines = visitExprs fs (lines.flatMap (·.exprs)) := by
  induction lines with
  | nil => rfl
  | cons line rest ih =>
    obtain ⟨node, pattern, guard, result⟩ := line
    rw [visitLines, List.flatMap_cons, MatchLine.exprs, visitExprs_append, visitExprs_append,
      visitExprs_append, visitPattern_eq, visitOption_eq, ih]
    rfl

/-- **An expression that is neither a reference nor a function is visited by visiting those of which
it is made.** -/
theorem visitExpr_of_isPlain (fs : List FunctionFrame) {e : Expr} (plain : e.isPlain = true) :
    visitExpr fs e = visitExprs fs e.children := by
  cases e with
  | constant => rfl
  | reference | function => cases plain
  | list _ items => exact visitItems_eq fs items
  | dict _ entries => exact visitEntries_eq fs entries
  | call _ callee args => rw [visitExpr, visitArguments_eq]; rfl
  | curry _ callee args => rw [visitExpr, visitNamed_eq]; rfl
  | letIn _ bindings body => rw [visitExpr, visitBindings_eq, Expr.children, visitExprs_append]; rfl
  | ifElse => rfl
  | matchOn _ subject lines => rw [visitExpr, visitLines_eq]; rfl
  | forEach _ heads body => rw [visitExpr, visitHeads_eq, Expr.children, visitExprs_append]; rfl
  | binary | unary | cast | isOf | access | tryCatch | throw => rfl

/-- Whatever is resolved stands in functions that have created their scopes. -/
def Stood (a : Analysis) (uses : List Use) : Prop :=
  ∀ u ∈ uses, ∀ t, a.target? u = some t → ∃ σ, a.Stands σ u.functions

theorem visitExprs_tallies {fs : List FunctionFrame} {around : List NodeId} (es : List Expr)
    (each : ∀ e ∈ es, Tallies a₀ fs (e.uses around) (visitExpr fs e)) :
    Tallies a₀ fs (es.flatMap (·.uses around)) (visitExprs fs es) := by
  induction es with
  | nil => exact .pure
  | cons e rest ih =>
    rw [List.forall_mem_cons] at each
    exact each.1.seq (ih each.2)

/-- The body of a function is walked inside the function, if the function was visited. What is used
in other functions was never resolved. -/
theorem body_tallies {node : Node} {body : Expr}
    (stood : Stood a₀ (body.uses (node.id :: fs.map (·.node))))
    (inside : ∀ σ, a₀.createdScopes.get? node.id = some σ → Tallies a₀ (⟨node.id, σ⟩ :: fs)
      (body.uses (node.id :: fs.map (·.node))) (visitExpr (⟨node.id, σ⟩ :: fs) body)) :
    Tallies a₀ fs (body.uses (node.id :: fs.map (·.node))) (do
      match (← get).createdScopes.get? node.id with
      | none => pure ⟨⟩
      | some scope =>
        noteFunction node.id
        visitExpr (⟨node.id, scope⟩ :: fs) body) := by
  intro seen a tallied noted
  have same : a.createdScopes.get? node.id = a₀.createdScopes.get? node.id := by
    rw [tallied.goes.created]
  cases hc : a₀.createdScopes.get? node.id with
  | none =>
    have left : (do
        match (← get).createdScopes.get? node.id with
        | none => pure ⟨⟩
        | some scope =>
          noteFunction node.id
          visitExpr (⟨node.id, scope⟩ :: fs) body : Capturing PUnit) a = (⟨⟩, a) := by
      show ((match a.createdScopes.get? node.id with
        | none => _
        | some scope => _ : Capturing PUnit) a) = _
      rw [same, hc]
      rfl
    rw [left]
    refine ⟨.refl a, tallied.append_unresolved fun u hu => ?_⟩
    by_contra resolved
    obtain ⟨t, target⟩ := Option.ne_none_iff_exists'.mp resolved
    obtain ⟨σ, gs, -, created, names⟩ := stood u hu t target
    have mem : node.id ∈ gs.map (·.node) := by
      rw [names]
      exact (body.suffix_of_mem_uses hu).subset (List.mem_cons_self ..)
    obtain ⟨g, hg, name⟩ := List.mem_map.mp mem
    have := created g hg
    rw [name, hc] at this
    cases this
  | some σ =>
    have right : (do
        match (← get).createdScopes.get? node.id with
        | none => pure ⟨⟩
        | some scope =>
          noteFunction node.id
          visitExpr (⟨node.id, scope⟩ :: fs) body : Capturing PUnit) a =
        visitExpr (⟨node.id, σ⟩ :: fs) body (noteFunction node.id a).2 := by
      show ((match a.createdScopes.get? node.id with
        | none => _
        | some scope => _ : Capturing PUnit) a) = _
      rw [same, hc]
      rfl
    rw [right]
    obtain ⟨goes, entry, closed⟩ := noteFunction_spec node.id a
    have references : (noteFunction node.id a).2.references = a.references := by
      simp only [noteFunction, modify, modifyGet, MonadStateOf.modifyGet, StateT.modifyGet]
      split <;> rfl
    have tallied' : Tallied a₀ seen (noteFunction node.id a).2 :=
      ⟨tallied.goes.trans goes, fun f σ created => (closed f).trans (tallied.closed f σ created),
        fun n r found => tallied.kind n r (by rw [← references]; exact found)⟩
    have noted' : Noted (noteFunction node.id a).2 (⟨node.id, σ⟩ :: fs) := by
      rw [Noted, List.forall_mem_cons]
      refine ⟨⟨entry, ?_⟩, noted.captures goes⟩
      rw [goes.created, same, hc]
    obtain ⟨goes', tallied''⟩ := inside σ hc tallied' noted'
    exact ⟨goes.trans goes', tallied''⟩

/-- **The walk over an expression enters its uses.** -/
theorem visitExpr_tallies (ready : a₀.arena.Ready) (e : Expr) :
    ∀ {fs : List FunctionFrame}, Placed a₀ fs → Stood a₀ (e.uses (fs.map (·.node))) →
      Tallies a₀ fs (e.uses (fs.map (·.node))) (visitExpr fs e) := by
  induction e using Expr.children_induction with
  | step e ih =>
    intro fs placed stood
    have parts : ∀ es ⊆ e.children, Stood a₀ (es.flatMap (·.uses (fs.map (·.node)))) →
        Tallies a₀ fs (es.flatMap (·.uses (fs.map (·.node)))) (visitExprs fs es) :=
      fun es sub stood => visitExprs_tallies es fun part mem => ih part (sub mem) placed
        fun u hu => stood u (List.mem_flatMap.mpr ⟨part, mem, hu⟩)
    cases hp : e.isPlain with
    | true =>
      rw [Expr.uses_of_children _ hp] at stood ⊢
      rw [visitExpr_of_isPlain fs hp]
      exact parts _ (List.Subset.refl _) stood
    | false =>
      cases e with
      | reference node target =>
        rw [Expr.uses_reference] at stood ⊢
        exact visitReference_tallies ready placed node.id (stood _ (List.mem_singleton.mpr rfl))
      | function node params returns body =>
        rw [Expr.uses_function] at stood ⊢
        rw [visitExpr, visitDefaults_eq]
        refine (parts _ (List.subset_append_left ..)
          fun u hu => stood u (List.mem_append_left _ hu)).seq ?_
        have inBody : Stood a₀ (body.uses (node.id :: fs.map (·.node))) :=
          fun u hu => stood u (List.mem_append_right _ hu)
        refine body_tallies inBody fun σ created => ?_
        have placed' : Placed a₀ (⟨node.id, σ⟩ :: fs) := by
          rw [Placed, List.forall_mem_cons]
          exact ⟨created, placed⟩
        exact ih body (List.mem_append_right _ (List.mem_singleton.mpr rfl)) placed' inBody
      | _ => cases hp

end Capturing

/-! ## The whole analysis -/

/-- Nothing is resolved before the first pass has ended. -/
theorem Build.Steps.references {ids : List NodeId} {b b' : Building} (s : Build.Steps ids b b') :
    b'.analysis.references = b.analysis.references := by
  induction s with
  | refl => rfl
  | tail _ last ih =>
    rw [← ih]
    cases last <;> rfl

namespace Analysis

variable {a a' : Analysis}

/-- Placing sections changes nothing but the arena and the modules of sections. -/
theorem placeSections_kept {recovery : Bool} (ids : List SymbolId) {faults : List Fault}
    (h : placeSections recovery ids a = .ok (faults, a')) :
    a' = { a with arena := a'.arena, sections := a'.sections } := by
  induction ids generalizing a faults with
  | nil =>
    cases h
    rfl
  | cons s rest ih =>
    rw [placeSections] at h
    cases hp : a.placeSection s with
    | ok a₁ =>
      rw [hp] at h
      have same : a₁ = { a with arena := a₁.arena, sections := a₁.sections } := by
        simp only [placeSection] at hp
        split at hp
        · cases hp
          rfl
        · cases hp
      rw [ih h, same]
    | error fault =>
      rw [hp] at h
      cases recovery with
      | false => cases h
      | true =>
        simp only [if_true] at h
        cases hr : placeSections true rest a with
        | error e =>
          rw [hr] at h
          cases h
        | ok p =>
          rw [hr] at h
          cases h
          exact ih hr

/-- Linking changes nothing but the arena, the modules of sections and the faults. -/
theorem linkUnits_kept {recovery : Bool} (h : a.linkUnits recovery = .ok a') :
    a' = { a with arena := a'.arena, sections := a'.sections, faults := a'.faults } := by
  simp only [linkUnits, bind, Except.bind] at h
  cases hl : Arena.linkAll recovery a.units a.linkOrder a.arena with
  | error fault =>
    rw [hl] at h
    cases h
  | ok p =>
    simp only [hl] at h
    cases hp : placeSections recovery (sectionSymbols { a with arena := p.2 })
      { a with arena := p.2 } with
    | error fault =>
      rw [hp] at h
      cases h
    | ok q =>
      rw [hp] at h
      cases h
      rw [placeSections_kept _ hp]

/-- What is resolved was waiting, and is not reached through a capture yet. -/
theorem resolveAll_origin {recovery : Bool} (pending : List PendingReference) {n : NodeId}
    {r : ResolvedReference} (h : resolveAll recovery pending a = .ok a')
    (found : a'.references.get? n = some (.ok r)) :
    a.references.get? n = some (.ok r) ∨ r.kind ≠ .closure ∧ ∃ p ∈ pending, p.node.id = n := by
  induction pending generalizing a with
  | nil =>
    cases h
    exact .inl found
  | cons p rest ih =>
    have further : ∀ {outcome : Except Fault ResolvedReference} {faults : List Fault},
        a.arena.resolve p = outcome → resolveAll recovery rest { a with
          references := a.references.insert p.node.id outcome, faults := faults } = .ok a' →
        a.references.get? n = some (.ok r) ∨ r.kind ≠ .closure ∧
          ∃ q ∈ p :: rest, q.node.id = n := by
      intro outcome faults resolves h
      rcases ih h with old | ⟨kind, q, hq, same⟩
      · rw [Table.get?_insert] at old
        split at old
        · next same =>
          cases old
          exact .inr ⟨Arena.kind_of_resolve resolves, p, List.mem_cons_self .., same⟩
        · exact .inl old
      · exact .inr ⟨kind, q, List.mem_cons_of_mem _ hq, same⟩
    rw [resolveAll] at h
    cases hr : a.arena.resolve p with
    | ok r' =>
      simp only [hr] at h
      exact further hr h
    | error fault =>
      simp only [hr] at h
      split at h
      · exact further hr h
      · cases h

end Analysis

/-- Linking keeps the functions around a scope. -/
theorem stands_of_linkUnits {recovery : Bool} {units : UnitSet} {built linked : Analysis}
    {pending : List PendingReference} (hb : buildScopes recovery units = .ok (built, pending))
    (hl : built.linkUnits recovery = .ok linked) :
    linked.arena.Ready ∧ ∀ σ around, built.Stands σ around → linked.Stands σ around := by
  obtain ⟨-, bound, binds, moved, ⟨-, created⟩, ready, -⟩ := linkUnits_built hb hl
  refine ⟨ready, fun σ around ⟨fs, frames, entries, names⟩ => ⟨fs, frames.transfer
    (fun τ _ => by rw [moved.kind, binds.scope]) (fun τ dynamic => ?_), fun f hf => ?_, names⟩⟩
  · rcases moved.enclosing τ with same | ⟨⟨s, members, -⟩, -⟩
    · rw [same, binds.scope]
    · rw [binds.scope] at members
      rw [members] at dynamic
      cases dynamic
  · rw [created]
    exact entries f hf

/-- What is resolved stands in functions that have created their scopes, and is not reached through
a capture yet. -/
theorem resolveAll_stood {recovery : Bool} {units : UnitSet} {built linked resolved : Analysis}
    {pending : List PendingReference} (numbered : units.Numbered)
    (hb : buildScopes recovery units = .ok (built, pending))
    (hl : built.linkUnits recovery = .ok linked)
    (hr : Analysis.resolveAll recovery pending linked = .ok resolved) :
    Capturing.Stood resolved units.uses ∧
      ∀ n r, resolved.references.get? n = some (.ok r) → r.kind ≠ .closure := by
  have none : linked.references = [] := by
    obtain ⟨b, steps, rfl, -⟩ := buildScopes_steps hb
    rw [Analysis.linkUnits_kept hl]
    exact steps.references
  have origin : ∀ n r, resolved.references.get? n = some (.ok r) →
      r.kind ≠ .closure ∧ ∃ p ∈ pending, p.node.id = n := by
    intro n r found
    refine (Analysis.resolveAll_origin pending hr found).resolve_left fun old => ?_
    rw [none] at old
    cases old
  refine ⟨fun u hu t target => ?_, fun n r found => (origin n r found).1⟩
  obtain ⟨r, found, -⟩ := Analysis.target?_eq_some.mp target
  obtain ⟨-, p, hp, node⟩ := origin _ r found
  obtain ⟨v, hv, same, stands⟩ := buildScopes_stands numbered hb hp
  obtain rfl := List.inj_on_of_nodup_map numbered.uses_nodup hv hu (same.trans node)
  obtain ⟨fs, frames, entries, names⟩ := (stands_of_linkUnits hb hl).2 _ _ stands
  rw [Analysis.resolveAll_kept pending hr]
  exact ⟨_, fs, frames, entries, names⟩

/-- The walk over a program enters all its uses. -/
theorem Analysis.captureAll_tallied {a : Analysis} {units : UnitSet} (ready : a.arena.Ready)
    (empty : a.closures = []) (uncaptured : ∀ n r, a.references.get? n = some (.ok r) →
      r.kind ≠ .closure)
    (stood : Capturing.Stood a units.uses) :
    Capturing.Tallied a units.uses (a.captureAll units) := by
  have start : Capturing.Tallied a [] a := by
    refine ⟨.refl a, fun f σ _ => ?_, fun n r found => ?_⟩
    · rw [closedOver, empty]
      rfl
    · refine ⟨fun kind => absurd kind (uncaptured n r found), ?_⟩
      rintro ⟨_, h, _⟩
      cases h
  have uses : units.uses = ((units.flatMap fun u => u.groups.flatMap (·.2)).map (·.value)).flatMap
      (·.uses []) := by
    rw [List.flatMap_map, UnitSet.uses, List.flatMap_assoc]
    congr 1
    funext u
    rw [SourceUnit.uses, List.flatMap_assoc]
  rw [uses] at stood ⊢
  have outside : Capturing.Placed a [] := fun f hf => by cases hf
  have walk := Capturing.visitExprs_tallies _ fun e he =>
    Capturing.visitExpr_tallies ready e outside
      fun u hu => stood u (List.mem_flatMap.mpr ⟨e, he, hu⟩)
  rw [← Capturing.visitBindings_eq] at walk
  exact (walk start fun f hf => by cases hf).2

/-- An analysis has entered all uses of the program. -/
theorem analyze_tallied {recovery : Bool} {units : UnitSet} {a : Analysis}
    (numbered : units.Numbered) (h : analyze recovery units = .ok a) : ∃ resolved : Analysis,
      Capturing.Tallied resolved units.uses a ∧ Capturing.Stood resolved units.uses := by
  obtain ⟨built, pending, linked, resolved, hb, hl, hr, rfl⟩ := analyze_eq_ok h
  obtain ⟨stood, uncaptured⟩ := resolveAll_stood numbered hb hl hr
  have kept := Analysis.resolveAll_kept pending hr
  have ready : resolved.arena.Ready := by
    rw [kept]
    exact (stands_of_linkUnits hb hl).1
  have empty : resolved.closures = [] := by
    obtain ⟨b, steps, rfl, -⟩ := buildScopes_steps hb
    rw [kept, Analysis.linkUnits_kept hl]
    exact steps.closures
  exact ⟨resolved, Analysis.captureAll_tallied ready empty uncaptured stood, stood⟩

/-- What was entered is what is used according to the analysis itself. -/
theorem Capturing.Tallied.closedOver_eq {resolved a : Analysis} {uses : List Use}
    (tallied : Tallied resolved uses a) {f : NodeId} {σ : ScopeId}
    (created : a.createdScopes.get? f = some σ) :
    a.closedOver f = (a.outside uses f σ).eraseDups := by
  have same : a.outside uses f σ = resolved.outside uses f σ := by
    simp only [Analysis.outside, tallied.goes.arena, funext tallied.goes.target?]
  rw [same]
  exact tallied.closed f σ (tallied.goes.created ▸ created)

/-- **Every analysis captures exactly what is used.** A function captures the targets of the
references that are used in its body, at any depth, and declared outside its scope, each once and in
the order of first use. A reference is reached through a capture if and only if its target is
captured by the innermost function around it. -/
theorem analyze_captures {recovery : Bool} {units : UnitSet} {a : Analysis}
    (numbered : units.Numbered) (h : analyze recovery units = .ok a) :
    (∀ f σ, a.createdScopes.get? f = some σ →
      a.closedOver f = (a.outside units.uses f σ).eraseDups) ∧
    ∀ u ∈ units.uses, ∀ r, a.references.get? u.node = some (.ok r) →
      (r.kind = .closure ↔ ∃ f, u.functions.head? = some f ∧ r.target ∈ a.closedOver f) := by
  obtain ⟨resolved, tallied, stood⟩ := analyze_tallied numbered h
  have goes := tallied.goes
  refine ⟨fun f σ created => tallied.closedOver_eq created, fun u hu r found => ?_⟩
  have target := (goes.target? u).symm.trans (Analysis.target?_eq_some.mpr ⟨r, found, rfl⟩)
  have closed : ∀ f σ, resolved.createdScopes.get? f = some σ → ∀ t,
      t ∈ a.closedOver f ↔ t ∈ resolved.outside units.uses f σ := fun f σ created t => by
    rw [tallied.closed f σ created, List.mem_eraseDups]
  rw [tallied.kind u.node r found]
  constructor
  · rintro ⟨v, hv, same, f, σ, innermost, created, apart⟩
    obtain rfl := List.inj_on_of_nodup_map numbered.uses_nodup hv hu same
    refine ⟨f, innermost, ?_⟩
    rw [closed f σ created, Analysis.outside, List.mem_filter]
    refine ⟨List.mem_filterMap.mpr ⟨v, List.mem_filter.mpr ⟨hu, ?_⟩, target⟩, by rw [apart]; rfl⟩
    exact decide_eq_true (List.mem_of_mem_head? innermost)
  · rintro ⟨f, innermost, mem⟩
    obtain ⟨-, fs, -, entries, names⟩ := stood u hu r.target target
    have inside : f ∈ fs.map (·.node) := names ▸ List.mem_of_mem_head? innermost
    obtain ⟨g, hg, rfl⟩ := List.mem_map.mp inside
    rw [closed _ _ (entries g hg), Analysis.outside, List.mem_filter] at mem
    exact ⟨u, hu, rfl, g.node, g.scope, innermost, entries g hg, by simpa using mem.2⟩

/-- A function inside another one, whose parameter both use. In the notation of the language, with
types left out:

    library l:
      base = 1
      f = (p) -> (q, r = p) -> p + (base + p) -/
def nestedFunctions : UnitSet :=
  let node (index : Nat) : Node := ⟨.tree index, default⟩
  let ref (index : Nat) (name : String) : Expr := .reference (node index) ⟨.here, [name]⟩
  let inner : Expr := .function (node 20)
    [⟨node 21, "q", .long, none⟩, ⟨node 22, "r", .long, some (ref 23 "p")⟩] .any
    (.binary (node 24) .add (ref 25 "p") (.binary (node 26) .add (ref 27 "base") (ref 28 "p")))
  [⟨node 0, "m", 0, .module
    { globalName := none, imports := [], aliases := [], exports := []
      libraries := [⟨node 1, "l", false,
        [⟨node 2, "base", .long, .constant (node 3) (.long 1)⟩,
         ⟨node 4, "f", .any, .function (node 10) [⟨node 11, "p", .long, none⟩] .any inner⟩]⟩] }⟩]

/-- The theorem at a function inside another one. The inner function captures the parameter of the
outer one and a definition, the outer one captures the definition alone. -/
theorem analyze_captures_nested : nestedFunctions.Numbered ∧ ∃ a inner outer,
    analyze false nestedFunctions = .ok a ∧
    a.createdScopes.get? (.tree 20) = some inner ∧ a.createdScopes.get? (.tree 10) = some outer ∧
    (a.closedOver (.tree 20)).length = 2 ∧ (a.closedOver (.tree 10)).length = 1 ∧
    a.closedOver (.tree 20) = (a.outside nestedFunctions.uses (.tree 20) inner).eraseDups ∧
    a.closedOver (.tree 10) = (a.outside nestedFunctions.uses (.tree 10) outer).eraseDups ∧
    ∀ u ∈ nestedFunctions.uses, ∀ r, a.references.get? u.node = some (.ok r) →
      (r.kind = .closure ↔ ∃ f, u.functions.head? = some f ∧ r.target ∈ a.closedOver f) := by
  have numbered : nestedFunctions.Numbered := by decide +kernel
  have facts : ((analyze false nestedFunctions).toOption.map fun a =>
      ((a.createdScopes.get? (.tree 20)).isSome, (a.createdScopes.get? (.tree 10)).isSome,
        (a.closedOver (.tree 20)).length, (a.closedOver (.tree 10)).length)) =
      some (true, true, 2, 1) := by decide +kernel
  cases h : analyze false nestedFunctions with
  | error fault =>
    rw [h] at facts
    cases facts
  | ok a =>
    rw [h] at facts
    simp only [Except.toOption, Option.map_some, Option.some.injEq, Prod.mk.injEq] at facts
    obtain ⟨inner, hi⟩ := Option.isSome_iff_exists.mp facts.1
    obtain ⟨outer, ho⟩ := Option.isSome_iff_exists.mp facts.2.1
    obtain ⟨closed, kinds⟩ := analyze_captures numbered h
    exact ⟨numbered, a, inner, outer, rfl, hi, ho, facts.2.2.1, facts.2.2.2, closed _ _ hi,
      closed _ _ ho, kinds⟩

end CellScript
