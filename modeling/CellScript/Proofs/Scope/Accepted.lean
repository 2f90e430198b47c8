import CellScript.Proofs.Code.Address
import CellScript.Proofs.Scope.Ordered
import CellScript.Proofs.Scope.Sees
import CellScript.Proofs.Syntax.Distinct

/-!
# Accepted programs

The comprehensions of an accepted program are in order. A reference that stands in a head is bound
only to names that the heads before it introduce, since analysis rejects all others; what a function
captures is referred to in its body, and so at the place where the function stands. The heads fill
the scope of the comprehension, so the names introduced before a head are those with the first
slots.

* `Arena.Ready.lt_visible_of_resolve` — a name of an ordered scope is introduced before it is
  referred to
* `analyze_symbolNode` — what is defined under a node is the symbol declared there
* `Analysis.Fills.headsOrdered` — heads that ask only for earlier names are in order
* `analyze_accepts` — what is known about a program that analysis accepts without recovery
-/

namespace CellScript

/-! ## Names that are introduced in time -/

namespace Arena

variable {a : Arena}

/-- **What a reference is resolved to in an ordered scope was introduced before the reference.** -/
theorem Ready.lt_visible_of_resolve (ready : a.Ready) {p : PendingReference} {r : ResolvedReference}
    (h : a.resolve p = .ok r) (dynamic : (a.scope (a.symbol r.target).scope).kind.isDynamic = true)
    (ordered : (a.scope (a.symbol r.target).scope).ordered = true) : r.target < p.visible := by
  have once : ∀ {t}, t = r.target → ¬a.LaidOnce t := by
    rintro _ rfl ⟨-, static⟩
    rw [static] at dynamic
    cases dynamic
  simp only [resolve, bind, Except.bind, throw, throwThe, MonadExceptOf.throw] at h
  split at h
  · cases h
  · next first hf =>
    split at h
    · cases h
    · next last hw =>
      split at h
      · cases h
      · next early =>
        split at h
        · cases h
        · next target hl =>
          split at h
          · cases h
          · cases h
            -- Only a single name that is not linked leads to a scope that is not laid out once.
            obtain ⟨-, rfl⟩ := (ready.linked_cases hl).resolve_right fun linked => once rfl linked.2
            obtain rfl := (ready.laidOnce_of_follow _ hw).resolve_right (once rfl)
            simpa [ordered] using early

end Arena

/-! ## Symbols by node -/

/-- What is defined under a node is a symbol that was declared there. -/
def Building.Labels (b : Building) : Prop :=
  ∀ n s, b.analysis.definitions.get? n = some s →
    s < b.arena.symbols.size ∧ (b.arena.symbol s).node.id = n

namespace Build

variable {ids : List NodeId} {b b' : Building}

theorem Step.labels (step : Step ids b b') (h : b.Labels) : b'.Labels := by
  intro n s found
  have old : b.analysis.definitions.get? n = some s →
      s < b'.arena.symbols.size ∧ (b'.arena.symbol s).node.id = n := fun found => by
    obtain ⟨known, node⟩ := h n s found
    obtain ⟨known', same⟩ := step.sameSymbol known
    exact ⟨known', (congrArg (·.node.id) same.declaration).trans node⟩
  cases step with
  | @declare scope d mem known free admits opened =>
    change (b.analysis.definitions.insert d.node.id b.arena.symbols.size).get? n = some s at found
    rw [Table.get?_insert] at found
    split at found
    · next same =>
      cases found
      show b.arena.symbols.size < (b.arena.withDeclared scope d).symbols.size ∧
        ((b.arena.withDeclared scope d).symbol b.arena.symbols.size).node.id = n
      rw [Arena.size_symbols_withDeclared, Arena.symbol_withDeclared, if_pos rfl]
      exact ⟨Nat.lt_succ_self _, same⟩
    · exact old found
  | _ => exact old found

end Build

/-- **The symbols of an analysis belong to the nodes under which they are defined.** -/
theorem analyze_symbolNode {recovery : Bool} {units : UnitSet} {a : Analysis}
    (h : analyze recovery units = .ok a) {n : NodeId} {s : SymbolId}
    (found : a.definitions.get? n = some s) : (a.arena.symbol s).node.id = n := by
  obtain ⟨built, pending, linked, resolved, hb, hl, hr, rfl⟩ := analyze_eq_ok h
  obtain ⟨-, bound, binds, moved, -⟩ := linkUnits_built hb hl
  have linkKept := Analysis.linkUnits_kept hl
  have kept := Analysis.resolveAll_kept pending hr
  have annotated := resolved.captureAll_annotated units
  obtain ⟨b, steps, rfl, -⟩ := buildScopes_steps hb
  have labels : b.Labels :=
    steps.preserve (fun _ _ step => step.labels) fun n s none => by cases none
  rw [annotated.same, kept, linkKept] at found
  rw [annotated.arena, kept]
  show (linked.arena.symbol s).node.id = n
  rw [moved.symbol, (binds.sameBut s).node]
  exact (labels n s found).2

/-! ## Heads of comprehensions -/

theorem headNodes_append (heads rest : List ForHead) :
    headNodes (heads ++ rest) = headNodes heads ++ headNodes rest :=
  List.filterMap_append

theorem ForHead.mem_headNodes {heads : List ForHead} {head : ForHead} {d : Declaration}
    (mem : head ∈ heads) (declares : head.declaration? = some d) : d.node.id ∈ headNodes heads := by
  refine List.mem_filterMap.mpr ⟨head, mem, ?_⟩
  cases head <;> cases declares <;> rfl

theorem nodup_headNodes {heads : List ForHead} (nodup : (idsOfHeads heads).Nodup) :
    (headNodes heads).Nodup :=
  nodup_of_subperm (List.subperm_ext_iff.mpr fun id _ =>
    Nat.le_trans (Nat.le_add_right ..) (Nat.le_of_eq (count_idsOfHeads heads id))) nodup

namespace Analysis

variable {a : Analysis} {inner : ScopeId} {heads first rest : List ForHead}

/-- What the first heads introduce has the first slots. -/
theorem Fills.slot_lt (ready : a.arena.Ready)
    (labels : ∀ n s, a.definitions.get? n = some s → (a.arena.symbol s).node.id = n)
    (fills : a.Fills (headNodes (first ++ rest)) inner) (nodup : (headNodes (first ++ rest)).Nodup)
    {t : SymbolId} (known : t < a.arena.symbols.size) (home : (a.arena.symbol t).scope = inner)
    {head : ForHead} (mem : head ∈ first)
    (declares : head.declaration? = some (a.arena.symbol t).toDeclaration) :
    (a.arena.symbol t).slot < (headNodes first).length := by
  have placed := ready.placed t known
  rw [home] at placed
  obtain ⟨lt', place⟩ := List.getElem?_eq_some_iff.mp placed
  have lt : (a.arena.symbol t).slot < (headNodes (first ++ rest)).length := fills.length_eq ▸ lt'
  have node := labels _ _ (fills.get lt lt')
  rw [List.get_eq_getElem, List.get_eq_getElem, place] at node
  have early : (a.arena.symbol t).node.id ∈ headNodes first := head.mem_headNodes mem declares
  rw [headNodes_append, List.nodup_append'] at nodup
  simp only [headNodes_append] at node lt
  refine Nat.lt_of_not_le fun le => ?_
  rw [List.getElem_append_right le] at node
  exact nodup.2.2 early (node ▸ List.getElem_mem _)

/-- A reference that occurs in the expression is bound to the symbol. -/
def Refers (a : Analysis) (e : Expr) (t : SymbolId) : Prop :=
  ∃ node target r, e.Occurs (.reference node target) ∧ a.references.get? node.id = some (.ok r) ∧
    r.target = t

/-- What a head refers to, of the names of the scope, is introduced before. -/
def InTime (a : Analysis) (inner : ScopeId) (heads : List ForHead) : Prop :=
  ∀ (i : Nat) (head : ForHead), heads[i]? = some head → ∀ t, a.Refers head.expr t →
    (a.arena.symbol t).scope = inner → t < a.arena.symbols.size ∧
      ∃ (j : Nat) (other : ForHead), heads[j]? = some other ∧
        other.declaration? = some (a.arena.symbol t).toDeclaration ∧ ¬other.Follows j i

/-- What a function captures is referred to in it. -/
def CapturesReferred (a : Analysis) (e : Expr) : Prop :=
  ∀ f σ, e.Occurs f → a.createdScopes.get? f.node.id = some σ →
    ∀ t ∈ a.closedOver f.node.id, a.Refers e t

/-- An expression asks for no more than it refers to. -/
theorem CapturesReferred.sees {e : Expr} {count : Nat} (captures : a.CapturesReferred e)
    (h : ∀ t, a.Refers e t → a.First inner count t) : a.Sees inner count e :=
  ⟨fun node target occurs r found => h _ ⟨node, target, r, occurs, found, rfl⟩,
    fun f σ occurs created t mem => h t (captures f σ occurs created t mem)⟩

/-- **Heads that refer to nothing too early hold their slots in order.** -/
theorem Fills.headsOrdered (ready : a.arena.Ready)
    (labels : ∀ n s, a.definitions.get? n = some s → (a.arena.symbol s).node.id = n)
    (captures : ∀ head ∈ heads, a.CapturesReferred head.expr)
    (fills : a.Fills (headNodes heads) inner) (nodup : (headNodes heads).Nodup)
    (inTime : a.InTime inner heads) (same : first ++ rest = heads) :
    a.HeadsOrdered inner (headNodes first).length rest := by
  subst same
  induction rest generalizing first with
  | nil =>
    rw [List.append_nil] at fills
    exact fills.length_eq
  | cons head rest ih =>
    have here : (first ++ head :: rest)[first.length]? = some head := by simp
    have captures' := captures head (List.mem_append_right _ (List.mem_cons_self ..))
    have split : first ++ head :: rest = (first ++ [head]) ++ rest := by simp
    have later : a.HeadsOrdered inner (headNodes (first ++ [head])).length rest :=
      ih (split ▸ captures) (split ▸ fills) (split ▸ nodup) (split ▸ inTime)
    -- The names of earlier heads have earlier slots, and so has the name of a definition itself.
    have earlier : ∀ t, a.Refers head.expr t → (a.arena.symbol t).scope = inner →
        (a.arena.symbol t).slot < (headNodes first).length ∨
          head.isGenerator = false ∧ (head.declaration?).isSome = true ∧
            (a.arena.symbol t).slot < (headNodes (first ++ [head])).length := by
      intro t refers home
      obtain ⟨known, j, other, there, declares, not⟩ := inTime _ head here t refers home
      rcases Nat.lt_trichotomy j first.length with lt | rfl | gt
      · rw [List.getElem?_append_left lt] at there
        exact .inl (fills.slot_lt ready labels nodup known home
          (List.mem_of_getElem? there) declares)
      · obtain rfl : head = other := Option.some.inj (here.symm.trans there)
        refine .inr ⟨?_, by rw [declares]; rfl, ?_⟩
        · simpa [ForHead.Follows] using not
        · exact (split ▸ fills).slot_lt ready labels (split ▸ nodup) known home
            (List.mem_append_right _ (List.mem_singleton.mpr rfl)) declares
      · exact absurd (.inl gt) not
    rw [headNodes_append] at later earlier
    cases head with
    | generator node name ty source =>
      refine ⟨fills.slotOf? ready (by simp [headNodes]),
        captures'.sees fun t refers home => ?_, ?_⟩
      · exact (earlier t refers home).resolve_right fun late => by cases late.1
      · simpa [headNodes] using later
    | definition node name ty value =>
      refine ⟨fills.slotOf? ready (by simp [headNodes]),
        captures'.sees fun t refers home => ?_, ?_⟩
      · rcases earlier t refers home with lt | ⟨-, -, lt⟩
        · exact Nat.lt_succ_of_lt lt
        · simpa [headNodes] using lt
      · simpa [headNodes] using later
    | condition e =>
      refine ⟨captures'.sees fun t refers home => ?_, by simpa [headNodes] using later⟩
      exact (earlier t refers home).resolve_right fun late => by cases late.2.1

end Analysis

/-! ## Programs -/

section

variable {units : UnitSet} {a : Analysis}

/-- What is captured in an expression of a program is referred to there. -/
theorem analyze_capturesReferred (numbered : units.Numbered) (h : analyze false units = .ok a)
    {e : Expr} (contains : units.Contains e) : a.CapturesReferred e := by
  obtain ⟨resolved, tallied, -⟩ := analyze_tallied numbered h
  intro f σ occurs created t mem
  rw [tallied.closedOver_eq created, List.mem_eraseDups, Analysis.outside, List.mem_filter,
    List.mem_filterMap] at mem
  obtain ⟨⟨u, used, target⟩, -⟩ := mem
  obtain ⟨used, inside⟩ := List.mem_filter.mp used
  obtain ⟨node, reference, same, occurs'⟩ := numbered.occurs_of_mem_uses
    (contains.occurs occurs) used (of_decide_eq_true inside)
  obtain ⟨r, found, bound⟩ := Analysis.target?_eq_some.mp target
  exact ⟨node, reference, r, occurs'.trans occurs, same ▸ found, bound⟩

/-- **In an accepted program the heads of a comprehension refer to nothing too early.** -/
theorem analyze_inTime (numbered : units.Numbered) (h : analyze false units = .ok a) {node : Node}
    {heads : List ForHead} {body : Expr} (contains : units.Contains (.forEach node heads body))
    {inner : ScopeId} (created : a.createdScopes.get? node.id = some inner) :
    a.InTime inner heads := by
  rintro i head here t ⟨rnode, target, r, occurs, found, rfl⟩ home
  obtain ⟨ready, p, rfl, -, orders⟩ :=
    analyze_orders numbered h contains rfl created (.head here occurs)
  cases hr : a.arena.resolve p with
  | error fault =>
    rw [(orders.rejected fault hr).1] at found
    cases found
  | ok r' =>
    obtain ⟨_, entry, same⟩ := orders.bound r' hr
    rw [found] at entry
    cases entry
    have known := (ready.bound_of_resolve hr).known
    rw [← same] at known
    have dynamic := orders.dynamic
    have ordered := orders.ordered
    rw [← home, same] at dynamic ordered
    have visible := ready.lt_visible_of_resolve hr dynamic ordered
    have named := ready.named r.target known
    rw [home] at named
    obtain ⟨-, j, other, there, declares, follows⟩ := orders.names _ _ named
    rw [← same] at visible
    exact ⟨known, j, other, there, declares,
      fun late => Nat.not_le_of_lt visible (follows.mpr ⟨i, rfl, late⟩)⟩

/-- **Analysis without recovery accepts only programs in which everything can be reached and
comprehensions are in order.** -/
theorem analyze_accepts (numbered : units.Numbered) (h : analyze false units = .ok a) :
    a.Accepts units := by
  have covers := analyze_covers numbered h
  refine ⟨covers, fun e contains node heads body inner occurs created => ?_⟩
  have contains := contains.occurs occurs
  obtain ⟨σ, inner', block, fills, -⟩ := covers.sound contains
  obtain rfl : inner' = inner := Option.some.inj (block.created.symm.trans created)
  have nodup : (idsOfHeads heads).Nodup := by
    obtain ⟨u, hu, inside⟩ := contains
    have all := nodup_of_subperm inside.subperm
      (List.nodup_cons.mp ((List.nodup_flatMap.mp numbered.nodup).1 u hu)).2
    rw [Expr.nodeIds] at all
    exact (List.nodup_append'.mp (List.nodup_cons.mp all).2).1
  refine fills.headsOrdered covers.ready (fun n s => analyze_symbolNode h) (fun head mem => ?_)
    (nodup_headNodes nodup) (analyze_inTime numbered h contains created) (List.nil_append heads)
  exact analyze_capturesReferred numbered h (contains.occurs (.child
    (List.mem_append_left _ (List.mem_map_of_mem mem)) .whole))

end

end CellScript
