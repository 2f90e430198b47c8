import CellScript.Proofs.Eval.Curried
import CellScript.Proofs.Linking.Resolved

/-!
# The order of units plays no part

A program may be loaded in any order. Its units are declared, visited, linked and resolved under
other numbers then, but what they come to is the same: whether the program is accepted, what each
scope and symbol is, what references and imports lead to, what functions capture, and where sections
lie.

* `Analysis.Alike` — two analyses that differ in numbers only
* `Analysis.outside_alike` — what is used in a function and declared outside
* `analyze_perm` — the analysis of the same units in another order
-/

namespace CellScript

/-! ## Lists -/

/-- What is left of the parts of a list does not depend on their order, if it is left of one part
only. -/
theorem filter_flatMap_perm {α β : Type} {g : α → List β} {p : β → Bool} {l l' : List α}
    (perm : List.Perm l l')
    (few : l.Pairwise fun x y => (g x).filter p = [] ∨ (g y).filter p = []) :
    (l.flatMap g).filter p = (l'.flatMap g).filter p := by
  induction perm with
  | nil => rfl
  | cons x _ ih =>
    rw [List.flatMap_cons, List.flatMap_cons, List.filter_append, List.filter_append,
      ih (List.pairwise_cons.mp few).2]
  | swap x y l =>
    simp only [List.flatMap_cons, List.filter_append]
    rcases (List.pairwise_cons.mp few).1 x (List.mem_cons_self ..) with none | none
    · simp only [none, List.nil_append]
    · simp only [none, List.nil_append]
  | trans first _ ih ih' => exact (ih few).trans (ih' (few.perm first Or.symm))

/-- Lists stand for each other without repetitions, too. -/
theorem forall₂_eraseDups {R : Nat → Nat → Prop}
    (once : ∀ {i j i' j'}, R i i' → R j j' → (i = j ↔ i' = j')) :
    ∀ {l l' : List Nat}, List.Forall₂ R l l' → List.Forall₂ R l.eraseDups l'.eraseDups
  | _, _, .nil => .nil
  | i :: l, i' :: l', .cons first rest => by
    rw [List.eraseDups_cons, List.eraseDups_cons]
    refine .cons first (forall₂_eraseDups once (List.rel_filter ?_ rest))
    intro j j' related
    simp only [Bool.not_eq_true', beq_eq_false_iff_ne, ne_eq, once related first]
termination_by l => l.length
decreasing_by exact Nat.lt_succ_of_le (List.length_filter_le ..)

/-! ## Uses -/

/-- Functions around a use are nodes of the unit. -/
theorem SourceUnit.function_mem_nodeIds {unit : SourceUnit} {u : Use} {f : NodeId}
    (mem : u ∈ unit.uses) (inside : f ∈ u.functions) : f ∈ unit.nodeIds := by
  obtain ⟨g, hg, mem⟩ := List.mem_flatMap.mp mem
  obtain ⟨v, hv, mem⟩ := List.mem_flatMap.mp mem
  rcases v.value.function_of_mem_uses inside mem with none | ⟨e, occurs, rfl, -⟩
  · cases none
  · have contains : unit.Contains e := ⟨g, hg, v, hv, occurs⟩
    exact List.mem_cons_of_mem _ (contains.subperm.subset (Expr.node_mem_nodeIds e))

/-- What is used in a function is used in one unit. -/
theorem UnitSet.Numbered.uses_in_perm {units units' : UnitSet} (numbered : units.Numbered)
    (perm : List.Perm units units') (f : NodeId) :
    (units.uses.filter fun u => f ∈ u.functions) = units'.uses.filter fun u => f ∈ u.functions := by
  refine filter_flatMap_perm perm ((List.nodup_flatMap.mp numbered.nodup).2.imp
    fun {x y} apart => ?_)
  by_cases here : f ∈ x.nodeIds
  · refine .inr (List.filter_eq_nil_iff.mpr fun u mem inside => ?_)
    exact apart here (SourceUnit.function_mem_nodeIds mem (by simpa using inside))
  · refine .inl (List.filter_eq_nil_iff.mpr fun u mem inside => ?_)
    exact here (SourceUnit.function_mem_nodeIds mem (by simpa using inside))

/-! ## Analyses -/

namespace Analysis

/-- The analyses differ in the numbers of scopes and symbols only. A pair of numbers stands for a
scope or symbol of both; `arena` says that these pairs are a bijection, and that nothing else
differs. -/
structure Alike (ρ : Pairing) (a a' : Analysis) : Prop where
  arena : a.arena.Renumbers ρ a'.arena
  slot : ∀ t t', ρ.symbol t t' → (a.arena.scope (a.arena.symbol t).scope).kind ≠ .global →
    (a.arena.scope (a.arena.symbol t).scope).kind ≠ .units →
      (a.arena.symbol t).slot = (a'.arena.symbol t').slot
  units : Arena.Renumbers.SameUnits ρ a.units a'.units
  created : ∀ n, Option.Rel ρ.scope (a.createdScopes.get? n) (a'.createdScopes.get? n)
  definitions : ∀ n, Option.Rel ρ.symbol (a.definitions.get? n) (a'.definitions.get? n)
  references : ∀ n, Option.Rel (ResolvedReference.BothResolved ρ) (a.references.get? n)
    (a'.references.get? n)
  closedOver : ∀ n, List.Forall₂ ρ.symbol (a.closedOver n) (a'.closedOver n)
  sections : ∀ s s', ρ.symbol s s' →
    Option.Rel ρ.symbol (a.sections.get? s) (a'.sections.get? s')

end Analysis

/-- Symbols hold the same slots, unless they are global names or units. -/
theorem Arena.Renumbers.slot {ρ : Pairing} {a a' : Arena} (h : a.Renumbers ρ a') (ready : a.Ready)
    (ready' : a'.Ready) {t t' : SymbolId} (paired : ρ.symbol t t')
    (global : (a.scope (a.symbol t).scope).kind ≠ .global)
    (units : (a.scope (a.symbol t).scope).kind ≠ .units) :
    (a.symbol t).slot = (a'.symbol t').slot := by
  have slots := (h.alike.scope _ _ (h.alike.symbol t t' paired).scope).slots global units
  have here := ready.placed t (h.symbolRange t t' paired).1
  obtain ⟨i, hi⟩ : ∃ i, i = (a.symbol t).slot := ⟨_, rfl⟩
  rw [← hi] at here ⊢
  have bound : i < (a'.scope (a'.symbol t').scope).slots.length := by
    rw [← slots.length_eq]
    exact (List.getElem?_eq_some_iff.mp here).1
  have related := (forall₂_iff_getElem?.mp slots).2 i t _ here (List.getElem?_eq_getElem bound)
  have same := (h.once.symbol paired related).mp rfl
  exact ((ready'.slot _ i t' (by rw [same]; exact List.getElem?_eq_getElem bound)).2.2).symm

/-! ## Captures -/

namespace Analysis

variable {ρ : Pairing} {a a' : Analysis}

/-- Uses refer to symbols that stand for each other. -/
theorem target?_alike (references : ∀ n, Option.Rel (ResolvedReference.BothResolved ρ)
    (a.references.get? n) (a'.references.get? n)) (u : Use) :
    Option.Rel ρ.symbol (a.target? u) (a'.target? u) := by
  have found := references u.node
  unfold target?
  generalize a.references.get? u.node = x at found
  generalize a'.references.get? u.node = y at found
  cases found with
  | none => exact .none
  | some both =>
    obtain ⟨r, r', rfl, rfl, related⟩ := both
    exact .some related.target

/-- **What is used in a function and declared outside of it stands for each other, in order.** -/
theorem outside_alike (h : a.arena.Renumbers ρ a'.arena) (outer : a.arena.Descends)
    (outer' : a'.arena.Descends) {uses uses' : List Use} {f : NodeId} {σ σ' : ScopeId}
    (targets : ∀ u, Option.Rel ρ.symbol (a.target? u) (a'.target? u))
    (same : (uses.filter fun u => f ∈ u.functions) = uses'.filter fun u => f ∈ u.functions)
    (paired : ρ.scope σ σ') :
    List.Forall₂ ρ.symbol (a.outside uses f σ) (a'.outside uses' f σ') := by
  unfold outside
  rw [← same]
  refine List.rel_filter (fun t t' related => ?_)
    (List.rel_filterMap (fun u u' same => same ▸ targets u) (List.forall₂_same.mpr fun _ _ => rfl))
  simp only [Arena.isWithin, h.depth? outer outer' (h.alike.symbol t t' related).scope paired]

end Analysis

/-! ## The order of units -/

section Reordered

variable {ρ : Pairing} {units units' : UnitSet} {a a' : Analysis}

/-- References are reached through a capture if they escape the function around them. -/
theorem closure_iff (numbered : units.Numbered) (h : analyze false units = .ok a) {n : NodeId}
    {r : ResolvedReference} (found : a.references.get? n = some (.ok r)) :
    r.kind = .closure ↔ ∃ u ∈ units.uses, u.node = n ∧ a.Escapes u r.target := by
  obtain ⟨resolved, tallied, -⟩ := analyze_tallied numbered h
  rw [tallied.kind n r found]
  simp only [Analysis.Escapes, tallied.goes.arena, tallied.goes.created]

/-- Uses escape functions alike. -/
theorem Analysis.Escapes.alike (arena : a.arena.Renumbers ρ a'.arena) (outer : a.arena.Descends)
    (outer' : a'.arena.Descends)
    (created : ∀ n, Option.Rel ρ.scope (a.createdScopes.get? n) (a'.createdScopes.get? n)) {u : Use}
    {t t' : SymbolId} (paired : ρ.symbol t t') (h : a.Escapes u t) : a'.Escapes u t' := by
  obtain ⟨f, σ, innermost, entered, apart⟩ := h
  have scopes := created f
  rw [entered] at scopes
  obtain ⟨σ', entered', related⟩ := optionRel_some scopes
  refine ⟨f, σ', innermost, entered', ?_⟩
  rw [← apart, Arena.isWithin, Arena.isWithin,
    arena.depth? outer outer' (arena.alike.symbol t t' paired).scope related]

/-- An entry after captures have been found. -/
theorem Analysis.Annotated.entry (h : a.Annotated a') {n : NodeId} {r : ResolvedReference}
    (found : a.references.get? n = some (.ok r)) : ∃ kind, (kind = r.kind ∨ kind = .closure) ∧
      a'.references.get? n = some (.ok { r with kind := kind }) := by
  rcases h.reference n with same | ⟨r', before, after⟩
  · exact ⟨r.kind, .inl rfl, same.trans found⟩
  · rw [found] at before
    cases before
    exact ⟨_, .inr rfl, after⟩

/-- Nothing is entered by looking for captures. -/
theorem Analysis.Annotated.absent (h : a.Annotated a') {n : NodeId}
    (none_ : a.references.get? n = none) : a'.references.get? n = none := by
  rcases h.reference n with same | ⟨r, before, -⟩
  · exact same.trans none_
  · rw [none_] at before
    cases before

/-- What is resolved alike stays so when captures have been found. -/
theorem captured_alike {resolved resolved' : Analysis} (numbered : units.Numbered)
    (numbered' : units'.Numbered) (h : analyze false units = .ok a)
    (h' : analyze false units' = .ok a') (perm : List.Perm units units')
    (arena : a.arena.Renumbers ρ a'.arena)
    (created : ∀ n, Option.Rel ρ.scope (a.createdScopes.get? n) (a'.createdScopes.get? n))
    (annotated : resolved.Annotated a) (annotated' : resolved'.Annotated a') {n : NodeId}
      (references : Option.Rel (ResolvedReference.BothResolved ρ) (resolved.references.get? n)
        (resolved'.references.get? n)) :
    Option.Rel (ResolvedReference.BothResolved ρ) (a.references.get? n) (a'.references.get? n) := by
  have outer := ((analyze_indexed false units).2.1 _ h).1.descends
  have outer' := ((analyze_indexed false units').2.1 _ h').1.descends
  have uses : ∀ u, u ∈ units.uses ↔ u ∈ units'.uses := fun u => (perm.flatMap_right _).mem_iff
  generalize before : resolved.references.get? n = x at references
  generalize before' : resolved'.references.get? n = y at references
  cases references with
  | none =>
    rw [annotated.absent before, annotated'.absent before']
    exact .none
  | some both =>
    obtain ⟨r, r', rfl, rfl, related⟩ := both
    obtain ⟨kind, either, after⟩ := annotated.entry before
    obtain ⟨kind', either', after'⟩ := annotated'.entry before'
    -- The references are reached through captures under the same condition.
    have escapes : kind = .closure ↔ kind' = .closure := by
      refine (closure_iff numbered h after).trans
        (Iff.trans ?_ (closure_iff numbered' h' after').symm)
      constructor
      · rintro ⟨u, mem, node, escapes⟩
        exact ⟨u, (uses u).mp mem, node, escapes.alike arena outer outer' created related.target⟩
      · rintro ⟨u, mem, node, escapes⟩
        exact ⟨u, (uses u).mpr mem, node, escapes.alike arena.flip outer' outer
          (fun n => optionRel_flip (created n)) related.target⟩
    have same : kind = kind' := by
      rcases either with rfl | rfl
      · rcases either' with rfl | rfl
        · exact related.kind
        · exact escapes.mpr rfl
      · exact (escapes.mp rfl).symm
    rw [after, after']
    exact .some ⟨_, _, rfl, rfl, related.scope, related.symbol, related.target, same⟩

/-- What has no scope captures nothing. -/
theorem closedOver_of_unscoped (h : analyze false units = .ok a) {n : NodeId}
    (unscoped : a.createdScopes.get? n = none) : a.closedOver n = [] := by
  obtain ⟨built, pending, linked, resolved, hb, hl, hr, rfl⟩ := analyze_eq_ok h
  have annotated := resolved.captureAll_annotated units
  refine annotated.closedOver_eq_nil ?_ (annotated.createdScopes ▸ unscoped)
  rw [Analysis.resolveAll_same _ hr]
  exact (buildScopes_linked hb hl).closures

/-- Functions capture symbols that stand for each other, in the same order. -/
theorem closedOver_alike (numbered : units.Numbered) (perm : List.Perm units units')
    (h : analyze false units = .ok a) (h' : analyze false units' = .ok a')
    (arena : a.arena.Renumbers ρ a'.arena)
    (targets : ∀ u, Option.Rel ρ.symbol (a.target? u) (a'.target? u))
    (created : ∀ n, Option.Rel ρ.scope (a.createdScopes.get? n) (a'.createdScopes.get? n))
    (n : NodeId) : List.Forall₂ ρ.symbol (a.closedOver n) (a'.closedOver n) := by
  have scopes := created n
  cases entered : a.createdScopes.get? n with
  | none =>
    rw [entered] at scopes
    rw [closedOver_of_unscoped h entered, closedOver_of_unscoped h' (optionRel_none scopes)]
    exact .nil
  | some σ =>
    rw [entered] at scopes
    obtain ⟨σ', entered', related⟩ := optionRel_some scopes
    rw [(analyze_captures numbered h).1 n σ entered,
      (analyze_captures (numbered.perm perm) h').1 n σ' entered']
    exact forall₂_eraseDups arena.once.symbol (Analysis.outside_alike arena
      ((analyze_indexed false units).2.1 a h).1.descends
      ((analyze_indexed false units').2.1 a' h').1.descends targets
        (numbered.uses_in_perm perm n) related)

/-- Resolving and looking for captures enter references and captures only. -/
theorem Analysis.captureAll_same (units : UnitSet) {linked resolved : Analysis}
    {pending : List PendingReference}
    (h : Analysis.resolveAll false pending linked = .ok resolved) :
    resolved.captureAll units = { linked with
      references := (resolved.captureAll units).references
      closures := (resolved.captureAll units).closures } :=
  (resolved.captureAll_annotated units).same.trans (congrArg (fun a : Analysis => { a with
    references := (resolved.captureAll units).references
    closures := (resolved.captureAll units).closures }) (Analysis.resolveAll_same pending h))

/-- **An analysis of the same units in another order** comes to an end as well, and differs in
numbers only. -/
theorem analyze_reordered (numbered : units.Numbered) (perm : List.Perm units units')
    (h : analyze false units = .ok a) : ∃ ρ a', analyze false units' = .ok a' ∧ a.Alike ρ a' := by
  have numbered' := numbered.perm perm
  obtain ⟨built, pending, linked, resolved, hb, hl, hr, rfl⟩ := analyze_eq_ok h
  -- The passes one by one.
  obtain ⟨ρ, built', pending', hb', rebuilt⟩ := buildScopes_perm numbered perm hb
  obtain ⟨linked', hl', arenas, sections⟩ :=
    rebuilt.linkUnits (buildScopes_asBuilt hb) (buildScopes_asBuilt hb') hl
  obtain ⟨resolved', hr', references⟩ :=
    rebuilt.resolveAll numbered numbered' hb hb' hl hl' arenas hr
  have h' : analyze false units' = .ok (resolved'.captureAll units') := by
    simp only [analyze, bind, Except.bind, hb', hl', hr']
    rfl
  have facts := buildScopes_linked hb hl
  have facts' := buildScopes_linked hb' hl'
  have kept := Analysis.captureAll_same units hr
  have kept' := Analysis.captureAll_same units' hr'
  have arena :
      (resolved.captureAll units).arena.Renumbers ρ (resolved'.captureAll units').arena := by
    rw [kept, kept']
    exact arenas
  have created : ∀ n, Option.Rel ρ.scope ((resolved.captureAll units).createdScopes.get? n)
      ((resolved'.captureAll units').createdScopes.get? n) := by
    rw [kept, kept']
    show ∀ n, Option.Rel ρ.scope (linked.createdScopes.get? n) (linked'.createdScopes.get? n)
    rw [facts.same.created, facts'.same.created]
    exact rebuilt.created
  have final := fun n => captured_alike numbered numbered' h h' perm arena created
    (resolved.captureAll_annotated units) (resolved'.captureAll_annotated units') (references n)
  have closed := closedOver_alike numbered perm h h' arena (Analysis.target?_alike final) created
  refine ⟨ρ, _, h', arena, fun t t' paired => ?_, ?_, created, ?_, final, closed, ?_⟩
  · refine arena.slot ?_ ?_ paired
    · rw [kept]
      exact facts.ready
    · rw [kept']
      exact facts'.ready
  · rw [kept, kept']
    show Arena.Renumbers.SameUnits ρ linked.units linked'.units
    rw [facts.same.units, facts'.same.units]
    exact rebuilt.units
  · rw [kept, kept']
    show ∀ n, Option.Rel ρ.symbol (linked.definitions.get? n) (linked'.definitions.get? n)
    rw [facts.same.definitions, facts'.same.definitions]
    exact rebuilt.definitions
  · rw [kept, kept']
    exact sections

/-- **The order of units plays no part.** Analysis accepts a program if and only if it accepts the
same units in another order. Then the scopes and symbols of the two analyses stand for each other,
one to one; scopes and symbols that do have the same kinds, names, slots and defining nodes, and
under their numbers references, imports, captures and sections lead to the same. -/
theorem analyze_perm (numbered : units.Numbered) (perm : List.Perm units units') :
    ((∃ a, analyze false units = .ok a) ↔ ∃ a', analyze false units' = .ok a') ∧
    ∀ a a', analyze false units = .ok a → analyze false units' = .ok a' → ∃ ρ, a.Alike ρ a' := by
  refine ⟨⟨?_, ?_⟩, fun a a' h h' => ?_⟩
  · rintro ⟨a, h⟩
    obtain ⟨-, a', h', -⟩ := analyze_reordered numbered perm h
    exact ⟨a', h'⟩
  · rintro ⟨a', h'⟩
    obtain ⟨-, a, h, -⟩ := analyze_reordered (numbered.perm perm) perm.symm h'
    exact ⟨a, h⟩
  · obtain ⟨ρ, a'', h'', alike⟩ := analyze_reordered numbered perm h
    cases h'.symm.trans h''
    exact ⟨ρ, alike⟩

end Reordered

/-- A module with nested functions, and an interactive unit with a section of that module. -/
def sectionedFunctions : UnitSet :=
  let node (index : Nat) : Node := ⟨.tree index, default⟩
  nestedFunctions ++
    [⟨node 40, "i", 0, .interactive [⟨node 41, "m",
      [⟨node 42, "y", .any, .reference (node 43) ⟨.here, ["l", "base"]⟩⟩]⟩]⟩]

/-- The theorem at these units, which are accepted in either order. -/
theorem analyze_perm_sectioned : sectionedFunctions.Numbered ∧
    List.Perm sectionedFunctions sectionedFunctions.reverse ∧ ∃ ρ a a',
      analyze false sectionedFunctions = .ok a ∧ analyze false sectionedFunctions.reverse = .ok a' ∧
      a.Alike ρ a' := by
  have numbered : sectionedFunctions.Numbered := by decide +kernel
  have perm : List.Perm sectionedFunctions sectionedFunctions.reverse := (List.reverse_perm _).symm
  have accepted : (analyze false sectionedFunctions).isOk = true := by decide +kernel
  obtain ⟨both, alike⟩ := analyze_perm numbered perm
  cases h : analyze false sectionedFunctions with
  | error fault =>
    rw [h] at accepted
    cases accepted
  | ok a =>
    obtain ⟨a', h'⟩ := both.mp ⟨a, h⟩
    obtain ⟨ρ, related⟩ := alike a a' h h'
    exact ⟨numbered, perm, ρ, a, a', rfl, h', related⟩

end CellScript
