import CellScript.Proofs.Linking.Resolves
import CellScript.Proofs.Scope.Reach
import CellScript.Proofs.Scope.Renumbered
import CellScript.Proofs.Scope.Walks

/-!
# What does not depend on numbers

Two arenas that differ in numbers only give the same answers: walks outwards pass scopes that stand
for each other, names denote symbols that stand for each other, and what a symbol resolves to in one
arena stands for what it resolves to in the other.

* `Arena.Renumbers.firstSymbol?`, `Arena.Renumbers.depth?` — walks outwards
* `Arena.Renumbers.inside`, `Arena.Renumbers.follow` — functions and blocks around a scope, paths of
  names
* `Arena.Renumbers.resolves` — what symbols stand for
-/

namespace CellScript.Arena.Renumbers

variable {ρ : Pairing} {a a' : Arena} {σ σ' τ τ' : ScopeId} {s s' t t' : SymbolId}

theorem flip (h : a.Renumbers ρ a') : a'.Renumbers ρ.flip a where
  alike := h.alike.flip
  once := ⟨fun first second => (h.once.scope first second).symm,
    fun first second => (h.once.symbol first second).symm⟩
  scope := h.scope'
  scope' := h.scope
  symbol := h.symbol'
  symbol' := h.symbol
  scopeRange σ σ' paired := (h.scopeRange σ' σ paired).symm
  symbolRange t t' paired := (h.symbolRange t' t paired).symm

/-! ## Walks outwards -/

theorem isDynamic (h : a.Renumbers ρ a') (paired : ρ.scope σ σ') :
    (a.scope σ).kind.isDynamic = (a'.scope σ').kind.isDynamic :=
  (h.alike.scope σ σ' paired).kind.isDynamic

theorem inside (h : a.Renumbers ρ a') (inside : a.Inside σ τ) (paired : ρ.scope σ σ')
    (paired' : ρ.scope τ τ') : a'.Inside σ' τ' := by
  induction inside generalizing σ' with
  | refl dynamic =>
    rw [← (h.once.scope paired paired').mp rfl]
    exact .refl (h.isDynamic paired ▸ dynamic)
  | step dynamic enclosing rest ih =>
    have related := (h.alike.scope _ _ paired).enclosing
    rw [enclosing] at related
    obtain ⟨outer', enclosing', outer⟩ := optionRel_some related
    exact .step (h.isDynamic paired ▸ dynamic) enclosing' (ih outer paired')

theorem inside_iff (h : a.Renumbers ρ a') (paired : ρ.scope σ σ') (paired' : ρ.scope τ τ') :
    a.Inside σ τ ↔ a'.Inside σ' τ' :=
  ⟨fun inside => h.inside inside paired paired', fun inside => h.flip.inside inside paired paired'⟩

theorem searchMembers? (h : a.Renumbers ρ a') (wanted : Target) (name : String)
    (paired : ρ.scope σ σ') : Option.Rel (Option.Rel ρ.symbol) (a.searchMembers? wanted name σ)
      (a'.searchMembers? wanted name σ') := by
  have names := (h.alike.scope σ σ' paired).names name
  have kind := (h.alike.scope σ σ' paired).kind
  unfold Arena.searchMembers?
  generalize (a.scope σ).kind = k at kind
  generalize (a'.scope σ').kind = k' at kind
  cases kind with
  | members owner =>
    simp only [(h.alike.symbol _ _ owner).target]
    split
    · exact .some names
    · exact .none
  | _ => exact .none

/-- What the search for a name comes to in one scope. -/
theorem search? (h : a.Renumbers ρ a') (anchor : Anchor) (name : String) (paired : ρ.scope σ σ') :
    Option.Rel (Option.Rel ρ.symbol) (a.search? anchor name σ) (a'.search? anchor name σ') := by
  have names := (h.alike.scope σ σ' paired).names name
  have kind := (h.alike.scope σ σ' paired).kind
  cases anchor with
  | global =>
    have same : ((a.scope σ).kind == .global) = ((a'.scope σ').kind == .global) := by
      rw [Bool.eq_iff_iff, beq_iff_eq, beq_iff_eq, kind.global_iff]
    simp only [Arena.search?, same]
    split
    · exact .some names
    · exact .none
  | here =>
    have same : a.isOutermost σ = a'.isOutermost σ' := by
      unfold isOutermost
      generalize (a.scope σ).kind = k at kind
      generalize (a'.scope σ').kind = k' at kind
      cases kind <;> rfl
    simp only [Arena.search?, same]
    split
    · exact .some .none
    · exact optionRel_map names fun _ _ related => .some related
  | module => exact h.searchMembers? .module name paired
  | library => exact h.searchMembers? .library name paired

/-- **The first name of a path denotes symbols that stand for each other.** -/
theorem firstSymbol? (h : a.Renumbers ρ a') (outer : a.Descends) (outer' : a'.Descends)
    (anchor : Anchor) (name : String) (paired : ρ.scope σ σ') :
    Option.Rel ρ.symbol (a.firstSymbol? σ anchor name) (a'.firstSymbol? σ' anchor name) := by
  induction σ using Descends.induction outer generalizing σ' with
  | outermost σ outermost =>
    have related := (h.alike.scope σ σ' paired).enclosing
    rw [outermost] at related
    rw [firstSymbol?_eq outer, firstSymbol?_eq outer', outermost, optionRel_none related]
    exact optionRel_getD (h.search? anchor name paired) .none
  | inner σ around inner ih =>
    have related := (h.alike.scope σ σ' paired).enclosing
    rw [inner] at related
    obtain ⟨around', inner', related⟩ := optionRel_some related
    rw [firstSymbol?_eq outer, firstSymbol?_eq outer', inner, inner']
    exact optionRel_getD (h.search? anchor name paired) (ih related)

/-- A scope lies as many steps outside of another one in both arenas. -/
theorem depth? (h : a.Renumbers ρ a') (outer : a.Descends) (outer' : a'.Descends)
    (paired : ρ.scope σ σ') (paired' : ρ.scope τ τ') : a.depth? σ τ = a'.depth? σ' τ' := by
  induction σ using Descends.induction outer generalizing σ' with
  | outermost σ outermost =>
    have related := (h.alike.scope σ σ' paired).enclosing
    rw [outermost] at related
    simp only [depth?_eq outer σ, depth?_eq outer' σ', outermost, optionRel_none related,
      h.once.scope paired paired']
    rfl
  | inner σ around inner ih =>
    have related := (h.alike.scope σ σ' paired).enclosing
    rw [inner] at related
    obtain ⟨around', inner', related⟩ := optionRel_some related
    simp only [depth?_eq outer σ, depth?_eq outer' σ', inner, inner', Option.bind_some, ih related,
      h.once.scope paired paired']

/-! ## What symbols show and stand for -/

/-- A path of names goes on in scopes that stand for each other. -/
theorem publicScope? (h : a.Renumbers ρ a') (paired : ρ.symbol s s') :
    Option.Rel ρ.scope (a.publicScope? s) (a'.publicScope? s') := by
  have alike := h.alike.symbol s s' paired
  simp only [Arena.publicScope?, alike.target]
  split
  · exact alike.exports
  · exact alike.members
  · exact alike.members
  · exact alike.members
  · exact .none
  · exact .none

/-- The symbols that hold the values stand for each other. -/
theorem targetOf? (h : a.Renumbers ρ a') (paired : ρ.symbol s s') :
    Option.Rel ρ.symbol (a.targetOf? s) (a'.targetOf? s') := by
  have alike := h.alike.symbol s s' paired
  simp only [Arena.targetOf?, alike.binding.isIndirect]
  split
  · exact alike.resolved
  · exact .some paired

/-- Computations that fail or give what stands for each other. -/
inductive Agrees {α β : Type} (R : α → β → Prop) : Except Fault α → Except Fault β → Prop where
  | ok {v : α} {w : β} (related : R v w) : Agrees R (.ok v) (.ok w)
  | error (e e' : Fault) : Agrees R (.error e) (.error e')

/-- A reference starts at symbols that stand for each other. -/
theorem start (h : a.Renumbers ρ a') (outer : a.Descends) (outer' : a'.Descends) (r : Reference)
    (paired : ρ.scope σ σ') : Option.Rel ρ.symbol (r.path.head?.bind (a.firstSymbol? σ r.anchor))
      (r.path.head?.bind (a'.firstSymbol? σ' r.anchor)) :=
  optionRel_bind (optionRel_same _) fun _ _ same => same ▸ h.firstSymbol? outer outer' _ _ paired

theorem first (h : a.Renumbers ρ a') (outer : a.Descends) (outer' : a'.Descends)
    (r : Reference) (span : Span) (paired : ρ.scope σ σ') :
    Agrees ρ.symbol (a.first σ r span) (a'.first σ' r span) := by
  have found := h.start outer outer' r paired
  unfold Arena.first
  generalize r.path.head?.bind (a.firstSymbol? σ r.anchor) = x at found
  generalize r.path.head?.bind (a'.firstSymbol? σ' r.anchor) = y at found
  cases found with
  | none => exact .error _ _
  | some related => exact .ok related

theorem publicMember (h : a.Renumbers ρ a') (name : String) (r : Reference) (span : Span)
    (paired : ρ.symbol s s') :
    Agrees ρ.symbol (a.publicMember s name r span) (a'.publicMember s' name r span) := by
  have shown := h.publicScope? paired
  unfold Arena.publicMember
  generalize a.publicScope? s = x at shown
  generalize a'.publicScope? s' = y at shown
  cases shown with
  | none => exact .error _ _
  | @some σ σ' related =>
    have found := (h.alike.scope σ σ' related).names name
    simp only
    generalize (a.scope σ).get? name = x at found
    generalize (a'.scope σ').get? name = y at found
    cases found with
    | none => exact .error _ _
    | some related => exact .ok related

theorem linked (h : a.Renumbers ρ a') (span : Span) (paired : ρ.symbol s s') :
    Agrees ρ.symbol (a.linked s span) (a'.linked s' span) := by
  have target := h.targetOf? paired
  unfold Arena.linked
  generalize a.targetOf? s = x at target
  generalize a'.targetOf? s' = y at target
  cases target with
  | none => exact .error _ _
  | some related => exact .ok related

/-- **Paths of names lead to symbols that stand for each other.** -/
theorem follow (h : a.Renumbers ρ a') (r : Reference) (span : Span) (names : List String)
    (paired : ρ.symbol s s') :
    Agrees ρ.symbol (a.follow r span s names) (a'.follow r span s' names) := by
  induction names generalizing s s' with
  | nil => exact .ok paired
  | cons name rest ih =>
    simp only [Arena.follow]
    have first := h.linked span paired
    generalize a.linked s span = x at first
    generalize a'.linked s' span = y at first
    cases first with
    | error e e' => exact .error e e'
    | @ok container container' related =>
      have next := h.publicMember name r span related
      simp only
      generalize a.publicMember container name r span = x at next
      generalize a'.publicMember container' name r span = y at next
      cases next with
      | error e e' => exact .error e e'
      | ok related => exact ih related

/-- References are classified alike. -/
theorem classify (h : a.Renumbers ρ a') (outer : a.Descends) (outer' : a'.Descends) (r : Reference)
    (paired : ρ.scope σ σ') (first : ρ.symbol s s') (target : ρ.symbol t t') :
    a.classify σ r s t = a'.classify σ' r s' t' := by
  have same : (s == t) = (s' == t') := by
    rw [Bool.eq_iff_iff, beq_iff_eq, beq_iff_eq, h.once.symbol first target]
  unfold Arena.classify
  rw [same, h.depth? outer outer' paired (h.alike.symbol t t' target).scope]

/-! ## What symbols resolve to -/

section Resolution

variable {units units' : Entries SymbolId}

/-- The same paths lead to units that stand for each other. -/
def SameUnits (ρ : Pairing) (units units' : Entries SymbolId) : Prop :=
  ∀ path, Option.Rel ρ.symbol (Entries.get? units path) (Entries.get? units' path)

theorem isModule (h : a.Renumbers ρ a') (same : SameUnits ρ units units') {path : String}
    (found : a.IsModule units path s) : ∃ s', a'.IsModule units' path s' ∧ ρ.symbol s s' := by
  have related := same path
  rw [found.1] at related
  obtain ⟨s', found', related⟩ := optionRel_some related
  exact ⟨s', ⟨found', (h.alike.symbol s s' related).target ▸ found.2⟩, related⟩

theorem exports (h : a.Renumbers ρ a') {name : String} (shown : a.Exports s name t)
    (paired : ρ.symbol s s') : ∃ t', a'.Exports s' name t' ∧ ρ.symbol t t' := by
  obtain ⟨σ, exports, found⟩ := shown
  have related := (h.alike.symbol s s' paired).exports
  rw [exports] at related
  obtain ⟨σ', exports', related⟩ := optionRel_some related
  have names := (h.alike.scope σ σ' related).names name
  rw [found] at names
  obtain ⟨t', found', related'⟩ := optionRel_some names
  exact ⟨t', ⟨σ', exports', found'⟩, related'⟩

theorem shows (h : a.Renumbers ρ a') {name : String} (shown : a.Shows s name t)
    (paired : ρ.symbol s s') : ∃ t', a'.Shows s' name t' ∧ ρ.symbol t t' := by
  obtain ⟨σ, shows, found⟩ := shown
  have related := h.publicScope? paired
  rw [shows] at related
  obtain ⟨σ', shows', related⟩ := optionRel_some related
  have names := (h.alike.scope σ σ' related).names name
  rw [found] at names
  obtain ⟨t', found', related'⟩ := optionRel_some names
  exact ⟨t', ⟨σ', shows', found'⟩, related'⟩

theorem startsAt (h : a.Renumbers ρ a') (outer : a.Descends) (outer' : a'.Descends) {r : Reference}
    (starts : a.StartsAt σ r s) (paired : ρ.scope σ σ') :
    ∃ s', a'.StartsAt σ' r s' ∧ ρ.symbol s s' := by
  have found := h.start outer outer' r paired
  rw [show _ = _ from starts] at found
  exact optionRel_some found

/-- **What symbols resolve to stands for each other.** -/
theorem resolves (h : a.Renumbers ρ a') (same : SameUnits ρ units units') (outer : a.Descends)
    (outer' : a'.Descends) (resolves : Resolves a units s t) (paired : ρ.symbol s s') :
    ∃ t', Resolves a' units' s' t' ∧ ρ.symbol t t' := by
  refine @Resolves.rec a units
    (fun s t _ => ∀ s', ρ.symbol s s' → ∃ t', Resolves a' units' s' t' ∧ ρ.symbol t t')
    (fun s names t _ => ∀ s', ρ.symbol s s' → ∃ t', Leads a' units' s' names t' ∧ ρ.symbol t t')
    ?direct ?moduleImport ?nameImport ?path ?nil ?cons s t resolves s' paired
  case direct =>
    intro s binding s' paired
    have alike := (h.alike.symbol s s' paired).binding
    rw [binding] at alike
    exact ⟨s', .direct alike.eq_direct, paired⟩
  case moduleImport =>
    intro s module unit binding found s' paired
    have alike := (h.alike.symbol s s' paired).binding
    rw [binding] at alike
    obtain ⟨module', found', related⟩ := h.isModule same found
    exact ⟨module', .moduleImport alike.eq_moduleImport found', related⟩
  case nameImport =>
    intro s module entry t unit name binding found exported _ ih s' paired
    have alike := (h.alike.symbol s s' paired).binding
    rw [binding] at alike
    obtain ⟨module', found', related⟩ := h.isModule same found
    obtain ⟨entry', exported', related⟩ := h.exports exported related
    obtain ⟨t', rest', related⟩ := ih entry' related
    exact ⟨t', .nameImport alike.eq_nameImport found' exported' rest', related⟩
  case path =>
    intro s start last t r scope binding found _ _ walk rest s' paired
    obtain ⟨scope', root, binding'⟩ := (h.alike.symbol s s' paired).binding.path binding
    obtain ⟨start', found', related⟩ := h.startsAt outer outer' found root
    obtain ⟨last', walk', related⟩ := walk start' related
    obtain ⟨t', rest', related⟩ := rest last' related
    exact ⟨t', .path binding' found' walk' rest', related⟩
  case nil => exact fun s' paired => ⟨s', .nil, paired⟩
  case cons =>
    intro s container next last name names _ shown _ first rest s' paired
    obtain ⟨container', first', related⟩ := first s' paired
    obtain ⟨next', shown', related⟩ := h.shows shown related
    obtain ⟨last', rest', related⟩ := rest next' related
    exact ⟨last', .cons first' shown' rest', related⟩

end Resolution

end CellScript.Arena.Renumbers
