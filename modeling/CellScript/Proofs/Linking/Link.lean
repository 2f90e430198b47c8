import CellScript.Proofs.Linking.Resolves
import Mathlib.Data.List.Perm.Subperm

/-!
# Linking binds what symbols stand for

Linking walks from symbol to symbol and binds as it goes, so its outcome could depend on where it
starts and on what was bound before. It does not. Whatever is bound agrees with `Resolves` on the
arena as it was built (`Binds`), and a symbol that resolves is bound when linking starts from it
with an empty chain, because a shortest derivation never comes back to a symbol of the chain.

* `Arena.linkChain_binds` — linking binds nothing wrong, also when it fails
* `Arena.linkChain_complete` — linking succeeds where there is a derivation
* `buildScopes_linkAll` — in any order, linking computes resolution
-/

namespace CellScript

namespace Arena

/-! ## The arena before and during linking -/

/-- Nothing is linked, and units and owners of members stand for themselves. -/
structure Unlinked (a : Arena) (units : Entries SymbolId) : Prop where
  resolved : ∀ s, (a.symbol s).resolved = none
  unit : ∀ path s, Entries.get? units path = some s → (a.symbol s).binding = .direct
  owner : ∀ scope s, (a.scope scope).kind = .members s → (a.symbol s).binding = .direct

/-- A symbol with the one it stands for. -/
def boundTo (a : Arena) (s t : SymbolId) : Symbol :=
  { a.symbol s with resolved := some t, target := (a.symbol t).target }

/-- The arena `b` is `a`, apart from symbols that are bound to what they resolve to in `a`. -/
structure Binds (a : Arena) (units : Entries SymbolId) (b : Arena) : Prop where
  scopes : b.scopes = a.scopes
  size : b.symbols.size = a.symbols.size
  symbol : ∀ s, b.symbol s = a.symbol s ∨
    (a.symbol s).binding.isIndirect = true ∧ ∃ t, Resolves a units s t ∧ b.symbol s = a.boundTo s t

variable {a b : Arena} {units : Entries SymbolId}

theorem Binds.refl : Binds a units a := ⟨rfl, rfl, fun _ => .inl rfl⟩

namespace Binds

variable {s : SymbolId}

theorem scope (h : Binds a units b) (id : ScopeId) : b.scope id = a.scope id := by
  simp only [Arena.scope, h.scopes]

theorem binding (h : Binds a units b) : (b.symbol s).binding = (a.symbol s).binding := by
  rcases h.symbol s with he | ⟨-, t, -, he⟩
  · rw [he]
  · rw [he]
    rfl

theorem exports (h : Binds a units b) : (b.symbol s).exports = (a.symbol s).exports := by
  rcases h.symbol s with he | ⟨-, t, -, he⟩
  · rw [he]
  · rw [he]
    rfl

/-- A symbol that stands for itself is as it was built. -/
theorem symbol_of_direct (h : Binds a units b) (direct : (a.symbol s).binding = .direct) :
    b.symbol s = a.symbol s := by
  rcases h.symbol s with he | ⟨hi, -⟩
  · exact he
  · rw [direct] at hi
    cases hi

/-- What is bound is bound rightly. -/
theorem resolves {t : SymbolId} (fresh : Unlinked a units) (h : Binds a units b)
    (bound : (b.symbol s).resolved = some t) :
    Resolves a units s t ∧ b.symbol s = a.boundTo s t := by
  rcases h.symbol s with he | ⟨-, t', hr, he⟩
  · rw [he, fresh.resolved] at bound
    cases bound
  · rw [he] at bound
    cases bound
    exact ⟨hr, he⟩

theorem chain (h : Binds a units b) (scope : ScopeId) : b.chain scope = a.chain scope := by
  have outwards : ∀ fuel scope, b.outwards fuel scope = a.outwards fuel scope := by
    intro fuel
    induction fuel with
    | zero => exact fun _ => rfl
    | succ fuel ih =>
      intro scope
      simp only [Arena.outwards, h.scope, ih]
  simp only [Arena.chain, outwards, h.scopes]

/-- References start where they would have started before linking. -/
theorem firstSymbol? (fresh : Unlinked a units) (h : Binds a units b) (scope : ScopeId)
    (anchor : Anchor) (name : String) :
    b.firstSymbol? scope anchor name = a.firstSymbol? scope anchor name := by
  have memberScope? : ∀ wanted, b.memberScope? scope wanted = a.memberScope? scope wanted := by
    intro wanted
    unfold Arena.memberScope?
    rw [h.chain]
    congr 1
    funext id
    rw [h.scope]
    cases hk : (a.scope id).kind with
    | members owner => simp only [h.symbol_of_direct (fresh.owner id owner hk)]
    | _ => rfl
  have isOutermost : ∀ id, b.isOutermost id = a.isOutermost id := by
    intro id
    simp only [Arena.isOutermost, h.scope]
  cases anchor <;> simp only [Arena.firstSymbol?, h.chain, h.scope, memberScope?, isOutermost]

theorem publicScope? (h : Binds a units b) (direct : (a.symbol s).binding = .direct) :
    b.publicScope? s = a.publicScope? s := by
  simp only [Arena.publicScope?, h.symbol_of_direct direct]

end Binds

/-- **What a symbol resolves to stands for nothing but itself.** -/
theorem Resolves.isDirect (fresh : Unlinked a units) {s t : SymbolId}
    (h : Resolves a units s t) : (a.symbol t).binding = .direct := by
  refine @Resolves.rec a units (fun _ t _ => (a.symbol t).binding = .direct) (fun _ _ _ _ => True)
    ?direct ?moduleImport ?nameImport ?path trivial ?cons s t h
  case direct => exact fun binding => binding
  case moduleImport => exact fun _ found => fresh.unit _ _ found.1
  case nameImport => exact fun _ _ _ _ rest => rest
  case path => exact fun _ _ _ _ _ rest => rest
  case cons => exact fun _ _ _ _ _ => trivial

/-! ## Computations that bind -/

section Computations

variable {α β : Type}

/-- A sequence ends where its first part fails, with what was bound until then. -/
theorem bind_linking (x : Linking α) (f : α → Linking β) (b : Arena) :
    (x >>= f) b = match x b with
      | (.ok v, b) => f v b
      | (.error e, b) => (.error e, b) := by
  show (ExceptT.bind x f) b = _
  simp only [ExceptT.bind, ExceptT.mk, bind, StateT.bind, ExceptT.bindCont]
  rcases x b with ⟨v | e, b'⟩ <;> rfl

/-- Linked symbols stay linked. -/
def Keeps (b b' : Arena) : Prop :=
  ∀ s, (b.symbol s).resolved.isSome = true → (b'.symbol s).resolved.isSome = true

/-- Whatever the computation finds satisfies `post`, and whether or not it finds anything, it binds
rightly and unbinds nothing. -/
def Sound (a : Arena) (units : Entries SymbolId) (post : α → Arena → Prop) (x : Linking α) : Prop :=
  ∀ b, Binds a units b → Binds a units (x b).2 ∧ Keeps b (x b).2 ∧
    ∀ v, (x b).1 = .ok v → post v (x b).2

theorem Sound.asking {f : Arena → Except Fault α} {Q : α → Arena → Prop}
    (h : ∀ b v, Binds a units b → f b = .ok v → Q v b) : Sound a units Q (asking f) :=
  fun b hb => ⟨hb, fun _ => id, fun v hv => h b v hb hv⟩

theorem Sound.bind {x : Linking α} {f : α → Linking β} {P : α → Prop} {post : β → Arena → Prop}
    (hx : Sound a units (fun v _ => P v) x) (hf : ∀ v, P v → Sound a units post (f v)) :
    Sound a units post (x >>= f) := by
  intro b hb
  obtain ⟨binds, keeps, found⟩ := hx b hb
  rw [bind_linking]
  rcases hxb : x b with ⟨e | v, b'⟩
  · rw [hxb] at binds keeps
    exact ⟨binds, keeps, fun v hv => by cases hv⟩
  · rw [hxb] at binds keeps found
    obtain ⟨binds', keeps', found'⟩ := hf v (found v rfl) b' binds
    exact ⟨binds', fun s hs => keeps' s (keeps s hs), found'⟩

end Computations

/-! ## Linking binds nothing wrong -/

section Soundness

theorem module_ok (fresh : Unlinked a units) (h : Binds a units b) {path : String} {span : Span}
    {id : SymbolId} : b.module units path span = .ok id ↔ a.IsModule units path id := by
  unfold Arena.module IsModule
  cases hu : Entries.get? units path with
  | none => simp
  | some id' =>
    simp only [h.symbol_of_direct (fresh.unit path id' hu), Option.some.injEq, beq_iff_eq]
    split
    · next ht =>
      constructor
      · rintro ⟨⟩
        exact ⟨rfl, ht⟩
      · rintro ⟨rfl, -⟩
        rfl
    · next ht =>
      constructor
      · rintro ⟨⟩
      · rintro ⟨rfl, ht'⟩
        exact absurd ht' ht

theorem exported_ok (h : Binds a units b) {module : SymbolId} {name unit : String} {span : Span}
    {entry : SymbolId} :
    b.exported module name unit span = .ok entry ↔ a.Exports module name entry := by
  have same : ((b.symbol module).exports.bind fun scope => (b.scope scope).get? name) =
      (a.symbol module).exports.bind fun scope => (a.scope scope).get? name := by
    simp only [h.exports, h.scope]
  unfold Arena.exported Exports
  rw [same, ← Option.bind_eq_some_iff]
  split
  · next found => simp [found]
  · next missing => simp only [missing, reduceCtorEq]

theorem first_ok (fresh : Unlinked a units) (h : Binds a units b) {scope : ScopeId} {r : Reference}
    {span : Span} {start : SymbolId} :
    b.first scope r span = .ok start ↔ a.StartsAt scope r start := by
  have same : b.firstSymbol? scope r.anchor = a.firstSymbol? scope r.anchor :=
    funext (h.firstSymbol? fresh scope r.anchor)
  unfold Arena.first StartsAt
  rw [same]
  split
  · next found => simp [found]
  · next missing => simp only [missing, reduceCtorEq]

theorem publicMember_ok (h : Binds a units b) {container : SymbolId}
    (direct : (a.symbol container).binding = .direct) {name : String} {r : Reference} {span : Span}
    {next : SymbolId} :
    b.publicMember container name r span = .ok next ↔ a.Shows container name next := by
  unfold Arena.publicMember Shows
  rw [h.publicScope? direct]
  cases a.publicScope? container with
  | none => simp
  | some scope =>
    simp only [h.scope, Option.some.injEq, exists_eq_left']
    split
    · next found => simp [found]
    · next missing => simp only [missing, reduceCtorEq]

variable {deref : SymbolId → Linking SymbolId}

theorem followLinking_sound (fresh : Unlinked a units)
    (sound : ∀ s, Sound a units (fun t _ => Resolves a units s t) (deref s)) (r : Reference)
    (span : Span) (names : List String) :
    ∀ s, Sound a units (fun t _ => Leads a units s names t)
      (followLinking deref r span s names) := by
  induction names with
  | nil =>
    intro s b hb
    refine ⟨hb, fun _ => id, ?_⟩
    rintro _ ⟨⟩
    exact .nil
  | cons name rest ih =>
    intro s
    refine (sound s).bind fun container first => ?_
    refine Sound.bind (P := a.Shows container name) (.asking fun b next hb hn =>
      (publicMember_ok hb (first.isDirect fresh)).mp hn) fun next shown => ?_
    intro b hb
    obtain ⟨binds, keeps, found⟩ := ih next b hb
    exact ⟨binds, keeps, fun t ht => .cons first shown (found t ht)⟩

theorem denotation_sound (fresh : Unlinked a units)
    (sound : ∀ s, Sound a units (fun t _ => Resolves a units s t) (deref s)) {s : SymbolId}
    (span : Span) {binding : Binding} (hb : (a.symbol s).binding = binding) :
    Sound a units (fun t _ => Resolves a units s t) ( denotation deref units span binding) := by
  have path : ∀ r scope,
      (a.symbol s).binding = .alias r scope ∨ (a.symbol s).binding = .export r scope →
      Sound a units (fun t _ => Resolves a units s t)
        ( denotation deref units span (.alias r scope)) := by
    intro r scope hb
    refine Sound.bind (P := a.StartsAt scope r) (.asking fun b start hb hs =>
      (first_ok fresh hb).mp hs) fun start starts => ?_
    refine Sound.bind (followLinking_sound fresh sound r span _ start) fun last walk => ?_
    intro b hb'
    obtain ⟨binds, keeps, found⟩ := sound last b hb'
    exact ⟨binds, keeps, fun t ht => .path hb starts walk (found t ht)⟩
  cases binding with
  | direct => exact .asking fun _ _ _ h => by cases h
  | moduleImport unit =>
    exact .asking fun b module hb' hm => .moduleImport hb ((module_ok fresh hb').mp hm)
  | nameImport unit name =>
    refine Sound.bind (P := a.IsModule units unit) (.asking fun b module hb hm =>
      (module_ok fresh hb).mp hm) fun module isModule => ?_
    refine Sound.bind (P := a.Exports module name) (.asking fun b entry hb he =>
      (exported_ok hb).mp he) fun entry exported => ?_
    intro b hb'
    obtain ⟨binds, keeps, found⟩ := sound entry b hb'
    exact ⟨binds, keeps, fun t ht => .nameImport hb isModule exported (found t ht)⟩
  | «alias» r scope => exact path r scope (.inl hb)
  | «export» r scope => exact path r scope (.inr hb)

/-- What a symbol stands for, after it has been linked. -/
def linkedFrom (units : Entries SymbolId) (fuel : Nat) (chain : List SymbolId) (span : Span)
    (other : SymbolId) : Linking SymbolId := do
  linkChain units fuel chain other
  asking fun a => a.linked other span

theorem linkChain_succ (units : Entries SymbolId) (fuel : Nat) (chain : List SymbolId)
    (s : SymbolId) (b : Arena) :
    linkChain units (fuel + 1) chain s b =
      if (!(b.symbol s).binding.isIndirect || (b.symbol s).resolved.isSome) = true then (.ok ⟨⟩, b)
      else if chain.contains s = true then
        (.error (.cyclicReference ((chain ++ [s]).map fun s => (b.symbol s).name)
          (b.symbol s).span), b)
      else
        ( denotation (linkedFrom units fuel (chain ++ [s]) (b.symbol s).span) units
          (b.symbol s).span (b.symbol s).binding >>= fun target =>
            (modify fun a => a.setResolved s target : Linking PUnit)) b := by
  rw [linkChain]
  show (if _ then _ else _ : Linking PUnit) b = _
  split
  · rfl
  · split <;> rfl

/-- A symbol has been bound if it needs to be. -/
def Settled (a : Arena) (s : SymbolId) (b : Arena) : Prop :=
  (a.symbol s).binding.isIndirect = true → (b.symbol s).resolved.isSome = true

theorem linked_ok (fresh : Unlinked a units) (h : Binds a units b) {s t : SymbolId} {span : Span}
    (linked : b.linked s span = .ok t) : Resolves a units s t := by
  simp only [Arena.linked, Arena.targetOf?, h.binding] at linked
  cases hi : (a.symbol s).binding.isIndirect with
  | false =>
    simp only [hi] at linked
    cases linked
    refine .direct ?_
    cases hb : (a.symbol s).binding <;> simp_all [Binding.isIndirect]
  | true =>
    simp only [hi, if_true] at linked
    cases hr : (b.symbol s).resolved with
    | none =>
      rw [hr] at linked
      cases linked
    | some t' =>
      rw [hr] at linked
      cases linked
      exact (h.resolves fresh hr).1

/-- Symbols that stand for others have been declared. -/
theorem lt_size_of_isIndirect {s : SymbolId} (h : (a.symbol s).binding.isIndirect = true) :
    s < a.symbols.size := by
  refine Nat.lt_of_not_le fun hge => ?_
  rw [Arena.symbol, Array.getD_eq_getD_getElem?, Array.getElem?_eq_none hge] at h
  cases h

/-- To bind a symbol to what it resolves to is right. -/
theorem binds_setResolved (fresh : Unlinked a units) (h : Binds a units b) {s t : SymbolId}
    (indirect : (a.symbol s).binding.isIndirect = true) (resolves : Resolves a units s t) :
    Binds a units (b.setResolved s t) ∧ Keeps b (b.setResolved s t) ∧
      Settled a s (b.setResolved s t) := by
  have known : s < b.symbols.size := h.size ▸ lt_size_of_isIndirect indirect
  have target : (b.symbol t).target = (a.symbol t).target := by
    rw [h.symbol_of_direct (resolves.isDirect fresh)]
  have self : (b.setResolved s t).symbol s = a.boundTo s t := by
    simp only [Arena.setResolved, Arena.symbol_modifySymbol, known, and_self, if_true, target,
      boundTo]
    rcases h.symbol s with he | ⟨-, t', -, he⟩
    · rw [he]
    · rw [he]
      rfl
  have other : ∀ id, id ≠ s → (b.setResolved s t).symbol id = b.symbol id := by
    intro id hne
    simp only [Arena.setResolved, Arena.symbol_modifySymbol, hne, false_and, if_false]
  refine ⟨⟨h.scopes, ?_, fun id => ?_⟩, fun id hs => ?_, fun _ => ?_⟩
  · simp only [Arena.setResolved, Arena.modifySymbol, Array.size_modify, h.size]
  · by_cases he : id = s
    · subst he
      exact .inr ⟨indirect, t, resolves, self⟩
    · rw [other id he]
      exact h.symbol id
  · by_cases he : id = s
    · subst he
      rw [self]
      rfl
    · rwa [other id he]
  · rw [self]
    rfl

theorem linkedFrom_sound_of {fuel : Nat} {chain : List SymbolId}
    (fresh : Unlinked a units)
    (h : ∀ s, Sound a units (fun _ b => Settled a s b) (linkChain units fuel chain s)) (span : Span)
    (s : SymbolId) :
    Sound a units (fun t _ => Resolves a units s t) (linkedFrom units fuel chain span s) := by
  refine Sound.bind (P := fun _ => True) ?_ fun _ _ => .asking fun b t hb ht =>
    linked_ok fresh hb ht
  intro b hb
  obtain ⟨binds, keeps, -⟩ := h s b hb
  exact ⟨binds, keeps, fun _ _ => trivial⟩

/-- **Linking binds nothing wrong**, whatever the chain it starts with. -/
theorem linkChain_binds (fresh : Unlinked a units) (fuel : Nat) :
    ∀ chain s, Sound a units (fun _ b => Settled a s b) (linkChain units fuel chain s) := by
  induction fuel with
  | zero => exact fun chain s => .asking fun _ _ _ h => by cases h
  | succ fuel ih =>
    intro chain s b hb
    rw [linkChain_succ]
    split
    · next done =>
      refine ⟨hb, fun _ => id, fun _ _ indirect => ?_⟩
      simpa [hb.binding, indirect] using done
    · next due =>
      simp only [hb.binding, Bool.or_eq_true, Bool.not_eq_true', not_or, Bool.not_eq_false] at due
      split
      · exact ⟨hb, fun _ => id, fun v hv => by cases hv⟩
      · have indirect : (a.symbol s).binding.isIndirect = true := due.1
        have deref := linkedFrom_sound_of fresh (ih (chain ++ [s])) (b.symbol s).span
        refine Sound.bind (denotation_sound fresh deref _ hb.binding.symm)
          (fun t resolves => ?_) b hb
        intro b hb
        obtain ⟨binds, keeps, settled⟩ := binds_setResolved fresh hb indirect resolves
        exact ⟨binds, keeps, fun _ _ => settled⟩

theorem linkedFrom_sound (fresh : Unlinked a units) (fuel : Nat) (chain : List SymbolId)
    (span : Span) (s : SymbolId) :
    Sound a units (fun t _ => Resolves a units s t) (linkedFrom units fuel chain span s) :=
  linkedFrom_sound_of fresh (linkChain_binds fresh fuel chain) span s

end Soundness

/-! ## Linking finds what there is -/

section Completeness

/-- The computation succeeds with `v`, whatever has been bound before. -/
def Finds {α : Type} (a : Arena) (units : Entries SymbolId) (x : Linking α) (v : α) : Prop :=
  ∀ b, Binds a units b → (x b).1 = .ok v

theorem Finds.bind {α β : Type} {x : Linking α} {f : α → Linking β} {post : α → Arena → Prop}
    {v : α} {w : β} (sound : Sound a units post x) (hx : Finds a units x v)
    (hf : Finds a units (f v) w) :
    Finds a units (x >>= f) w := by
  intro b hb
  have binds := (sound b hb).1
  have found := hx b hb
  rw [bind_linking]
  rcases hxb : x b with ⟨r, b'⟩
  rw [hxb] at binds found
  cases found
  exact hf b' binds

theorem Finds.asking_bind {α β : Type} {f : Arena → Except Fault α} {g : α → Linking β} {v : α}
    {w : β} (hf : ∀ b, Binds a units b → f b = .ok v) (hg : Finds a units (g v) w) :
    Finds a units (asking f >>= g) w :=
  Finds.bind (Sound.asking (Q := fun _ _ => True) fun _ _ _ _ => trivial) hf hg

variable {deref : SymbolId → Linking SymbolId} {f : SymbolId → Option SymbolId}

theorem followLinking_finds (fresh : Unlinked a units)
    (sound : ∀ s, Sound a units (fun t _ => Resolves a units s t) (deref s))
    (right : ∀ s t, f s = some t → Resolves a units s t)
    (finds : ∀ s t, f s = some t → Finds a units (deref s) t) (r : Reference) (span : Span)
    (names : List String) :
    ∀ s t, a.followBy f s names = some t →
      Finds a units (followLinking deref r span s names) t := by
  induction names with
  | nil =>
    rintro s _ ⟨⟩ b hb
    rfl
  | cons name rest ih =>
    intro s t h
    simp only [followBy, Option.bind_eq_some_iff] at h
    obtain ⟨container, hc, scope, hp, next, hn, hr⟩ := h
    have direct := (right s container hc).isDirect fresh
    exact Finds.bind (sound s) (finds s container hc) <|
      Finds.asking_bind (fun b hb => (publicMember_ok hb direct).mpr ⟨scope, hp, hn⟩) (ih next t hr)

theorem denotation_finds (fresh : Unlinked a units)
    (sound : ∀ s, Sound a units (fun t _ => Resolves a units s t) (deref s))
    (right : ∀ s t, f s = some t → Resolves a units s t)
    (finds : ∀ s t, f s = some t → Finds a units (deref s) t) {s t : SymbolId} (span : Span)
    (indirect : (a.symbol s).binding.isIndirect = true) (h : a.denoteBy units f s = some t) :
    Finds a units ( denotation deref units span (a.symbol s).binding) t := by
  have path : ∀ r scope,
      ((r.path.head?.bind (a.firstSymbol? scope r.anchor)).bind fun start =>
        (a.followBy f start (r.path.drop 1)).bind f) = some t →
      Finds a units ( denotation deref units span (.alias r scope)) t := by
    intro r scope h
    simp only [Option.bind_eq_some_iff] at h
    obtain ⟨start, hs, last, hl, ht⟩ := h
    exact Finds.asking_bind
      (fun b hb => (first_ok fresh hb).mpr (Option.bind_eq_some_iff.mpr hs)) <|
      Finds.bind (followLinking_sound fresh sound r span _ start)
        (followLinking_finds fresh sound right finds r span _ start last hl) (finds last t ht)
  unfold denoteBy at h
  cases hb : (a.symbol s).binding with
  | direct =>
    rw [hb] at indirect
    cases indirect
  | moduleImport unit =>
    simp only [hb, Option.filter_eq_some_iff, beq_iff_eq] at h
    exact fun b hb => (module_ok fresh hb).mpr h
  | nameImport unit name =>
    simp only [hb, Option.bind_eq_some_iff, Option.filter_eq_some_iff, beq_iff_eq] at h
    obtain ⟨module, hm, entry, ⟨scope, hscope, he⟩, ht⟩ := h
    exact Finds.asking_bind (fun b hb => (module_ok fresh hb).mpr hm) <|
      Finds.asking_bind (fun b hb => (exported_ok hb).mpr ⟨scope, hscope, he⟩) (finds entry t ht)
  | «alias» r scope =>
    simp only [hb] at h
    exact path r scope h
  | «export» r scope =>
    simp only [hb] at h
    exact path r scope h

/-- What resolves is found linked once linking has succeeded. -/
theorem linkedFrom_finds (fresh : Unlinked a units) {fuel : Nat} {chain : List SymbolId}
    {s t : SymbolId} (span : Span) (resolves : Resolves a units s t)
    (h : Finds a units (linkChain units fuel chain s) ⟨⟩) :
    Finds a units (linkedFrom units fuel chain span s) t := by
  intro b hb
  obtain ⟨binds, -, settled⟩ := linkChain_binds fresh fuel chain s b hb
  have ok := h b hb
  show ((linkChain units fuel chain s >>= fun _ => asking fun a => a.linked s span) b).1 = .ok t
  rw [bind_linking]
  rcases hl : linkChain units fuel chain s b with ⟨r, b'⟩
  rw [hl] at binds settled ok
  cases ok
  show b'.linked s span = .ok t
  have linked : ∃ t', b'.linked s span = .ok t' := by
    simp only [Arena.linked, Arena.targetOf?, binds.binding]
    cases hi : (a.symbol s).binding.isIndirect with
    | false => exact ⟨s, rfl⟩
    | true =>
      obtain ⟨t', ht'⟩ := Option.isSome_iff_exists.mp (settled ⟨⟩ rfl hi)
      exact ⟨t', by simp only [if_true, ht']⟩
  obtain ⟨t', ht'⟩ := linked
  rw [ht', (linked_ok fresh binds ht').unique resolves]

/-- Distinct symbols that take more than `depth` declarations to follow, as a chain of symbols being
linked holds them. -/
structure Deeper (a : Arena) (units : Entries SymbolId) (depth : Nat) (chain : List SymbolId) :
    Prop where
  deeper : ∀ c ∈ chain, a.denote units depth c = none
  nodup : chain.Nodup
  known : ∀ c ∈ chain, c < a.symbols.size

namespace Deeper

variable {depth : Nat} {chain : List SymbolId}

theorem nil : Deeper a units depth [] := ⟨by simp, by simp, by simp⟩

theorem pred (h : Deeper a units (depth + 1) chain) : Deeper a units depth chain := by
  refine ⟨fun c hc => ?_, h.nodup, h.known⟩
  rw [Option.eq_none_iff_forall_ne_some]
  intro t ht
  have := h.deeper c hc
  rw [denote_succ ht] at this
  cases this

theorem concat {s : SymbolId} (h : Deeper a units depth chain) (absent : s ∉ chain)
    (known : s < a.symbols.size) (hs : a.denote units depth s = none) :
    Deeper a units depth (chain ++ [s]) := by
  refine ⟨?_, ?_, ?_⟩
  · simpa [or_imp, forall_and, hs] using h.deeper
  · refine List.nodup_append.mpr ⟨h.nodup, by simp, ?_⟩
    rintro c hc _ hs rfl
    rw [List.mem_singleton] at hs
    exact absent (hs ▸ hc)
  · simpa [or_imp, forall_and, known] using h.known

/-- No symbol occurs twice, so the chain is no longer than there are symbols. -/
theorem length_le (h : Deeper a units depth chain) : chain.length ≤ a.symbols.size := by
  have sub : chain ⊆ List.range a.symbols.size := fun c hc => List.mem_range.mpr (h.known c hc)
  simpa using (h.nodup.subperm sub).length_le

end Deeper

/-- **Linking succeeds where there is a derivation.** The chain may hold only symbols that take more
steps than the one to be linked, so that the derivation never comes back to one of them. -/
theorem linkChain_complete (fresh : Unlinked a units) (depth : Nat) :
    ∀ fuel chain s t, a.denote units depth s = some t → Deeper a units depth chain →
      a.symbols.size + 2 ≤ fuel + chain.length →
        Finds a units (linkChain units fuel chain s) ⟨⟩ := by
  induction depth with
  | zero =>
    intro fuel chain s t h
    cases h
  | succ depth ih =>
    intro fuel chain s t h deeper enough
    -- Unless a smaller depth suffices, `s` itself may join the chain.
    cases hs : a.denote units depth s with
    | some t' => exact ih fuel chain s t' hs deeper.pred enough
    | none =>
      obtain ⟨fuel, rfl⟩ : ∃ n, fuel = n + 1 := ⟨fuel - 1, by have := deeper.length_le; omega⟩
      intro b hb
      rw [linkChain_succ]
      split
      · rfl
      · next due =>
        simp only [hb.binding, Bool.or_eq_true, Bool.not_eq_true', not_or, Bool.not_eq_false] at due
        have indirect : (a.symbol s).binding.isIndirect = true := due.1
        have absent : s ∉ chain := by
          intro hc
          rw [deeper.deeper s hc] at h
          cases h
        have longer := deeper.pred.concat absent (lt_size_of_isIndirect indirect) hs
        have finds : ∀ other t', a.denote units depth other = some t' →
            Finds a units (linkedFrom units fuel (chain ++ [s]) (b.symbol s).span other) t' := by
          intro other t' ho
          refine linkedFrom_finds fresh _ (resolves_of_denote ho)
            (ih fuel (chain ++ [s]) other t' ho longer ?_)
          simpa [Nat.add_comm, Nat.add_left_comm, Nat.add_assoc] using enough
        rw [if_neg (by simpa using absent), hb.binding]
        exact Finds.bind (denotation_sound fresh (linkedFrom_sound fresh _ _ _) _ rfl)
          (denotation_finds fresh (linkedFrom_sound fresh _ _ _)
            (fun _ _ => resolves_of_denote) finds
            _ indirect h) (fun _ _ => rfl) b hb

end Completeness

/-! ## Linking in any order -/

/-- Everything that resolves is bound. -/
def Saturated (a : Arena) (units : Entries SymbolId) (b : Arena) : Prop :=
  ∀ s t, Resolves a units s t → Settled a s b

theorem link_settles (fresh : Unlinked a units) (h : Binds a units b) {s t : SymbolId}
    (resolves : Resolves a units s t) : Settled a s (b.link units s).2 := by
  obtain ⟨depth, hd⟩ := resolves.denote
  have found := linkChain_complete fresh depth (b.symbols.size + 2) [] s t hd .nil
    (by simp [h.size]) b h
  exact (linkChain_binds fresh _ [] s b h).2.2 ⟨⟩ found

/-- Linking binds symbols to what they resolve to and does nothing else, with and without
recovery. -/
theorem linkAll_binds {recovery : Bool} {after : Arena} {faults : List Fault}
    (fresh : Unlinked a units) (order : List SymbolId)
    (h : Binds a units b) (linked : linkAll recovery units order b = .ok (faults, after)) :
    Binds a units after := by
  induction order generalizing b faults with
  | nil =>
    cases linked
    exact h
  | cons s rest ih =>
    have binds := (linkChain_binds fresh (b.symbols.size + 2) [] s b h).1
    change Binds a units (b.link units s).2 at binds
    rw [linkAll] at linked
    cases hl : b.link units s with
    | mk outcome next =>
      rw [hl] at linked binds
      cases outcome with
      | ok u => exact ih binds linked
      | error fault =>
        cases recovery with
        | false => cases linked
        | true =>
          cases hr : linkAll true units rest next with
          | error fault =>
            simp only [if_true, hr] at linked
            cases linked
          | ok p =>
            simp only [if_true, hr] at linked
            cases linked
            exact ih binds hr

/-- Linking with recovery ends, binds rightly, and binds all that was asked for. -/
theorem linkAll_spec (fresh : Unlinked a units) (order : List SymbolId) (h : Binds a units b) :
    ∃ faults after, linkAll true units order b = .ok (faults, after) ∧ Binds a units after ∧
      Keeps b after ∧ ∀ s ∈ order, ∀ t, Resolves a units s t → Settled a s after := by
  induction order generalizing b with
  | nil => exact ⟨[], b, rfl, h, fun _ => id, by simp⟩
  | cons s rest ih =>
    obtain ⟨binds, keeps, -⟩ := linkChain_binds fresh (b.symbols.size + 2) [] s b h
    obtain ⟨faults, after, hrest, binds', keeps', settled⟩ := ih binds
    have all : ∀ s' ∈ s :: rest, ∀ t, Resolves a units s' t → Settled a s' after := by
      intro s' hs' t resolves
      rcases List.mem_cons.mp hs' with rfl | hs'
      · exact fun indirect => keeps' _ (link_settles fresh h resolves indirect)
      · exact settled s' hs' t resolves
    change linkAll true units rest (b.link units s).2 = _ at hrest
    cases hl : (b.link units s).1 with
    | ok u =>
      refine ⟨faults, after, ?_, binds', fun s' hs' => keeps' s' (keeps s' hs'), all⟩
      rw [linkAll, show b.link units s = (.ok u, (b.link units s).2) from Prod.ext hl rfl]
      exact hrest
    | error fault =>
      refine ⟨fault :: faults, after, ?_, binds', fun s' hs' => keeps' s' (keeps s' hs'), all⟩
      rw [linkAll, show b.link units s = (.error fault, (b.link units s).2) from Prod.ext hl rfl]
      simp only [if_true, hrest]
      rfl

/-- Once everything is bound, only one arena binds rightly. -/
theorem Binds.eq_of_saturated (fresh : Unlinked a units) {b' : Arena} (h : Binds a units b)
    (all : Saturated a units b) (h' : Binds a units b') (keeps : Keeps b b') : b' = b := by
  have symbols : ∀ s, b'.symbol s = b.symbol s := by
    intro s
    rcases h'.symbol s with he' | ⟨indirect, t', resolves', he'⟩
    · rcases h.symbol s with he | ⟨-, t, -, he⟩
      · rw [he, he']
      · -- What was bound stays bound.
        have bound := keeps s (by rw [he]; rfl)
        rw [he', fresh.resolved] at bound
        cases bound
    · obtain ⟨t, ht⟩ := Option.isSome_iff_exists.mp (all s t' resolves' indirect)
      obtain ⟨resolves, he⟩ := h.resolves fresh ht
      rw [he, he', resolves.unique resolves']
  cases b with | mk scopes syms =>
  cases b' with | mk scopes' syms' =>
  have sizes : syms'.size = syms.size := h'.size.trans h.size.symm
  congr 1
  · exact h'.scopes.trans h.scopes.symm
  · refine Array.ext sizes fun i hi hi' => ?_
    simpa [Arena.symbol, Array.getD, hi, hi'] using symbols i

end Arena

/-! ## The arena that the first pass builds -/

theorem buildScopes_unlinked {recovery : Bool} {program : UnitSet} {built : Analysis}
    {pending : List PendingReference} (h : buildScopes recovery program = .ok (built, pending)) :
    built.arena.Unlinked built.units := by
  obtain ⟨b, steps, rfl, -⟩ := buildScopes_steps h
  have formed := steps.formed (Building.formed_start recovery)
  exact ⟨formed.arena.resolved, fun path s hs => (formed.unit path s hs).1.2,
    fun scope s hs => (formed.arena.owner scope s hs).2.1⟩

/-- In the arena everything is bound to what it resolves to in the arena as it was built, and to
link any symbol once more changes nothing. -/
structure Analysis.Links (built : Analysis) (after : Arena) : Prop where
  bound : ∀ s, (built.arena.symbol s).binding.isIndirect = true → ∀ t,
    ((after.symbol s).resolved = some t ↔ built.arena.Resolves built.units s t) ∧
    ((after.symbol s).resolved = some t →
      (after.symbol t).binding.isIndirect = false ∧ (after.symbol s).target =
        (after.symbol t).target)
  done : ∀ s, (after.link built.units s).2 = after

/-- **Linking computes resolution, in any order.** Whatever the order in which the symbols that
stand for others are linked, each of them ends up bound to what it resolves to in the arena as it
was built, and to nothing if it does not resolve. It takes on the kind of that symbol, which stands
for itself. To link any symbol once more changes nothing. -/
theorem buildScopes_linkAll {recovery : Bool} {program : UnitSet} {built : Analysis}
    {pending : List PendingReference} (h : buildScopes recovery program = .ok (built, pending))
    (order : List SymbolId)
    (complete : ∀ s, (built.arena.symbol s).binding.isIndirect = true → s ∈ order) :
    ∃ faults after, Arena.linkAll true built.units order built.arena = .ok (faults, after) ∧
      built.Links after := by
  have fresh := buildScopes_unlinked h
  have start : built.arena.Binds built.units built.arena := .refl
  obtain ⟨faults, after, linked, binds, -, settled⟩ := Arena.linkAll_spec fresh order start
  refine ⟨faults, after, linked, fun s indirect t => ⟨⟨fun bound => ?_, fun resolves => ?_⟩,
    fun bound => ?_⟩, fun s => ?_⟩
  · exact (binds.resolves fresh bound).1
  · obtain ⟨t', ht'⟩ :=
      Option.isSome_iff_exists.mp (settled s (complete s indirect) t resolves indirect)
    rw [ht', (binds.resolves fresh ht').1.unique resolves]
  · obtain ⟨resolves, he⟩ := binds.resolves fresh bound
    have direct := resolves.isDirect fresh
    have same := binds.symbol_of_direct direct
    rw [same, direct, he]
    exact ⟨rfl, rfl⟩
  · have saturated : built.arena.Saturated built.units after := fun s t resolves indirect =>
      settled s (complete s indirect) t resolves indirect
    obtain ⟨binds', keeps, -⟩ :=
      Arena.linkChain_binds fresh (after.symbols.size + 2) [] s after binds
    exact binds.eq_of_saturated fresh saturated binds' keeps

/-- Two modules. The first has two aliases of each other and exports a library as `e`; the second
imports `e` by name and reaches it through the module too. -/
def crossingModules : UnitSet :=
  let node (index : Nat) : Node := ⟨.tree index, default⟩
  [⟨node 0, "a", 0, .module
      { globalName := none, imports := []
        aliases := [⟨node 1, ⟨.here, ["q"]⟩, "p"⟩, ⟨node 2, ⟨.here, ["p"]⟩, "q"⟩]
        libraries := [⟨node 3, "l", false, []⟩]
        exports := [⟨node 4, ⟨.here, ["l"]⟩, "e"⟩] }⟩,
   ⟨node 5, "b", 0, .module
      { globalName := none
        imports := [⟨node 6, "a", [⟨node 7, .name "e", "f"⟩, ⟨node 8, .module, "m"⟩]⟩]
        aliases := [⟨node 9, ⟨.here, ["m", "e"]⟩, "g"⟩]
        libraries := [], exports := [] }⟩]

/-- The theorem at these modules, linked from the last symbol to the first. -/
theorem buildScopes_linkAll_crossing : ∃ built pending,
    buildScopes false crossingModules = .ok (built, pending) ∧
      ∃ faults after, Arena.linkAll true built.units (List.range built.arena.symbols.size).reverse
          built.arena = .ok (faults, after) ∧ built.Links after := by
  have ok : (buildScopes false crossingModules).isOk = true := by decide +kernel
  cases h : buildScopes false crossingModules with
  | error fault =>
    rw [h] at ok
    cases ok
  | ok p =>
    refine ⟨p.1, p.2, rfl, buildScopes_linkAll h _ fun s indirect => ?_⟩
    rw [List.mem_reverse, List.mem_range]
    exact Arena.lt_size_of_isIndirect indirect

-- The two aliases of each other stay unbound; `e`, `f` and `g` are bound to the library.
example : (match buildScopes false crossingModules with
    | .error _ => none
    | .ok (built, _) =>
      match Arena.linkAll true built.units (List.range 9).reverse built.arena with
      | .error _ => none
      | .ok (_, after) => some (after.symbols.toList.map fun s => (s.name, s.resolved))) =
    some [("a", none), ("b", none), ("p", none), ("q", none), ("l", none), ("e", some 4),
      ("f", some 4), ("m", some 0), ("g", some 4)] := by decide +kernel

end CellScript
