import CellScript.Proofs.Linking.Link
import Mathlib.Data.List.Nodup
import Mathlib.Logic.Function.Iterate
import Mathlib.Logic.Relation

/-!
# What linking a symbol asks for

To link a symbol, linking has to find what some other symbols stand for: the export that an import
names, or the symbols along a path. `Asks` says which, in terms of the declarations alone. A symbol
takes more declarations to follow than any symbol it asks for, so nothing that leads into a cycle of
such questions stands for anything.

One call of linking is a function of the calls it makes (`linkStep`). What holds of the calls for
the symbols that are asked for holds of the whole call, for any relation that sequences keep
(`Composes`). With it the depth of the calls is bounded: an indirect symbol is asked for only as
long as it is not being linked itself.

* `Arena.not_resolves_of_cycle` — nothing that leads into a cycle resolves
* `Arena.denotation_composes` — what is asked for decides
* `Arena.asks_iff` — to ask for a symbol is to fail as it does
* `Arena.iterate_linkStep` — the depth of linking is at most the number of indirect symbols and one
-/

namespace CellScript.Arena

open Relation

/-! ## The questions -/

/-- To link the first symbol, linking asks what the second one stands for. -/
inductive Asks (a : Arena) (units : Entries SymbolId) : SymbolId → SymbolId → Prop where
  | nameImport {s module entry : SymbolId} {unit name : String}
    (binding : (a.symbol s).binding = .nameImport unit name)
    (found : a.IsModule units unit module) (exported : a.Exports module name entry) :
    Asks a units s entry
  | path {s start other : SymbolId} {r : Reference} {scope : ScopeId} {names : List String}
    (binding : (a.symbol s).binding = .alias r scope ∨ (a.symbol s).binding = .export r scope)
    (found : a.StartsAt scope r start) (part : names <+: r.path.drop 1)
    (walk : Leads a units start names other) : Asks a units s other

/-- The symbol stands for another one and is not linked. -/
def Waiting (b : Arena) (s : SymbolId) : Prop :=
  (b.symbol s).binding.isIndirect = true ∧ (b.symbol s).resolved = none

/-- The symbol asks for a symbol that has yet to be linked. -/
def Pulls (a : Arena) (units : Entries SymbolId) (b : Arena) (s t : SymbolId) : Prop :=
  Asks a units s t ∧ b.Waiting t

variable {a b : Arena} {units : Entries SymbolId}

/-- Where a path can be followed to its end, all symbols on the way stand for something. -/
theorem followBy_part {f : SymbolId → Option SymbolId}
    (right : ∀ s t, f s = some t → Resolves a units s t) (part : List String) :
    ∀ names s last v other, a.followBy f s names = some last → f last = some v → part <+: names →
      Leads a units s part other → ∃ w, f other = some w := by
  induction part with
  | nil =>
    rintro names s last v _ follow hv - ⟨⟩
    cases names with
    | nil =>
      cases follow
      exact ⟨v, hv⟩
    | cons name rest =>
      simp only [followBy, Option.bind_eq_some_iff] at follow
      obtain ⟨container, hc, -⟩ := follow
      exact ⟨container, hc⟩
  | cons name part ih =>
    rintro names s last v other follow hv ⟨rest, rfl⟩ (_ | ⟨first, ⟨scope, hp, hn⟩, walk⟩)
    simp only [List.cons_append, followBy, Option.bind_eq_some_iff] at follow
    obtain ⟨container', hc, scope', hp', next', hn', follow⟩ := follow
    obtain rfl := first.unique (right s container' hc)
    obtain rfl := Option.some.inj (hp.symm.trans hp')
    obtain rfl := Option.some.inj (hn.symm.trans hn')
    exact ih _ _ last v other follow hv (List.prefix_append ..) walk

/-- **What is asked for takes fewer declarations to follow.** -/
theorem Asks.denote {s t v : SymbolId} {depth : Nat} (h : Asks a units s t)
    (hs : a.denote units (depth + 1) s = some v) : ∃ w, a.denote units depth t = some w := by
  cases h with
  | nameImport binding found exported =>
    simp only [Arena.denote, denoteBy, binding, Option.bind_eq_some_iff,
      Option.filter_eq_some_iff, beq_iff_eq] at hs
    obtain ⟨module', ⟨hm, -⟩, entry, ⟨scope', hs', he⟩, hv⟩ := hs
    obtain ⟨scope, hscope, hentry⟩ := exported
    obtain rfl := Option.some.inj (found.1.symm.trans hm)
    obtain rfl := Option.some.inj (hscope.symm.trans hs')
    obtain rfl := Option.some.inj (hentry.symm.trans he)
    exact ⟨v, hv⟩
  | path binding found part walk =>
    rw [StartsAt] at found
    rcases binding with binding | binding <;>
    · simp only [Arena.denote, denoteBy, binding, found, Option.bind_some,
        Option.bind_eq_some_iff] at hs
      obtain ⟨last, follow, hv⟩ := hs
      exact followBy_part (fun _ _ => resolves_of_denote) _ _ _ last v t follow hv part walk

/-- **Nothing that leads into a cycle of questions stands for anything.** -/
theorem not_resolves_of_cycle {s c : SymbolId} (leads : ReflTransGen (Asks a units) s c)
    (cycle : TransGen (Asks a units) c c) (t : SymbolId) : ¬ Resolves a units s t := by
  intro resolves
  obtain ⟨depth, hd⟩ := resolves.denote
  -- Each question on the way to the cycle and along it is answered at a smaller depth.
  induction depth generalizing s t with
  | zero => cases hd
  | succ depth ih =>
    have next : ∃ u, Asks a units s u ∧ ReflTransGen (Asks a units) u c := by
      rcases leads.cases_head with rfl | next
      · exact TransGen.head'_iff.mp cycle
      · exact next
    obtain ⟨u, asks, leads⟩ := next
    obtain ⟨w, hw⟩ := asks.denote hd
    exact ih leads w (resolves_of_denote hw) hw

/-! ## Calls and the calls they make -/

/-- One call of linking, given the calls that it makes. -/
def linkStep (units : Entries SymbolId) (nested : List SymbolId → SymbolId → Linking PUnit)
    (chain : List SymbolId) (id : SymbolId) : Linking PUnit := do
  let s := (← get).symbol id
  if !s.binding.isIndirect || s.resolved.isSome then
    return ⟨⟩
  else if chain.contains id then
    asking fun a =>
      .error (.cyclicReference ((chain ++ [id]).map fun s => (a.symbol s).name) s.span)
  else
    let deref (other : SymbolId) : Linking SymbolId := do
      nested (chain ++ [id]) other
      asking fun a => a.linked other s.span
    let target ← denotation deref units s.span s.binding
    modify fun a => a.setResolved id target

theorem linkChain_eq_linkStep (units : Entries SymbolId) (fuel : Nat) :
    linkChain units (fuel + 1) = linkStep units (linkChain units fuel) := by
  funext chain id
  rw [linkChain, linkStep]

/-- What a symbol stands for, after a call for it. -/
def linkedBy (nested : List SymbolId → SymbolId → Linking PUnit) (chain : List SymbolId)
    (span : Span) (other : SymbolId) : Linking SymbolId := do
  nested chain other
  asking fun a => a.linked other span

theorem linkStep_apply (units : Entries SymbolId)
    (nested : List SymbolId → SymbolId → Linking PUnit) (chain : List SymbolId) (s : SymbolId)
    (b : Arena) :
    linkStep units nested chain s b =
      if (!(b.symbol s).binding.isIndirect || (b.symbol s).resolved.isSome) = true then (.ok ⟨⟩, b)
      else if chain.contains s = true then
        (.error (.cyclicReference ((chain ++ [s]).map fun s => (b.symbol s).name)
          (b.symbol s).span), b)
      else
        ( denotation (linkedBy nested (chain ++ [s]) (b.symbol s).span) units (b.symbol s).span
          (b.symbol s).binding >>= fun target =>
            (modify fun a => a.setResolved s target : Linking PUnit)) b := by
  rw [linkStep]
  show (if _ then _ else _ : Linking PUnit) b = _
  split
  · rfl
  · split <;> rfl

/-- A relation between computations that asking keeps, except for reports of cycles, and that
sequences keep whose first part finds nothing wrong. -/
structure Composes (a : Arena) (units : Entries SymbolId)
    (R : (α : Type) → Linking α → Linking α → Prop) : Prop where
  asking : ∀ {α : Type} (f : Arena → Except Fault α),
    (∀ b e, f b = .error e → e.code ≠ .cyclicReference) → R α (asking f) (asking f)
  bind : ∀ {α β : Type} {P : α → Prop} {x y : Linking α} {f g : α → Linking β},
    Sound a units (fun v _ => P v) y → R α x y → (∀ v, P v → R β (f v) (g v)) →
    R β (x >>= f) (y >>= g)

section Composes

variable {R : (α : Type) → Linking α → Linking α → Prop} {deref deref' : SymbolId →
  Linking SymbolId}

theorem module_code {path : String} {span : Span} {e : Fault}
    (h : b.module units path span = .error e) : e.code ≠ .cyclicReference := by
  unfold Arena.module at h
  split at h
  · split at h <;> cases h
    exact nofun
  · cases h
    exact nofun

theorem exported_code {module : SymbolId} {name unit : String} {span : Span} {e : Fault}
    (h : b.exported module name unit span = .error e) : e.code ≠ .cyclicReference := by
  unfold Arena.exported at h
  split at h <;> cases h
  exact fun h => by cases h

theorem first_code {scope : ScopeId} {r : Reference} {span : Span} {e : Fault}
    (h : b.first scope r span = .error e) : e.code ≠ .cyclicReference := by
  unfold Arena.first at h
  split at h <;> cases h
  exact fun h => by cases h

theorem publicMember_code {container : SymbolId} {name : String} {r : Reference} {span : Span}
    {e : Fault} (h : b.publicMember container name r span = .error e) :
    e.code ≠ .cyclicReference := by
  unfold Arena.publicMember at h
  split at h
  · cases h
    exact fun h => by cases h
  · split at h <;> cases h
    exact fun h => by cases h

theorem linked_code {s : SymbolId} {span : Span} {e : Fault} (h : b.linked s span = .error e) :
    e.code ≠ .cyclicReference := by
  unfold Arena.linked at h
  split at h <;> cases h
  exact fun h => by cases h

/-- Along a path, only what is met on the way is asked for. -/
theorem followLinking_composes (fresh : Unlinked a units) (composes : Composes a units R)
    (sound : ∀ s, Sound a units (fun t _ => Resolves a units s t) (deref' s)) (r : Reference)
    (span : Span) (names : List String) :
    ∀ s, (∀ part t, part <+: names → Leads a units s part t → R _ (deref t) (deref' t)) →
      R _ (followLinking deref r span s names) (followLinking deref' r span s names) := by
  induction names with
  | nil => exact fun s _ => composes.asking (fun _ => .ok s) fun _ _ he => by cases he
  | cons name rest ih =>
    intro s h
    refine composes.bind (sound s) (h [] s List.nil_prefix .nil) fun container first => ?_
    have shows : Sound a units (fun next _ => a.Shows container name next)
        (asking fun b => b.publicMember container name r span) :=
      .asking fun b next hb hn => (publicMember_ok hb (first.isDirect fresh)).mp hn
    refine composes.bind shows (composes.asking _ fun _ _ => publicMember_code) fun next shown => ?_
    exact ih next fun part t hp walk =>
      h (name :: part) t (List.cons_prefix_cons.mpr ⟨rfl, hp⟩) (.cons first shown walk)

/-- **What a declaration is found to stand for is decided by what it asks for.** -/
theorem denotation_composes (fresh : Unlinked a units) (composes : Composes a units R)
    (sound : ∀ s, Sound a units (fun t _ => Resolves a units s t) (deref' s)) {s : SymbolId}
    (span : Span) {binding : Binding} (hb : (a.symbol s).binding = binding)
    (h : ∀ t, Asks a units s t → R _ (deref t) (deref' t)) :
    R _ ( denotation deref units span binding) ( denotation deref' units span binding) := by
  have path : ∀ r scope,
      (a.symbol s).binding = .alias r scope ∨ (a.symbol s).binding = .export r scope →
      R _ ( denotation deref units span (.alias r scope))
        ( denotation deref' units span (.alias r scope)) := by
    intro r scope hb
    have starts : Sound a units (fun start _ => a.StartsAt scope r start)
        (asking fun b => b.first scope r span) :=
      .asking fun b start hb hs => (first_ok fresh hb).mp hs
    refine composes.bind starts (composes.asking _ fun _ _ => first_code) fun start found => ?_
    refine composes.bind (followLinking_sound fresh sound r span _ start) ?_ fun last walk =>
      h last (.path hb found List.prefix_rfl walk)
    exact followLinking_composes fresh composes sound r span _ start fun part t hp walk =>
      h t (.path hb found hp walk)
  cases binding with
  | direct => exact composes.asking _ fun _ _ he => by cases he; exact nofun
  | moduleImport unit => exact composes.asking _ fun _ _ => module_code
  | nameImport unit name =>
    have modules : Sound a units (fun module _ => a.IsModule units unit module)
        (asking fun b => b.module units unit span) :=
      .asking fun b module hb hm => (module_ok fresh hb).mp hm
    refine composes.bind modules (composes.asking _ fun _ _ => module_code) fun module found => ?_
    have exports : Sound a units (fun entry _ => a.Exports module name entry)
        (asking fun b => b.exported module name unit span) :=
      .asking fun b entry hb he => (exported_ok hb).mp he
    exact composes.bind exports (composes.asking _ fun _ _ => exported_code) fun entry exported =>
      h entry (.nameImport hb found exported)
  | «alias» r scope => exact path r scope (.inl hb)
  | «export» r scope => exact path r scope (.inr hb)

end Composes

/-- The computations do the same wherever symbols are bound rightly. -/
def Agree {α : Type} (a : Arena) (units : Entries SymbolId) (x y : Linking α) : Prop :=
  ∀ b, Binds a units b → x b = y b

theorem composes_agree : Composes a units fun _ => Agree a units where
  asking _ _ _ _ := rfl
  bind := by
    intro α β P x y f g sound agree rest b hb
    obtain ⟨binds, -, found⟩ := sound b hb
    rw [bind_linking, bind_linking, agree b hb]
    rcases hy : y b with ⟨e | v, b'⟩
    · rfl
    · rw [hy] at binds found
      exact rest v (found v rfl) b' binds

/-! ## What it means to ask -/

/-- The computation fails with the fault, whatever has been bound before. -/
def Fails {α : Type} (a : Arena) (units : Entries SymbolId) (x : Linking α)
    (fault : Fault) : Prop :=
  ∀ b, Binds a units b → (x b).1 = .error fault

section Fails

variable {α β : Type} {x : Linking α} {f : α → Linking β} {fault : Fault}

theorem Fails.bind (h : Fails a units x fault) : Fails a units (x >>= f) fault := by
  intro b hb
  have failed := h b hb
  rw [bind_linking]
  rcases hx : x b with ⟨e | v, b'⟩ <;> rw [hx] at failed <;> cases failed
  rfl

theorem Fails.bind_found {post : α → Arena → Prop} {v : α} (sound : Sound a units post x)
    (found : Finds a units x v) (h : Fails a units (f v) fault) :
    Fails a units (x >>= f) fault := by
  intro b hb
  have binds := (sound b hb).1
  have ok := found b hb
  rw [bind_linking]
  rcases hx : x b with ⟨r, b'⟩
  rw [hx] at binds ok
  cases ok
  exact h b' binds

theorem Fails.asking_bind {g : Arena → Except Fault α} {v : α}
    (found : ∀ b, Binds a units b → g b = .ok v) (h : Fails a units (f v) fault) :
    Fails a units (asking g >>= f) fault :=
  .bind_found (Sound.asking (Q := fun _ _ => True) fun _ _ _ _ => trivial) found h

variable {deref : SymbolId → Linking SymbolId} {t : SymbolId}

/-- A path fails where a symbol on it does, or the symbol at its end. -/
theorem followLinking_fails (fresh : Unlinked a units)
    (sound : ∀ s, Sound a units (fun t _ => Resolves a units s t) (deref s))
    (finds : ∀ s v, s ≠ t → Resolves a units s v → Finds a units (deref s) v)
    (fails : Fails a units (deref t) fault) (r : Reference) (span : Span) (part : List String) :
    ∀ s names, part <+: names → Leads a units s part t →
      Fails a units (followLinking deref r span s names >>= deref) fault := by
  induction part with
  | nil =>
    rintro s names - ⟨⟩
    cases names with
    | nil => exact fails
    | cons name rest => exact Fails.bind (Fails.bind fails)
  | cons name part ih =>
    rintro s _ ⟨rest, rfl⟩ (_ | ⟨first, shown, walk⟩)
    rw [List.cons_append, followLinking, bind_assoc]
    by_cases hs : s = t
    · exact hs ▸ Fails.bind (hs ▸ fails)
    · refine .bind_found (sound s) (finds s _ hs first) ?_
      rw [bind_assoc]
      exact .asking_bind (fun b hb => (publicMember_ok hb (first.isDirect fresh)).mpr shown)
        (ih _ _ (List.prefix_append ..) walk)

theorem Asks.fails (fresh : Unlinked a units)
    (sound : ∀ s, Sound a units (fun t _ => Resolves a units s t) (deref s))
    (finds : ∀ s v, s ≠ t → Resolves a units s v → Finds a units (deref s) v)
    (fails : Fails a units (deref t) fault) (span : Span) {s : SymbolId} (h : Asks a units s t) :
    Fails a units ( denotation deref units span (a.symbol s).binding) fault := by
  cases h with
  | nameImport binding found exported =>
    rw [binding]
    exact .asking_bind (fun b hb => (module_ok fresh hb).mpr found) <|
      .asking_bind (fun b hb => (exported_ok hb).mpr exported) fails
  | @path _ _ r _ _ binding found part walk =>
    have fails := followLinking_fails fresh sound finds fails r span _ _ _ part walk
    rcases binding with binding | binding <;> rw [binding] <;>
      exact .asking_bind (fun b hb => (first_ok fresh hb).mpr found) fails

/-- **A symbol asks for another one exactly if it fails as that one does**: if linking the second
one were to fail, whatever the fault, the first one would stand for nothing, for this fault. -/
theorem asks_iff (fresh : Unlinked a units) (span : Span) {s t : SymbolId} :
    Asks a units s t ↔ ∀ fault, Fails a units
      ( denotation
        (fun u => if u = t then asking fun _ => .error fault
          else linkedFrom units (a.symbols.size + 2) [] span u)
        units span (a.symbol s).binding) fault := by
  have linked := linkedFrom_sound fresh (a.symbols.size + 2) [] span
  have sound : ∀ fault u, Sound a units (fun v _ => Resolves a units u v)
      (if u = t then asking fun _ => .error fault
        else linkedFrom units (a.symbols.size + 2) [] span u) := by
    intro fault u
    split
    · exact .asking fun _ _ _ h => by cases h
    · exact linked u
  constructor
  · intro asks fault
    refine asks.fails fresh (sound fault) (fun u v hu resolves => ?_) ?_ span
    · obtain ⟨depth, hd⟩ := resolves.denote
      rw [if_neg hu]
      exact linkedFrom_finds fresh span resolves
        (linkChain_complete fresh depth _ [] u v hd .nil (by simp))
    · rw [if_pos rfl]
      exact fun _ _ => rfl
  · intro fails
    by_contra unasked
    -- What is not asked for makes no difference, so two faults would be one.
    have same : ∀ fault, Fails a units
        ( denotation (linkedFrom units (a.symbols.size + 2) [] span) units span
          (a.symbol s).binding) fault := by
      intro fault b hb
      rw [← denotation_composes fresh composes_agree linked span rfl (fun u asks => ?_) b hb]
      · exact fails fault b hb
      · rw [if_neg (by rintro rfl; exact unasked asks)]
        exact fun _ _ => rfl
    have one := (same (.missingModule "" span) a .refl).symm.trans
      (same (.missingExport "" "" span) a .refl)
    cases one

end Fails

/-! ## The depth of linking -/

/-- A call does what linking does if the calls for what is asked for do. -/
theorem linkStep_agree (fresh : Unlinked a units) {fuel : Nat} {chain : List SymbolId}
    {s : SymbolId} {nested : List SymbolId → SymbolId → Linking PUnit}
    (h : s ∉ chain → ∀ t, Asks a units s t →
      Agree a units (nested (chain ++ [s]) t) (linkChain units fuel (chain ++ [s]) t)) :
    Agree a units (linkStep units nested chain s) (linkChain units (fuel + 1) chain s) := by
  intro b hb
  rw [linkChain_eq_linkStep, linkStep_apply, linkStep_apply]
  split
  · rfl
  split
  · rfl
  next absent =>
    have absent : s ∉ chain := by simpa using absent
    have sound := linkedFrom_sound fresh fuel (chain ++ [s]) (b.symbol s).span
    refine composes_agree.bind (denotation_sound fresh sound _ hb.binding.symm) ?_
      (fun _ _ _ _ => rfl) b hb
    refine denotation_composes fresh composes_agree sound _ hb.binding.symm fun t asks => ?_
    refine composes_agree.bind (P := fun _ => True) ?_ (h absent t asks) fun _ _ _ _ => rfl
    intro b hb
    obtain ⟨binds, keeps, -⟩ := linkChain_binds fresh fuel (chain ++ [s]) t b hb
    exact ⟨binds, keeps, fun _ _ => trivial⟩

/-- The symbols that stand for others. -/
def indirectSymbols (a : Arena) : List SymbolId :=
  (List.range a.symbols.size).filter fun s => (a.symbol s).binding.isIndirect

theorem mem_indirectSymbols {s : SymbolId} :
    s ∈ a.indirectSymbols ↔ (a.symbol s).binding.isIndirect = true := by
  simp only [indirectSymbols, List.mem_filter, List.mem_range, and_iff_right_iff_imp]
  exact lt_size_of_isIndirect

theorem Asks.isIndirect {s t : SymbolId} (h : Asks a units s t) :
    (a.symbol s).binding.isIndirect = true := by
  cases h with
  | nameImport binding => rw [binding]; rfl
  | path binding => rcases binding with binding | binding <;> rw [binding] <;> rfl

/-- **Linking nests no deeper than there are indirect symbols, and one call more.** The calls below
that depth may do anything: they are not made. The induction is on the number of indirect symbols
that are not on the chain. -/
theorem iterate_linkStep (fresh : Unlinked a units) (n : Nat) :
    ∀ fuel chain s nested, n < fuel → chain.Nodup → chain ⊆ a.indirectSymbols →
      a.indirectSymbols.length ≤ n + chain.length →
      Agree a units ((linkStep units)^[n + 1] nested chain s) (linkChain units fuel chain s) := by
  induction n with
  | zero =>
    intro fuel chain s nested hf nodup sub full
    obtain ⟨fuel, rfl⟩ := Nat.exists_eq_succ_of_ne_zero (Nat.ne_of_gt hf)
    refine linkStep_agree fresh fun absent t asks => ?_
    -- The chain holds all indirect symbols, so it holds `s`.
    have longer : (s :: chain).Subperm a.indirectSymbols :=
      (List.nodup_cons.mpr ⟨absent, nodup⟩).subperm
        (List.cons_subset.mpr ⟨mem_indirectSymbols.mpr asks.isIndirect, sub⟩)
    have := longer.length_le
    rw [List.length_cons] at this
    omega
  | succ n ih =>
    intro fuel chain s nested hf nodup sub full
    obtain ⟨fuel, rfl⟩ := Nat.exists_eq_succ_of_ne_zero (Nat.ne_of_gt (Nat.zero_lt_of_lt hf))
    rw [Function.iterate_succ_apply']
    refine linkStep_agree fresh fun absent t asks => ?_
    have nodup' : (chain ++ [s]).Nodup := by simpa using List.Nodup.concat absent nodup
    have sub' : chain ++ [s] ⊆ a.indirectSymbols :=
      List.append_subset.mpr ⟨sub, by simpa using mem_indirectSymbols.mpr asks.isIndirect⟩
    exact ih fuel (chain ++ [s]) t nested (by omega) nodup' sub' (by simp; omega)

end CellScript.Arena
