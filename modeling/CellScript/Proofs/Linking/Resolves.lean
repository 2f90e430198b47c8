import CellScript.Proofs.Scope.Pass
import CellScript.Scope.Link

/-!
# What an indirect symbol stands for

Linking binds imports, aliases, exports and global names while it walks from one to the next. What
they stand for can be said without any walk: `Resolves` is the least relation that the declarations
ask for. Beside it stands `denote`, which follows declarations to a given depth; a symbol resolves
to another one exactly if some depth suffices.

* `Arena.Resolves`, `Arena.Leads` — the relation, and its extension to paths of names
* `Arena.resolves_iff_denote` — resolution is reached at some depth
* `Arena.Resolves.unique` — a symbol resolves to at most one symbol
-/

namespace CellScript.Arena

/-! ## The relation -/

/-- The module at a path. -/
def IsModule (a : Arena) (units : Entries SymbolId) (path : String) (id : SymbolId) : Prop :=
  Entries.get? units path = some id ∧ (a.symbol id).target = .module

/-- An entry of the exports of a module. -/
def Exports (a : Arena) (module : SymbolId) (name : String) (entry : SymbolId) : Prop :=
  ∃ scope, (a.symbol module).exports = some scope ∧ (a.scope scope).get? name = some entry

/-- A name in the public scope of a symbol. -/
def Shows (a : Arena) (container : SymbolId) (name : String) (entry : SymbolId) : Prop :=
  ∃ scope, a.publicScope? container = some scope ∧ (a.scope scope).get? name = some entry

/-- The symbol that a reference starts from in a scope. -/
def StartsAt (a : Arena) (scope : ScopeId) (r : Reference) (start : SymbolId) : Prop :=
  r.path.head?.bind (a.firstSymbol? scope r.anchor) = some start

mutual

/-- The symbol stands for the other one. -/
inductive Resolves (a : Arena) (units : Entries SymbolId) : SymbolId → SymbolId → Prop where
  | direct {s : SymbolId} (binding : (a.symbol s).binding = .direct) : Resolves a units s s
  | moduleImport {s module : SymbolId} {unit : String}
    (binding : (a.symbol s).binding = .moduleImport unit) (found : a.IsModule units unit module) :
    Resolves a units s module
  | nameImport {s module entry t : SymbolId} {unit name : String}
    (binding : (a.symbol s).binding = .nameImport unit name)
    (found : a.IsModule units unit module) (exported : a.Exports module name entry)
    (rest : Resolves a units entry t) : Resolves a units s t
  | path {s start last t : SymbolId} {r : Reference} {scope : ScopeId}
    (binding : (a.symbol s).binding = .alias r scope ∨ (a.symbol s).binding = .export r scope)
    (found : a.StartsAt scope r start) (walk : Leads a units start (r.path.drop 1) last)
    (rest : Resolves a units last t) : Resolves a units s t

/-- The names lead from one symbol to the other. Each symbol on the way is replaced by the one it
stands for before the next name is looked up. -/
inductive Leads (a : Arena) (units : Entries SymbolId) : SymbolId → List String →
    SymbolId → Prop where
  | nil {s : SymbolId} : Leads a units s [] s
  | cons {s container next last : SymbolId} {name : String} {names : List String}
    (first : Resolves a units s container) (shown : a.Shows container name next)
    (rest : Leads a units next names last) : Leads a units s (name :: names) last

end

/-! ## Following declarations to a given depth -/

/-- Follows a path, replacing each symbol on the way by what `deref` gives for it. -/
def followBy (a : Arena) (deref : SymbolId → Option SymbolId) :
    SymbolId → List String → Option SymbolId
  | id, [] => some id
  | id, name :: rest =>
    (deref id).bind fun container =>
      (a.publicScope? container).bind fun scope =>
        ((a.scope scope).get? name).bind fun next => a.followBy deref next rest

/-- What a declaration asks for, given what the symbols it mentions stand for. -/
def denoteBy (a : Arena) (units : Entries SymbolId) (deref : SymbolId → Option SymbolId)
    (s : SymbolId) : Option SymbolId :=
  let module (path : String) : Option SymbolId :=
    (Entries.get? units path).filter fun id => (a.symbol id).target == .module
  match (a.symbol s).binding with
  | .direct => some s
  | .moduleImport unit => module unit
  | .nameImport unit name =>
    (module unit).bind fun id =>
      ((a.symbol id).exports.bind fun scope => (a.scope scope).get? name).bind deref
  | .alias r scope | .export r scope =>
    (r.path.head?.bind (a.firstSymbol? scope r.anchor)).bind fun start =>
      (a.followBy deref start (r.path.drop 1)).bind deref

/-- What a symbol stands for, if at most `depth` declarations have to be followed one behind the
other. -/
def denote (a : Arena) (units : Entries SymbolId) : Nat → SymbolId → Option SymbolId
  | 0, _ => none
  | depth + 1, s => a.denoteBy units (a.denote units depth) s

variable {a : Arena} {units : Entries SymbolId}

/-- A larger supply of what symbols stand for leads no path astray. -/
theorem followBy_mono {f g : SymbolId → Option SymbolId}
    (h : ∀ s t, f s = some t → g s = some t) (names : List String) :
    ∀ s t, a.followBy f s names = some t → a.followBy g s names = some t := by
  induction names with
  | nil => exact fun _ _ h => h
  | cons name rest ih =>
    intro s t hs
    simp only [followBy, Option.bind_eq_some_iff] at hs ⊢
    obtain ⟨container, hc, scope, hp, next, hn, hr⟩ := hs
    exact ⟨container, h s container hc, scope, hp, next, hn, ih next t hr⟩

theorem denoteBy_mono {f g : SymbolId → Option SymbolId}
    (h : ∀ s t, f s = some t → g s = some t) {s t : SymbolId}
    (hs : a.denoteBy units f s = some t) : a.denoteBy units g s = some t := by
  unfold denoteBy at hs ⊢
  cases hb : (a.symbol s).binding with
  | direct => simpa only [hb] using hs
  | moduleImport unit => simpa only [hb] using hs
  | nameImport unit name =>
    simp only [hb, Option.bind_eq_some_iff] at hs ⊢
    obtain ⟨id, hid, entry, he, ht⟩ := hs
    exact ⟨id, hid, entry, he, h entry t ht⟩
  | «alias» r scope =>
    simp only [hb, Option.bind_eq_some_iff] at hs ⊢
    obtain ⟨start, hst, last, hl, ht⟩ := hs
    exact ⟨start, hst, last, followBy_mono h _ _ _ hl, h last t ht⟩
  | «export» r scope =>
    simp only [hb, Option.bind_eq_some_iff] at hs ⊢
    obtain ⟨start, hst, last, hl, ht⟩ := hs
    exact ⟨start, hst, last, followBy_mono h _ _ _ hl, h last t ht⟩

/-- What is reached at one depth is reached at every greater one. -/
theorem denote_succ {depth : Nat} {s t : SymbolId} (h : a.denote units depth s = some t) :
    a.denote units (depth + 1) s = some t := by
  induction depth generalizing s t with
  | zero => cases h
  | succ depth ih => exact denoteBy_mono (fun _ _ => ih) h

theorem denote_mono {m n : Nat} (hle : m ≤ n) {s t : SymbolId} (h : a.denote units m s = some t) :
    a.denote units n s = some t := by
  induction hle with
  | refl => exact h
  | step _ ih => exact denote_succ ih

/-! ## Depth and derivations -/

theorem leads_of_followBy {f : SymbolId → Option SymbolId}
    (h : ∀ s t, f s = some t → Resolves a units s t) (names : List String) :
    ∀ s t, a.followBy f s names = some t → Leads a units s names t := by
  induction names with
  | nil =>
    intro s t hs
    cases hs
    exact .nil
  | cons name rest ih =>
    intro s t hs
    simp only [followBy, Option.bind_eq_some_iff] at hs
    obtain ⟨container, hc, scope, hp, next, hn, hr⟩ := hs
    exact .cons (h s container hc) ⟨scope, hp, hn⟩ (ih next t hr)

theorem resolves_of_denoteBy {f : SymbolId → Option SymbolId}
    (h : ∀ s t, f s = some t → Resolves a units s t) {s t : SymbolId}
    (hs : a.denoteBy units f s = some t) : Resolves a units s t := by
  unfold denoteBy at hs
  cases hb : (a.symbol s).binding with
  | direct =>
    simp only [hb] at hs
    cases hs
    exact .direct hb
  | moduleImport unit =>
    simp only [hb, Option.filter_eq_some_iff, beq_iff_eq] at hs
    exact .moduleImport hb hs
  | nameImport unit name =>
    simp only [hb, Option.bind_eq_some_iff, Option.filter_eq_some_iff, beq_iff_eq] at hs
    obtain ⟨id, hid, entry, ⟨scope, hscope, he⟩, ht⟩ := hs
    exact .nameImport hb hid ⟨scope, hscope, he⟩ (h entry t ht)
  | «alias» r scope =>
    simp only [hb, Option.bind_eq_some_iff] at hs
    obtain ⟨start, hst, last, hl, ht⟩ := hs
    exact .path (.inl hb) (Option.bind_eq_some_iff.mpr hst) (leads_of_followBy h _ _ _ hl)
      (h last t ht)
  | «export» r scope =>
    simp only [hb, Option.bind_eq_some_iff] at hs
    obtain ⟨start, hst, last, hl, ht⟩ := hs
    exact .path (.inr hb) (Option.bind_eq_some_iff.mpr hst) (leads_of_followBy h _ _ _ hl)
      (h last t ht)

theorem resolves_of_denote {depth : Nat} {s t : SymbolId} (h : a.denote units depth s = some t) :
    Resolves a units s t := by
  induction depth generalizing s t with
  | zero => cases h
  | succ depth ih => exact resolves_of_denoteBy (fun _ _ => ih) h

mutual

theorem Resolves.denote {s t : SymbolId} :
    Resolves a units s t → ∃ depth, a.denote units depth s = some t
  | .direct binding => ⟨1, by simp only [Arena.denote, denoteBy, binding]⟩
  | .moduleImport binding found => by
    refine ⟨1, ?_⟩
    simp only [Arena.denote, denoteBy, binding, Option.filter_eq_some_iff, beq_iff_eq]
    exact found
  | .nameImport binding found exported rest => by
    obtain ⟨depth, hd⟩ := rest.denote
    obtain ⟨scope, hscope, he⟩ := exported
    refine ⟨depth + 1, ?_⟩
    simp only [Arena.denote, denoteBy, binding, Option.bind_eq_some_iff,
      Option.filter_eq_some_iff, beq_iff_eq]
    exact ⟨_, found, _, ⟨scope, hscope, he⟩, hd⟩
  | .path binding found walk rest => by
    obtain ⟨depth, hd⟩ := rest.denote
    obtain ⟨depth', hd'⟩ := walk.follow
    -- Both the walk and what is behind it are reached at the larger of the two depths.
    have last := denote_mono (Nat.le_max_left depth depth') hd
    have there := followBy_mono (fun _ _ => denote_mono (Nat.le_max_right depth depth')) _ _ _ hd'
    refine ⟨max depth depth' + 1, ?_⟩
    rcases binding with binding | binding
    · simp only [Arena.denote, denoteBy, binding]
      rw [show _ = _ from found, Option.bind_some, there, Option.bind_some, last]
    · simp only [Arena.denote, denoteBy, binding]
      rw [show _ = _ from found, Option.bind_some, there, Option.bind_some, last]

theorem Leads.follow {s t : SymbolId} {names : List String} :
    Leads a units s names t → ∃ depth, a.followBy (a.denote units depth) s names = some t
  | .nil => ⟨0, rfl⟩
  | .cons first shown rest => by
    obtain ⟨depth, hd⟩ := first.denote
    obtain ⟨depth', hd'⟩ := rest.follow
    obtain ⟨scope, hscope, hn⟩ := shown
    refine ⟨max depth depth', ?_⟩
    simp only [followBy, Option.bind_eq_some_iff]
    exact ⟨_, denote_mono (Nat.le_max_left ..) hd, scope, hscope, _, hn,
      followBy_mono (fun _ _ => denote_mono (Nat.le_max_right ..)) _ _ _ hd'⟩

end

/-- **Resolution is reached at some depth.** -/
theorem resolves_iff_denote {s t : SymbolId} :
    Resolves a units s t ↔ ∃ depth, a.denote units depth s = some t :=
  ⟨Resolves.denote, fun ⟨_, h⟩ => resolves_of_denote h⟩

/-- **A symbol resolves to at most one symbol.** -/
theorem Resolves.unique {s t t' : SymbolId} (h : Resolves a units s t)
    (h' : Resolves a units s t') :
    t = t' := by
  obtain ⟨depth, hd⟩ := h.denote
  obtain ⟨depth', hd'⟩ := h'.denote
  have hm := denote_mono (Nat.le_max_left depth depth') hd
  have hm' := denote_mono (Nat.le_max_right depth depth') hd'
  exact Option.some.inj (hm.symm.trans hm')

end CellScript.Arena
