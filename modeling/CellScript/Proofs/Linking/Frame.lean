import CellScript.Proofs.Linking.Cycles

/-!
# What a call of linking leaves alone

A call of linking may fail deep inside other calls, after some of them have bound symbols. Whatever
happens, it changes only symbols that it asks for, and what it has bound is what linking them by
themselves binds.

Linking passes the chain of symbols that are being linked down to its calls. A `Linker` keeps it in
its state instead, adding a symbol before its declaration is followed and taking it away afterwards.
Both are the same: every call leaves the chain as it was, also if it fails.

* `Linker.link_eq` — linking with a chain that is kept
* `buildScopes_link_frame` — what changes, and what it changes to
-/

namespace CellScript

/-! ## Linking with a chain that is kept -/

/-- An arena that is being linked, with the symbols whose declarations are being followed. -/
structure Linker where
  arena : Arena
  chain : List SymbolId

namespace Linker

/-- Computations with a linker that may fail, keeping what was done before. -/
abbrev Run (α : Type) := ExceptT Fault (StateM Linker) α

variable {α β : Type}

/-- Reads something off the arena. -/
def reading (f : Arena → Except Fault α) : Run α := fun linker => (f linker.arena, linker)

/-- Follows a path, replacing each symbol on the way by what `deref` gives for it. -/
def follow (deref : SymbolId → Run SymbolId) (r : Reference) (span : Span) :
    SymbolId → List String → Run SymbolId
  | id, [] => pure id
  | id, name :: rest => do
    let container ← deref id
    let next ← reading fun a => a.publicMember container name r span
    follow deref r span next rest

/-- What a binding stands for. -/
def target (deref : SymbolId → Run SymbolId) (units : Entries SymbolId) (span : Span) :
    Binding → Run SymbolId
  | .direct => reading fun _ => .error (.notLinked "" span)
  | .moduleImport unit => reading fun a => a.module units unit span
  | .nameImport unit name => do
    let module ← reading fun a => a.module units unit span
    let entry ← reading fun a => a.exported module name unit span
    deref entry
  | .alias r scope | .export r scope => do
    let start ← reading fun a => a.first scope r span
    let last ← follow deref r span start (r.path.drop 1)
    deref last

/-- Links a symbol. While its declaration is followed it is the last one of the chain. -/
def link (units : Entries SymbolId) : Nat → SymbolId → Run PUnit
  | 0, id => reading fun a => .error (.notLinked (a.symbol id).name (a.symbol id).span)
  | fuel + 1, id => do
    let linker ← get
    let s := linker.arena.symbol id
    if !s.binding.isIndirect || s.resolved.isSome then
      return ⟨⟩
    else if linker.chain.contains id then
      reading fun a =>
        .error (.cyclicReference ((linker.chain ++ [id]).map fun s => (a.symbol s).name) s.span)
    else
      let deref (other : SymbolId) : Run SymbolId := do
        link units fuel other
        reading fun a => a.linked other s.span
      modify fun l => { l with chain := l.chain ++ [id] }
      let result ← ExceptT.lift (target deref units s.span s.binding).run
      modify fun l => { l with chain := l.chain.dropLast }
      let target ← reading fun _ => result
      modify fun l => { l with arena := l.arena.setResolved id target }

/-- The second computation does what the first one does, and leaves the chain as it was. -/
def Mirrors (chain : List SymbolId) (x : Linking α) (y : Run α) : Prop :=
  ∀ a, y ⟨a, chain⟩ = ((x a).1, ⟨(x a).2, chain⟩)

variable {chain : List SymbolId}

theorem bind_run (x : Run α) (f : α → Run β) (l : Linker) :
    (x >>= f) l = match x l with
      | (.ok v, l) => f v l
      | (.error e, l) => (.error e, l) := by
  show (ExceptT.bind x f) l = _
  simp only [ExceptT.bind, ExceptT.mk, bind, StateT.bind, ExceptT.bindCont]
  rcases x l with ⟨v | e, l'⟩ <;> rfl

/-- What comes of a computation, be it a fault. -/
theorem lift_run (x : Run α) (l : Linker) :
    (ExceptT.lift x.run : Run (Except Fault α)) l = (.ok (x l).1, (x l).2) := rfl

theorem mirrors_reading (f : Arena → Except Fault α) :
    Mirrors chain (Arena.asking f) (reading f) :=
  fun _ => rfl

theorem Mirrors.bind {x : Linking α} {y : Run α} {f : α → Linking β} {g : α → Run β}
    (h : Mirrors chain x y) (rest : ∀ v, Mirrors chain (f v) (g v)) :
    Mirrors chain (x >>= f) (y >>= g) := by
  intro a
  rw [bind_run, Arena.bind_linking, h]
  rcases x a with ⟨e | v, a'⟩
  · rfl
  · exact rest v a'

section Mirrors

variable {deref : SymbolId → Linking SymbolId} {deref' : SymbolId → Run SymbolId}

theorem mirrors_follow (h : ∀ s, Mirrors chain (deref s) (deref' s)) (r : Reference) (span : Span)
    (names : List String) :
    ∀ s, Mirrors chain (Arena.followLinking deref r span s names)
      (follow deref' r span s names) := by
  induction names with
  | nil => exact fun _ _ => rfl
  | cons name rest ih =>
    exact fun s => (h s).bind fun _ => (mirrors_reading _).bind ih

theorem mirrors_target (h : ∀ s, Mirrors chain (deref s) (deref' s)) (units : Entries SymbolId)
    (span : Span) (binding : Binding) :
    Mirrors chain (Arena.denotation deref units span binding)
      (target deref' units span binding) := by
  have path : ∀ r scope, Mirrors chain (Arena.denotation deref units span (.alias r scope))
      (target deref' units span (.alias r scope)) := fun r scope =>
    (mirrors_reading _).bind fun start => (mirrors_follow h r span _ start).bind h
  cases binding with
  | direct => exact mirrors_reading _
  | moduleImport unit => exact mirrors_reading _
  | nameImport unit name => exact (mirrors_reading _).bind fun _ => (mirrors_reading _).bind h
  | «alias» r scope => exact path r scope
  | «export» r scope => exact path r scope

end Mirrors

/-- What a call does with the outcome of following the declaration. -/
theorem link_succ (units : Entries SymbolId) (fuel : Nat) (s : SymbolId) (l : Linker) :
    link units (fuel + 1) s l =
      if (!(l.arena.symbol s).binding.isIndirect || (l.arena.symbol s).resolved.isSome) = true then
        (.ok ⟨⟩, l)
      else if l.chain.contains s = true then
        (.error (.cyclicReference ((l.chain ++ [s]).map fun s => (l.arena.symbol s).name)
          (l.arena.symbol s).span), l)
      else
        let deref (other : SymbolId) : Run SymbolId := do
          link units fuel other
          reading fun a => a.linked other (l.arena.symbol s).span
        match target deref units (l.arena.symbol s).span (l.arena.symbol s).binding
            ⟨l.arena, l.chain ++ [s]⟩ with
        | (.ok t, l) => (.ok ⟨⟩, ⟨l.arena.setResolved s t, l.chain.dropLast⟩)
        | (.error e, l) => (.error e, ⟨l.arena, l.chain.dropLast⟩) := by
  rw [link]
  show (if _ then _ else _ : Run PUnit) l = _
  split
  · rfl
  split
  · rfl
  rw [bind_run]
  show (ExceptT.lift _ >>= _ : Run PUnit) _ = _
  rw [bind_run, lift_run]
  dsimp only
  rcases target _ units _ _ _ with ⟨e | t, l'⟩ <;> rfl

/-- **Linking leaves the chain as it was**, whether it succeeds or fails, and does what linking with
a chain that is handed down does. -/
theorem link_eq (units : Entries SymbolId) (fuel : Nat) :
    ∀ chain s, Mirrors chain (Arena.linkChain units fuel chain s) (link units fuel s) := by
  induction fuel with
  | zero => exact fun _ _ _ => rfl
  | succ fuel ih =>
    intro chain s a
    rw [Arena.linkChain_succ, link_succ]
    split
    · rfl
    split
    · rfl
    have deref : ∀ other, Mirrors (chain ++ [s])
        (Arena.linkedFrom units fuel (chain ++ [s]) (a.symbol s).span other) (do
          link units fuel other
          reading fun a' => a'.linked other (a.symbol s).span) := fun other =>
      (ih (chain ++ [s]) other).bind fun _ => mirrors_reading _
    have call := mirrors_target deref units (a.symbol s).span (a.symbol s).binding a
    rw [Arena.bind_linking]
    simp only [call]
    rcases Arena.denotation _ units _ _ a with ⟨e | t, a'⟩ <;> simp only [List.dropLast_concat]
    rfl

end Linker

/-! ## What changes -/

namespace Arena

open Relation

variable {a b b' : Arena} {units : Entries SymbolId}

/-- What differs in a later arena was waiting, and is bound to what it resolves to. -/
theorem Binds.changed (hb : Binds a units b) (hb' : Binds a units b') {t : SymbolId}
    (waits : b.Waiting t) (changed : b'.symbol t ≠ b.symbol t) :
    ∃ u, Resolves a units t u ∧ b.symbol t = a.symbol t ∧ b'.symbol t = a.boundTo t u := by
  have before : b.symbol t = a.symbol t := by
    rcases hb.symbol t with he | ⟨-, u, -, he⟩
    · exact he
    · have unbound := waits.2
      rw [he] at unbound
      cases unbound
  rcases hb'.symbol t with he | ⟨-, u, resolves, he⟩
  · exact absurd (he.trans before.symm) changed
  · exact ⟨u, resolves, before, he⟩

/-- To link a symbol by itself binds it to what it resolves to. -/
theorem link_alone (fresh : Unlinked a units) (h : Binds a units b) {t u : SymbolId}
    (indirect : (a.symbol t).binding.isIndirect = true) (resolves : Resolves a units t u) :
    (b.link units t).1 = .ok ⟨⟩ ∧ (b.link units t).2.symbol t = a.boundTo t u := by
  have ok := (link_ok_iff fresh h t).mpr ⟨u, resolves⟩
  obtain ⟨binds, -, settled⟩ := linkChain_binds fresh (b.symbols.size + 2) [] t b h
  obtain ⟨u', hu'⟩ := Option.isSome_iff_exists.mp (settled ⟨⟩ ok indirect)
  obtain ⟨resolves', he⟩ := binds.resolves fresh hu'
  rw [resolves.unique resolves']
  exact ⟨ok, he⟩

end Arena

open Relation

/-- What it takes to link a symbol of an arena that calls of linking have come to, and nothing
besides. -/
structure Analysis.LinksNeeded (built : Analysis) (b : Arena) (s : SymbolId) : Prop where
  /-- The chain is as it was. -/
  chain : ∀ fuel chain, Linker.link built.units fuel s ⟨b, chain⟩ =
    ((Arena.linkChain built.units fuel chain s b).1,
      ⟨(Arena.linkChain built.units fuel chain s b).2, chain⟩)
  /-- Scopes and linked symbols are as they were. -/
  kept : (b.link built.units s).2.scopes = b.scopes ∧
    (b.link built.units s).2.symbols.size = b.symbols.size ∧
    ∀ t, (b.symbol t).resolved.isSome = true → (b.link built.units s).2.symbol t = b.symbol t
  /-- A symbol that has changed was needed, and is what linking it by itself would make of it. -/
  needed : ∀ t, (b.link built.units s).2.symbol t ≠ b.symbol t →
    b.Waiting t ∧ ReflTransGen (Arena.Pulls built.arena built.units b) s t ∧
    (∃ u, (b.link built.units s).2.symbol t =
      { b.symbol t with
        resolved := some u
        target := ((b.link built.units s).2.symbol u).target }) ∧
    ∀ calls faults c, Arena.linkAll true built.units calls built.arena = .ok (faults, c) →
      (c.link built.units t).1 = .ok ⟨⟩ ∧
        (c.link built.units t).2.symbol t = (b.link built.units s).2.symbol t
  /-- A symbol that could not be linked is unbound. -/
  failed : ∀ fault, (b.link built.units s).1 = .error fault →
    (b.link built.units s).2.symbol s = b.symbol s ∧
      ((b.link built.units s).2.symbol s).resolved = none

/-- **A call of linking touches only what it depends on**, whether it succeeds or fails. From any
arena that calls of linking have come to, to link a symbol

* leaves the chain as it was, at any depth, and all scopes and all linked symbols;
* changes a symbol only if it waits and is the one to be linked, or one that this one asks for,
  directly or through others that wait. It is then bound to a symbol and takes on the kind of that
  symbol. To link it by itself, from any arena that calls of linking have come to, succeeds and
  makes the same of it;
* leaves the symbol itself unbound if it fails. -/
theorem buildScopes_link_frame {recovery : Bool} {program : UnitSet} {built : Analysis}
    {pending : List PendingReference} (h : buildScopes recovery program = .ok (built, pending))
    {calls : List SymbolId} {faults : List Fault} {b : Arena}
    (reached : Arena.linkAll true built.units calls built.arena = .ok (faults, b)) (s : SymbolId) :
    built.LinksNeeded b s := by
  have fresh := buildScopes_unlinked h
  have binds := Arena.binds_of_linkAll fresh reached
  have effect := Arena.link_effect fresh binds s
  have binds' : Arena.Binds built.arena built.units (b.link built.units s).2 :=
    (Arena.linkChain_binds fresh (b.symbols.size + 2) [] s b binds).1
  refine ⟨fun fuel chain => Linker.link_eq built.units fuel chain s b,
    ⟨binds'.scopes.trans binds.scopes.symm, binds'.size.trans binds.size.symm, fun t linked => ?_⟩,
    fun t changed => ?_, fun fault hf => ?_⟩
  · by_contra changed
    obtain ⟨-, -, waits, -⟩ := effect.touched t changed
    rw [waits.2] at linked
    cases linked
  · obtain ⟨-, -, waits, pulls⟩ := effect.touched t changed
    obtain ⟨u, resolves, before, after⟩ := binds.changed binds' waits changed
    refine ⟨waits, pulls, ⟨u, ?_⟩, fun calls faults c hc => ?_⟩
    · rw [after, before, binds'.symbol_of_direct (resolves.isDirect fresh)]
      rfl
    · rw [after]
      exact Arena.link_alone fresh (Arena.binds_of_linkAll fresh hc)
        (binds.binding (s := t) ▸ waits.1) resolves
  · have same := effect.failed fault hf
    refine ⟨same, ?_⟩
    rw [same]
    cases hr : (b.symbol s).resolved with
    | none => rfl
    | some u =>
      have ok := (Arena.link_ok_iff fresh binds s).mpr ⟨u, (binds.resolves fresh hr).1⟩
      rw [hf] at ok
      cases ok

/-- Two modules. The second imports the first as `m`, whose export `e` is an empty library, and has
an alias of a name that the library does not have. -/
def strandedAlias : UnitSet :=
  let node (index : Nat) : Node := ⟨.tree index, default⟩
  [⟨node 0, "a", 0, .module
      { globalName := none, imports := [], aliases := []
        libraries := [⟨node 1, "l", false, []⟩]
        exports := [⟨node 2, ⟨.here, ["l"]⟩, "e"⟩] }⟩,
   ⟨node 3, "b", 0, .module
      { globalName := none
        imports := [⟨node 4, "a", [⟨node 5, .module, "m"⟩]⟩]
        aliases := [⟨node 6, ⟨.here, ["m", "e", "x"]⟩, "g"⟩]
        libraries := [], exports := [] }⟩]

/-- The theorem at the alias, from the arena as it was built. -/
theorem buildScopes_link_frame_stranded : ∃ built pending,
    buildScopes false strandedAlias = .ok (built, pending) ∧
    ∃ faults b, Arena.linkAll true built.units [] built.arena = .ok (faults, b) ∧
      built.LinksNeeded b 5 := by
  have ok : (buildScopes false strandedAlias).isOk = true := by decide +kernel
  cases h : buildScopes false strandedAlias with
  | error fault =>
    rw [h] at ok
    cases ok
  | ok p =>
    have start : Arena.linkAll true p.1.units [] p.1.arena = .ok ([], p.1.arena) := rfl
    exact ⟨p.1, p.2, rfl, [], p.1.arena, start, buildScopes_link_frame h start 5⟩

-- Linking the alias fails. It has bound the module and the export on the way, and not itself.
example : (match buildScopes false strandedAlias with
    | .error _ => none
    | .ok (built, _) =>
      match built.arena.link built.units 5 with
      | (.ok _, _) => none
      | (.error fault, after) =>
        some (fault.message, after.symbols.toList.map fun s => (s.name, s.resolved))) =
    some ("Cannot resolve reference m.e.x", [("a", none), ("b", none), ("l", none),
      ("e", some 2), ("m", some 0), ("g", none)]) := by decide +kernel

end CellScript
