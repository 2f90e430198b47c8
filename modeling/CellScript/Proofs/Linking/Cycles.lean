import CellScript.Proofs.Linking.Asks

/-!
# Linking reports cycles, and only cycles

What a call of linking does is confined to the symbols that it is about: it changes symbols that
wait to be linked, that are not being linked already and that it asks for, directly or through
others. If it reports a cycle, the chain in the report is one, of symbols that wait before and
after.

* `Arena.Effect` — what a call of linking may change and report
* `Arena.linkChain_effect` — every call keeps to it, by induction on the depth
* `buildScopes_link_cycles` — linking ends, and its reports of cycles are true and complete
-/

namespace CellScript

namespace Arena

open Relation

variable {a b b' b₀ : Arena} {units : Entries SymbolId}

/-! ## What a call may do -/

/-- Linking a symbol, with a chain of symbols that are being linked, leads back to one of these or
to one met on the way. All symbols on the way wait, and the fault names the chain and the way. -/
def ClosesCycle (a : Arena) (units : Entries SymbolId) (b : Arena) (chain : List SymbolId)
    (s : SymbolId) (fault : Fault) : Prop :=
  ∃ way last, (way ++ [last]).head? = some s ∧ (way ++ [last]).IsChain (Asks a units) ∧
    (∀ t ∈ way ++ [last], b.Waiting t) ∧ last ∈ chain ++ way ∧
    fault = .cyclicReference ((chain ++ way ++ [last]).map fun t => (a.symbol t).name)
      (a.symbol last).span

/-- What linking a symbol from an arena may come to. -/
structure Effect (a : Arena) (units : Entries SymbolId) (chain : List SymbolId) (s : SymbolId)
    (b : Arena) (outcome : Except Fault PUnit × Arena) : Prop where
  touched : ∀ t, outcome.2.symbol t ≠ b.symbol t →
    t ∉ chain ∧ b.Waiting s ∧ b.Waiting t ∧ ReflTransGen (Pulls a units b) s t
  failed : ∀ fault, outcome.1 = .error fault → outcome.2.symbol s = b.symbol s
  cyclic : ∀ fault, outcome.1 = .error fault → fault.code = .cyclicReference →
    ClosesCycle a units outcome.2 chain s fault

/-- A call that changes nothing and reports no cycle. -/
theorem Effect.of_same {chain : List SymbolId} {s : SymbolId} {r : Except Fault PUnit}
    (h : ∀ fault, r = .error fault → fault.code ≠ .cyclicReference) :
    Effect a units chain s b (r, b) :=
  ⟨fun _ changed => absurd rfl changed, fun _ _ => rfl,
    fun fault hf code => absurd code (h fault hf)⟩

namespace Waiting

/-- What waits later has waited before. -/
theorem of_keeps (hb : Binds a units b) (hb' : Binds a units b') (keeps : Keeps b b') {t : SymbolId}
    (h : b'.Waiting t) : b.Waiting t := by
  refine ⟨?_, ?_⟩
  · rw [hb.binding, ← hb'.binding]
    exact h.1
  · cases hr : (b.symbol t).resolved with
    | none => rfl
    | some u =>
      have := keeps t (by rw [hr]; rfl)
      rw [h.2] at this
      cases this

theorem congr {t : SymbolId} (h : b.Waiting t) (same : b'.symbol t = b.symbol t) :
    b'.Waiting t := by
  rwa [Waiting, same]

end Waiting

theorem Pulls.of_keeps (hb : Binds a units b) (hb' : Binds a units b') (keeps : Keeps b b')
    {s t : SymbolId} (h : Pulls a units b' s t) : Pulls a units b s t :=
  ⟨h.1, h.2.of_keeps hb hb' keeps⟩

/-! ## Computations within a call -/

/-- While symbols are linked one after the other, only symbols of `S` differ from how they were in
`b₀`, and every report of a cycle satisfies `report`. -/
def Confined (a : Arena) (units : Entries SymbolId) (b₀ : Arena) (S : SymbolId → Prop)
    (report : Fault → Arena → Prop) {α : Type} (x : Linking α) : Prop :=
  ∀ b, Binds a units b → Keeps b₀ b → (∀ t, b.symbol t ≠ b₀.symbol t → S t) →
    (∀ t, (x b).2.symbol t ≠ b₀.symbol t → S t) ∧
    ∀ fault, (x b).1 = .error fault → fault.code = .cyclicReference → report fault (x b).2

theorem composes_confined {S : SymbolId → Prop} {report : Fault → Arena → Prop} :
    Composes a units fun _ _ x => Confined a units b₀ S report x where
  asking f code b _ _ inside := ⟨inside, fun fault hf cyclic => absurd cyclic (code b fault hf)⟩
  bind := by
    intro α β P _ x _ f sound confined rest b hb keeps inside
    obtain ⟨binds, keeps', found⟩ := sound b hb
    obtain ⟨inside', report'⟩ := confined b hb keeps inside
    rw [bind_linking]
    rcases hx : x b with ⟨e | v, b'⟩
    · rw [hx] at inside' report'
      refine ⟨inside', fun fault hf => ?_⟩
      cases hf
      exact report' e rfl
    · rw [hx] at binds keeps' found inside'
      exact rest v (found v rfl) b' binds (fun t ht => keeps' t (keeps t ht)) inside'

/-! ## Every call keeps to its effect -/

theorem Binds.name (h : Binds a units b) (s : SymbolId) :
    (b.symbol s).name = (a.symbol s).name := by
  rcases h.symbol s with he | ⟨-, t, -, he⟩ <;> rw [he]
  rfl

theorem Binds.span (h : Binds a units b) (s : SymbolId) :
    (b.symbol s).span = (a.symbol s).span := by
  rcases h.symbol s with he | ⟨-, t, -, he⟩ <;> rw [he]
  rfl

/-- What linking a symbol asks for stays within what linking the symbol may do. -/
theorem linkedFrom_confined (fresh : Unlinked a units) {fuel : Nat} {chain : List SymbolId}
    {s t : SymbolId} (span : Span) (h₀ : Binds a units b₀) (asks : Asks a units s t)
    (effect : ∀ b, Binds a units b →
      Effect a units (chain ++ [s]) t b (linkChain units fuel (chain ++ [s]) t b)) :
    Confined a units b₀
      (fun u => u ∉ chain ++ [s] ∧ b₀.Waiting u ∧ ReflTransGen (Pulls a units b₀) s u)
      (fun fault b => ∃ t, Asks a units s t ∧ ClosesCycle a units b (chain ++ [s]) t fault)
      (linkedFrom units fuel (chain ++ [s]) span t) := by
  refine composes_confined.bind (P := fun _ => True) (x := linkChain units fuel (chain ++ [s]) t)
    (f := fun _ => asking fun b => b.linked t span) ?sound ?call fun _ _ =>
      composes_confined.asking _ fun _ _ => linked_code
  case sound =>
    intro b hb
    obtain ⟨binds, keeps, -⟩ := linkChain_binds fresh fuel (chain ++ [s]) t b hb
    exact ⟨binds, keeps, fun _ _ => trivial⟩
  case call =>
    intro b hb keeps inside
    have call := effect b hb
    refine ⟨fun u changed => ?_, fun fault hf code => ⟨t, asks, call.cyclic fault hf code⟩⟩
    by_cases same : (linkChain units fuel (chain ++ [s]) t b).2.symbol u = b.symbol u
    · exact inside u (same ▸ changed)
    · obtain ⟨absent, first, waits, pulls⟩ := call.touched u same
      have earlier : ∀ {v}, b.Waiting v → b₀.Waiting v := fun hv => hv.of_keeps h₀ hb keeps
      exact ⟨absent, earlier waits, .head ⟨asks, earlier first⟩
        (ReflTransGen.mono (fun _ _ hp => Pulls.of_keeps h₀ hb keeps hp) _ _ pulls)⟩

/-- A call fails if what it asks for does. The symbol itself is on the chain of the calls it makes,
so they leave it alone. -/
theorem Effect.of_failed {chain : List SymbolId} {s : SymbolId} {e : Fault} (waits : b.Waiting s)
    (inside : ∀ t, b'.symbol t ≠ b.symbol t →
      t ∉ chain ++ [s] ∧ b.Waiting t ∧ ReflTransGen (Pulls a units b) s t)
    (report : e.code = .cyclicReference →
      ∃ t, Asks a units s t ∧ ClosesCycle a units b' (chain ++ [s]) t e) :
    Effect a units chain s b (.error e, b') := by
  have self : b'.symbol s = b.symbol s := by
    by_contra changed
    exact (inside s changed).1 (by simp)
  refine ⟨fun t changed => ?_, fun _ _ => self, ?_⟩
  · obtain ⟨absent, waits', pulls⟩ := inside t changed
    exact ⟨fun member => absent (by simp [member]), waits, waits', pulls⟩
  · rintro _ ⟨⟩ code
    obtain ⟨t, asks, way, last, head, questions, all, back, fault⟩ := report code
    refine ⟨s :: way, last, rfl, ?_, ?_, by simpa using back, by simpa using fault⟩
    · obtain ⟨rest, hrest⟩ := List.head?_eq_some_iff.mp head
      rw [List.cons_append, hrest, List.isChain_cons_cons]
      exact ⟨asks, hrest ▸ questions⟩
    · rw [List.cons_append, List.forall_mem_cons]
      exact ⟨waits.congr self, all⟩

/-- A call binds its symbol once it has found what the symbol stands for. -/
theorem Effect.of_found {chain : List SymbolId} {s target : SymbolId} (waits : b.Waiting s)
    (absent : s ∉ chain)
    (inside : ∀ t, b'.symbol t ≠ b.symbol t →
      t ∉ chain ++ [s] ∧ b.Waiting t ∧ ReflTransGen (Pulls a units b) s t) :
    Effect a units chain s b (.ok ⟨⟩, b'.setResolved s target) := by
  refine ⟨fun t changed => ?_, fun _ hf => (nomatch hf), fun _ hf => (nomatch hf)⟩
  by_cases self : t = s
  · rw [self]
    exact ⟨absent, waits, waits, .refl⟩
  · rw [Arena.setResolved, symbol_modifySymbol_ne _ self] at changed
    obtain ⟨absent, waits', pulls⟩ := inside t changed
    exact ⟨fun member => absent (by simp [member]), waits, waits', pulls⟩

/-- **Every call of linking keeps to its effect**, whatever its depth, its chain and what was bound
before. -/
theorem linkChain_effect (fresh : Unlinked a units) (fuel : Nat) :
    ∀ chain s b, Binds a units b → Effect a units chain s b (linkChain units fuel chain s b) := by
  induction fuel with
  | zero =>
    intro chain s b _
    exact .of_same fun fault hf => by cases hf; exact nofun
  | succ fuel ih =>
    intro chain s b hb
    rw [linkChain_succ]
    split
    · exact .of_same fun fault hf => by cases hf
    next due =>
      have waits : b.Waiting s := by
        simpa only [Waiting, Bool.or_eq_true, Bool.not_eq_true', not_or, Bool.not_eq_false,
          Option.not_isSome_iff_eq_none] using due
      split
      · next member =>
        refine ⟨fun t changed => absurd rfl changed, fun _ _ => rfl, ?_⟩
        rintro _ ⟨⟩ -
        refine ⟨[], s, rfl, .singleton s, by simpa using waits, by simpa using member, ?_⟩
        simp only [hb.name, hb.span, List.append_nil]
      · next absent =>
        let deref := linkedFrom units fuel (chain ++ [s]) (b.symbol s).span
        have sound := linkedFrom_sound fresh fuel (chain ++ [s]) (b.symbol s).span
        have confined := @denotation_composes a units _ deref deref fresh composes_confined sound s
          (b.symbol s).span _ hb.binding.symm fun t asks =>
            linkedFrom_confined fresh _ hb asks (ih (chain ++ [s]) t)
        obtain ⟨inside, report⟩ := confined b hb (fun _ => id) fun t changed => absurd rfl changed
        rw [bind_linking]
        rcases hx : denotation deref units (b.symbol s).span (b.symbol s).binding b
          with ⟨e | target, b'⟩
        · rw [hx] at inside report
          exact .of_failed waits inside (report e rfl)
        · rw [hx] at inside
          exact .of_found waits (by simpa using absent) inside

/-! ## Linking by itself -/

/-- The arenas that linking can come to from an arena, whatever is linked and whatever fails. -/
theorem binds_of_linkAll (fresh : Unlinked a units) {calls : List SymbolId} {faults : List Fault}
    (reached : linkAll true units calls a = .ok (faults, b)) : Binds a units b :=
  linkAll_binds fresh calls .refl reached

theorem link_effect (fresh : Unlinked a units) (h : Binds a units b) (s : SymbolId) :
    Effect a units [] s b (b.link units s) :=
  linkChain_effect fresh _ [] s b h

/-- A symbol that stands for something is linked, and one that stands for nothing is not. -/
theorem link_ok_iff (fresh : Unlinked a units) (h : Binds a units b) (s : SymbolId) :
    (b.link units s).1 = .ok ⟨⟩ ↔ ∃ t, Resolves a units s t := by
  constructor
  · intro ok
    obtain ⟨binds, -, settled⟩ := linkChain_binds fresh (b.symbols.size + 2) [] s b h
    cases hi : (a.symbol s).binding.isIndirect with
    | false =>
      refine ⟨s, .direct ?_⟩
      cases hb : (a.symbol s).binding <;> simp_all [Binding.isIndirect]
    | true =>
      obtain ⟨t, ht⟩ := Option.isSome_iff_exists.mp (settled ⟨⟩ ok hi)
      exact ⟨t, (binds.resolves fresh ht).1⟩
  · rintro ⟨t, resolves⟩
    obtain ⟨depth, hd⟩ := resolves.denote
    exact linkChain_complete fresh depth (b.symbols.size + 2) [] s t hd .nil (by simp [h.size]) b h

end Arena

open Relation

/-- To link a symbol of an arena that calls of linking have come to ends in time, reports only
chains that close, and fails wherever the questions from the symbol lead into a cycle. -/
structure Analysis.LinksInTime (built : Analysis) (b : Arena) (s : SymbolId) : Prop where
  ends : ∀ nested, (Arena.linkStep built.units)^[built.arena.indirectSymbols.length + 1] nested [] s
    b = b.link built.units s
  reports : ∀ fault, (b.link built.units s).1 = .error fault → fault.code = .cyclicReference →
    ∃ way last, (way ++ [last]).head? = some s ∧ last ∈ way ∧
      (way ++ [last]).IsChain (Arena.Asks built.arena built.units) ∧
      (∀ t ∈ way ++ [last], b.Waiting t ∧ (b.link built.units s).2.Waiting t) ∧
      fault = .cyclicReference ((way ++ [last]).map fun t => (b.symbol t).name) (b.symbol last).span
  fails : ∀ c, ReflTransGen (Arena.Asks built.arena built.units) s c →
    TransGen (Arena.Asks built.arena built.units) c c →
      ∃ fault, (b.link built.units s).1 = .error fault

/-- **Linking ends, and reports a cycle only if there is one.** In the arena as it was built, and in
any arena that calls of linking have come to from there, to link a symbol

* takes calls that nest no deeper than there are indirect symbols, and one more: what the calls
  below that depth would do makes no difference;
* reports a cycle only with a chain that starts at the symbol, along which every symbol asks for the
  next one, that ends where it has been before, and whose symbols all wait before and after; the
  report names the symbols of the chain, at the place of the last one;
* fails if what it asks for, directly or through others, lies on a cycle of such questions. -/
theorem buildScopes_link_cycles {recovery : Bool} {program : UnitSet} {built : Analysis}
    {pending : List PendingReference} (h : buildScopes recovery program = .ok (built, pending))
    {calls : List SymbolId} {faults : List Fault} {b : Arena}
    (reached : Arena.linkAll true built.units calls built.arena = .ok (faults, b)) (s : SymbolId) :
    built.LinksInTime b s := by
  have fresh := buildScopes_unlinked h
  have binds := Arena.binds_of_linkAll fresh reached
  refine ⟨fun nested => ?_, fun fault hf code => ?_, fun c leads cycle => ?_⟩
  · have fewer : built.arena.indirectSymbols.length ≤ built.arena.symbols.size := by
      simpa [Arena.indirectSymbols] using
        List.length_filter_le (fun s => (built.arena.symbol s).binding.isIndirect)
          (List.range built.arena.symbols.size)
    exact Arena.iterate_linkStep fresh _ (b.symbols.size + 2) [] s nested
      (by rw [binds.size]; omega) List.nodup_nil (List.nil_subset _) (by simp) b binds
  · obtain ⟨way, last, head, questions, waits, back, rfl⟩ :=
      (Arena.link_effect fresh binds s).cyclic fault hf code
    obtain ⟨binds', keeps, -⟩ :=
      Arena.linkChain_binds fresh (b.symbols.size + 2) [] s b binds
    refine ⟨way, last, head, by simpa using back, questions, fun t ht => ?_, ?_⟩
    · exact ⟨(waits t ht).of_keeps binds binds' keeps, waits t ht⟩
    · simp only [binds.name, binds.span, List.nil_append]
  · cases hl : (b.link built.units s).1 with
    | error fault => exact ⟨fault, rfl⟩
    | ok u =>
      obtain ⟨t, resolves⟩ := (Arena.link_ok_iff fresh binds s).mp hl
      exact absurd resolves (Arena.not_resolves_of_cycle leads cycle t)

theorem exists_buildScopes_crossing :
    ∃ built pending, buildScopes false crossingModules = .ok (built, pending) := by
  have ok : (buildScopes false crossingModules).isOk = true := by decide +kernel
  cases h : buildScopes false crossingModules with
  | error fault =>
    rw [h] at ok
    cases ok
  | ok p => exact ⟨p.1, p.2, rfl⟩

/-- The theorem at two modules with two aliases of each other, the second and third symbol, after
the last symbol has been linked. -/
theorem buildScopes_link_cycles_crossing : ∃ built pending,
    buildScopes false crossingModules = .ok (built, pending) ∧
    ∃ faults b, Arena.linkAll true built.units [8] built.arena = .ok (faults, b) ∧
      built.LinksInTime b 2 := by
  obtain ⟨built, pending, h⟩ := exists_buildScopes_crossing
  obtain ⟨faults, b, reached, -⟩ := Arena.linkAll_spec (buildScopes_unlinked h) [8] Arena.Binds.refl
  exact ⟨built, pending, h, faults, b, reached, buildScopes_link_cycles h reached 2⟩

-- The report names the chain, and the cycle is found from either side.
example : (match buildScopes false crossingModules with
    | .error _ => []
    | .ok (built, _) => [2, 3].map fun s =>
      match (built.arena.link built.units s).1 with
      | .error fault => fault.message
      | .ok _ => "linked") =
    ["Cyclic reference: p -> q -> p", "Cyclic reference: q -> p -> q"] := by decide +kernel

end CellScript
