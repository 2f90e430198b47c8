import CellScript.Proofs.Eval.Serves
import CellScript.Proofs.Memory.Mirrors

/-!
# References reach the cells of their symbols

In a machine that agrees with analysis, an address that leads from a scope to a symbol leads from
every space of that scope to a cell of that symbol, and captured symbols were captured from such
cells.

* `Memory.Attached.path` — what is laid out once is reached from the units
* `Eval.resolve_eq`, `Machine.Good.captured` — an address leads to its symbol
* `Eval.reference_safe`, `Eval.capture_safe` — references are evaluated, and captured, safely
* `Eval.reference_yields` — a reference gives what the cell of its symbol has
-/

namespace CellScript

open Code (CapturePlan CellRef)

variable {a : Analysis} {K : FunctionId → Ty → Prop} {m : Memory} {M : Machine} {σ τ : ScopeId}
  {space : SpaceId} {t : SymbolId}

/-- A scope of any other kind is not the global one. -/
theorem Analysis.Rooted.ne_global (rooted : a.Rooted) (h : (a.arena.scope σ).kind ≠ .global) :
    σ ≠ Analysis.globalScope := by
  rintro rfl
  exact h rooted.global

theorem Analysis.Rooted.ne_global_of_hosts (rooted : a.Rooted)
    (h : (a.arena.scope σ).kind.hosts = true) : σ ≠ Analysis.globalScope := by
  refine rooted.ne_global fun kind => ?_
  rw [kind] at h
  cases h

/-! ## Walking outwards -/

/-- From a space of a scope, a scope that is near is reached in as many steps. -/
theorem MemoryOk.outward? (h : MemoryOk a K m) (rooted : a.Rooted) {d : Nat}
    (near : a.arena.Near σ τ d) (known : space < m.spaces.size)
    (scope : (m.space space).template.scope = σ) (ne : σ ≠ Analysis.globalScope) :
    ∃ outer, m.outward? d space = some outer ∧ outer < m.spaces.size ∧
      (m.space outer).template.scope = τ ∧ τ ≠ Analysis.globalScope := by
  induction near generalizing space with
  | here => exact ⟨space, rfl, known, scope, ne⟩
  | out block enclosing rest ih =>
    subst scope
    obtain ⟨outer, e, enclosing', inside, known', scope', -⟩ :=
      (h.placed space known ne).block _ block
    rw [enclosing] at enclosing'
    cases enclosing'
    have hosts := (rooted.ready.dynamic _ _ enclosing (by rw [block]; rfl)).2
    obtain ⟨far, found, rest⟩ := ih known' scope' (rooted.ne_global_of_hosts hosts)
    refine ⟨far, ?_, rest⟩
    rw [Memory.outward?, inside]
    exact found

/-- The function around a scope has its closure in every space of the scope. -/
theorem MemoryOk.closes (h : MemoryOk a K m) (rooted : a.Rooted) {f : Option NodeId} {n : NodeId}
    (inFunction : a.arena.InFunction σ f) (some : f = some n) (known : space < m.spaces.size)
    (scope : (m.space space).template.scope = σ) (ne : σ ≠ Analysis.globalScope) :
    ∃ id, (m.space space).closure = .some id ∧ m.Closes (a.closedOver n) id := by
  induction inFunction generalizing space with
  | members kind => cases some
  | function kind =>
    cases some
    subst scope
    exact (h.placed space known ne).function n kind
  | block kind enclosing rest ih =>
    subst scope
    obtain ⟨outer, e, enclosing', inside, known', scope', closure⟩ :=
      (h.placed space known ne).block _ kind
    rw [enclosing] at enclosing'
    cases enclosing'
    have hosts := (rooted.ready.dynamic _ _ enclosing (by rw [kind]; rfl)).2
    rw [closure]
    exact ih some known' scope' (rooted.ne_global_of_hosts hosts)

/-- What was captured for a symbol was captured from one of its cells. -/
theorem Memory.Closes.captured {symbols : List SymbolId} {id : ClosureId} {i : Nat}
    (h : m.Closes symbols id) (found : symbols[i]? = some t) :
    ∃ c, (m.closure id)[i]? = some c ∧ m.HasCell c.origin ∧ (m.cell c.origin).shape.symbol = t := by
  have length := h.origins.length_eq
  rw [List.length_map] at length
  have lt : i < (m.closure id).length := by
    rw [length]
    exact (List.getElem?_eq_some_iff.mp found).1
  obtain ⟨-, related⟩ := List.forall₂_iff_get.mp h.origins
  have both := related i (by rw [List.length_map]; exact lt) (length ▸ lt)
  refine ⟨(m.closure id)[i], List.getElem?_eq_getElem lt, ?_⟩
  have symbol : symbols.get ⟨i, length ▸ lt⟩ = t := by
    rw [List.getElem?_eq_getElem (length ▸ lt)] at found
    exact Option.some.inj found
  rw [symbol] at both
  simpa using both

/-- A reference to a captured symbol finds what was captured for it. -/
theorem Machine.Good.captured (good : M.Good a K) (rooted : a.Rooted) (fits : M.Fits space (some σ))
    {index : Nat} (h : a.CapturedAt σ index t) : ∃ id c, (M.memory.space space).closure = some id ∧
      (M.memory.closure id)[index]? = some c ∧ M.memory.HasCell c.origin ∧
      (M.memory.cell c.origin).shape.symbol = t := by
  obtain ⟨f, inFunction, found⟩ := h
  obtain ⟨-, known, scope, ne, -⟩ := fits
  obtain ⟨id, closure, closes⟩ := good.memory.closes rooted inFunction rfl known scope ne
  obtain ⟨c, entry, has, symbol⟩ := closes.captured found
  exact ⟨id, c, closure, entry, has, symbol⟩

/-! ## Walking down from the units -/

/-- The cell of a symbol lies in a space of the scope of the symbol. -/
theorem MemoryOk.scope_of_symbol (ok : MemoryOk a K m) (rooted : a.Rooted) {id : CellId}
    (has : m.HasCell id) (symbol : (m.cell id).shape.symbol = t) :
    (m.space id.space).template.scope = (a.arena.symbol t).scope := by
  have symbols := (ok.laid _ has.1 (ok.scope_ne has)).symbols id.slot
  rw [has.getElem?, Option.map_some, symbol] at symbols
  exact (rooted.ready.slot _ _ t symbols.symm).2.1.symm

/-- What stands outside all functions and blocks is alive. -/
theorem MemoryOk.alive_of_static (ok : MemoryOk a K m) (rooted : a.Rooted) {id : CellId}
    (has : m.HasCell id)
    (static : (a.arena.scope (a.arena.symbol (m.cell id).shape.symbol).scope).kind.isDynamic =
      false) :
    id.space ∈ m.held :=
  ok.lasting _ ⟨has.1, ok.scope_ne has, by rw [ok.scope_of_symbol rooted has rfl]; exact static⟩

/-- What lies among the members of something is laid out once. -/
theorem Memory.Attached.lasting {units space : SpaceId} (h : m.Attached K units)
    (ok : MemoryOk a K m) (rooted : a.Rooted) {id : CellId}
    (members : (m.cell id).members = some space) : m.Lasting a space := by
  have has : m.HasCell id := Classical.byContradiction fun none => by
    rw [Memory.cell_eq_default none] at members
    cases members
  have cell := ok.cell has
  cases hm : (m.cell id).shape.members with
  | none =>
    rw [cell.bare hm] at members
    cases members
  | some σ =>
    obtain ⟨inner, there, known, scope⟩ := h.members id σ has hm
    rw [members] at there
    cases there
    have kind := rooted.ready.members _ σ (cell.shape.members ▸ hm)
    refine ⟨known, ?_, by rw [scope, kind]; rfl⟩
    rw [scope]
    refine rooted.ne_global ?_
    rw [kind]
    exact fun kind => by cases kind

/-- Memory that agrees with analysis mirrors the arena. -/
theorem Memory.Attached.mirrors {units : SpaceId} (h : m.Attached K units) (ok : MemoryOk a K m)
    (rooted : a.Rooted) : m.Mirrors a (m.Lasting a) units := by
  have ne : Analysis.unitsScope ≠ Analysis.globalScope := by decide
  refine ⟨fun _ hs => hs.known,
    ⟨h.space, by rw [h.scope]; exact ne, by rw [h.scope, (rooted.ready.units _).mpr rfl]; rfl⟩,
      h.scope, fun hs ht => ?_⟩
  obtain ⟨has, symbol⟩ := ok.hasCell hs.known rfl hs.scope ht
  refine ⟨has, symbol, fun σ hσ => ?_⟩
  have shape := (ok.cell has).shape.members
  rw [symbol, hσ] at shape
  obtain ⟨inner, there, -, scope⟩ := h.members _ σ has shape
  exact ⟨inner, there, h.lasting ok rooted there, scope⟩

/-- A symbol that is laid out once has a cell at the end of its path, in a space that stays. -/
theorem Memory.Attached.path {units : SpaceId} (h : m.Attached K units) (ok : MemoryOk a K m)
    (rooted : a.Rooted) {path : List Nat} (known : t < a.arena.symbols.size)
    (leads : a.arena.SlotPath t path) :
    ∃ id, m.Path units path id ∧ (m.cell id).shape.symbol = t ∧ m.HasCell id ∧
      id.space ∈ m.held := by
  obtain ⟨id, path, lasts, -, symbol, has, -⟩ := (h.mirrors ok rooted).path rooted.ready known leads
  exact ⟨id, path, symbol, has, ok.lasting _ lasts⟩

namespace Eval

theorem walk_of_path {name : String} {path : List Nat} {id : CellId}
    (h : M.memory.Path space path id) : walk name space path M = .ok id M := by
  have cellIn : ∀ {space : SpaceId} {slot : Nat}, M.memory.HasCell ⟨space, slot⟩ →
      M.memory.cellIn space slot = .ok ⟨space, slot⟩ := by
    intro space slot has
    rw [Memory.cellIn_eq_ok_iff]
    exact ⟨has.2, rfl⟩
  induction h with
  | last has => exact ask_of_ok (cellIn has)
  | @step space inner slot next rest id has members _ ih =>
    have first : (ask fun m => m.cellIn space slot) M = .ok ⟨space, slot⟩ M :=
      ask_of_ok (cellIn has)
    rw [walk, bind_of_ok first, bind_of_ok (rfl : Eval.memory M = .ok M.memory M)]
    · simp only [members]
      exact ih
    · exact fun h => by cases h

/-- **The cell that a reference resolves to is one of its symbol, in a space that is alive.** -/
theorem resolve_eq (good : M.Good a K) (rooted : a.Rooted) (fits : M.Fits space (some σ))
    {ref : CellRef} (leads : ref.Leads a σ t) (direct : ∀ index, ref.address ≠ .closure index) :
    ∃ id, resolve space ref M = .ok id M ∧ M.memory.HasCell id ∧
      (M.memory.cell id).shape.symbol = t ∧ id.space ∈ M.memory.held := by
  obtain ⟨attached, known, scope, ne, alive⟩ := fits
  have ok := good.memory
  have slot := rooted.ready.placed t leads.known
  have address := leads.address
  -- A slot some steps outwards.
  have outwards : ∀ d, a.arena.Near σ (a.arena.symbol t).scope d →
      ∃ id, (do
        let outer ← ask (·.ancestor d space)
        ask (·.cellIn outer (a.arena.symbol t).slot) : Eval CellId) M = .ok id M ∧
        M.memory.HasCell id ∧ (M.memory.cell id).shape.symbol = t ∧ id.space ∈ M.memory.held := by
    intro d near
    obtain ⟨outer, found, knownOuter, scopeOuter, neOuter⟩ := ok.outward? rooted near known scope ne
    -- No space that is alive lies in one that is not.
    obtain ⟨reached, alive⟩ :=
      Memory.ancestor?_of_outward? (fun id alive => (ok.held id alive).2) alive found
    have first : (ask fun m => m.ancestor d space) M = .ok outer M :=
      ask_of_ok (by rw [Memory.ancestor, reached])
    obtain ⟨has, symbol⟩ := ok.hasCell knownOuter scopeOuter neOuter slot
    refine ⟨_, ?_, has, symbol, alive⟩
    rw [bind_of_ok first]
    exact ask_of_ok (ok.cellIn knownOuter scopeOuter neOuter slot)
  unfold resolve
  cases ha : ref.address with
  | closure index => exact absurd ha (direct index)
  | own slot' =>
    rw [ha] at address
    obtain ⟨home, rfl⟩ := address
    rw [home] at slot
    obtain ⟨has, symbol⟩ := ok.hasCell known scope ne slot
    exact ⟨_, ask_of_ok (ok.cellIn known scope ne slot), has, symbol, alive⟩
  | parent slot' =>
    rw [ha] at address
    obtain ⟨near, rfl⟩ := address
    exact outwards 1 near
  | frame depth slot' =>
    rw [ha] at address
    obtain ⟨near, rfl⟩ := address
    exact outwards depth near
  | absolute path =>
    rw [ha] at address
    obtain ⟨units, hu⟩ := Option.isSome_iff_exists.mp attached
    obtain ⟨id, path, symbol, has, alive⟩ :=
      (good.attached units hu).path ok rooted leads.known address
    refine ⟨id, ?_, has, symbol, alive⟩
    have first : Eval.units M = .ok units M := by
      rw [Eval.units, bind_of_ok (rfl : Eval.context M = .ok M.context M), hu]
      rfl
    simp only [absolute, leads.site]
    rw [bind_of_ok first]
    exact walk_of_path path

end Eval

/-! ## Values -/

/-- The value of a cell is of the type of its symbol. -/
theorem MemoryOk.holds (ok : MemoryOk a K m) {id : CellId} {v : Value}
    (symbol : (m.cell id).shape.symbol = t) (value : (m.cell id).value = some v) :
    (a.arena.symbol t).ty.Holds v := by
  have cell := ok.cell (Memory.hasCell_of_value value)
  have typed := cell.value v value
  rw [cell.shape.ty, symbol] at typed
  exact typed

/-- A symbol is captured from one of its cells, and with the value of that cell. -/
structure Captured.Ok (m : Memory) (t : SymbolId) (c : Captured) : Prop where
  cell : m.HasCell c.origin
  symbol : (m.cell c.origin).shape.symbol = t
  filled : c ≠ .empty
  value : ∀ v origin, c = .value v origin → (m.cell origin).value = some v
  pending : ∀ cell, c = .pending cell → (m.cell cell).Withheld

theorem Captured.Ok.later {c : Captured} {m' : Memory} (h : c.Ok m t) (g : m.Grows m')
    (idle : ∀ id, (m'.cell id).evaluating = (m.cell id).evaluating) : c.Ok m' t where
  cell := h.cell.grows g
  symbol := by
    rw [(g.cell _ h.cell.1).shape]
    exact h.symbol
  filled := h.filled
  value v origin hc := by
    have value := h.value v origin hc
    exact (g.cell origin (Memory.hasCell_of_value value).1).value v value
  pending cell hc := (h.pending cell hc).later g (idle cell)

/-- What is pending after a captured symbol was settled was pending before, and is another one. -/
theorem Memory.pending_fill {id other : ClosureId} {index i : Nat} {v : Value} {cell : CellId}
    (found : ((m.fill id index v).closure other)[i]? = some (.pending cell)) :
    (m.closure other)[i]? = some (.pending cell) ∧ ¬(other = id ∧ i = index) := by
  refine ⟨?_, ?_⟩
  · rcases Memory.getElem?_closure_fill found with same | ⟨-, -, c, -, became⟩
    · exact same
    · cases c <;> cases became
  · rintro ⟨rfl, rfl⟩
    rw [Memory.closure_fill, if_pos rfl, List.getElem?_modify] at found
    simp only [if_true, Option.map_eq_map, Option.map_eq_some_iff] at found
    obtain ⟨c, -, became⟩ := found
    cases c <;> cases became

theorem Memory.captured_eq {id : ClosureId} {index : Nat} {c : Captured}
    (h : (m.closure id)[index]? = some c) : m.captured id index = .ok c := by
  rw [Memory.captured, h]

namespace Eval

variable {s s' : Supply}

/-- What waits for a cell is filled with the value of that cell. -/
theorem fill_safe {id : ClosureId} {index : Nat} {v : Value} {cell : CellId} (good : M.Good a K)
    (origin : ((M.memory.closure id)[index]?).map Captured.origin = some cell)
    (value : (M.memory.cell cell).value = some v) :
    Machine.Passes a K M { M with memory := M.memory.fill id index v } := by
  refine good.stepSame (Memory.grows_fill _ id index v) (good.memory.fill fun other pending => ?_)
    rfl (fun _ => rfl) (fun _ _ _ found => (Memory.pending_fill found).1) rfl
  rw [pending] at origin
  cases origin
  exact value

theorem closure_lt {id : ClosureId} {index : Nat} {c : Captured}
    (h : (m.closure id)[index]? = some c) : id < m.closures.size := by
  refine Classical.byContradiction fun out => ?_
  rw [Memory.closure, Array.getD_eq_getD_getElem?,
    Array.getElem?_eq_none (Nat.le_of_not_lt out)] at h
  cases h

/-- The value of a captured symbol is of the type of the symbol. -/
theorem captured_safe (serves : s.Serves a K s') (good : M.Good a K)
    (attached : M.context.units.isSome = true) {id : ClosureId} {index : Nat} {c : Captured}
    (found : (M.memory.closure id)[index]? = some c) (has : M.memory.HasCell c.origin)
    (symbol : (M.memory.cell c.origin).shape.symbol = t) :
    Safe a K (captured s id index) (captured s' id index) M
      fun v _ => (a.arena.symbol t).ty.Holds v := by
  refine Safe.found (ask_of_ok (Memory.captured_eq found)) ?_
  cases c with
  | empty => exact absurd found (good.memory.filled id index)
  | value v origin =>
    exact .pure good (good.memory.holds symbol (good.memory.captured id index v origin found))
  | pending cell =>
    have answers : M.memory.Answers cell := ⟨has, .inr (good.waits id index cell found)⟩
    refine (serves.force M cell good attached answers).bind fun v M₁ good₁ grows₁ value => ?_
    have entry : ((M₁.memory.closure id)[index]?).map Captured.origin = some cell := by
      rw [← List.getElem?_map, grows₁.memory.origins id (closure_lt found),
        List.getElem?_map, found]
      rfl
    refine Safe.modified (fill_safe good₁ entry value) fun good₂ => ?_
    have symbol₂ : (M₁.memory.cell cell).shape.symbol = t := by
      rw [(grows₁.memory.cell cell has.1).shape]
      exact symbol
    exact .pure good₂ (good₁.memory.holds symbol₂ value)

/-- **A reference is evaluated to a value of its type.** -/
theorem reference_safe (serves : s.Serves a K s') (good : M.Good a K) (rooted : a.Rooted)
    (fits : M.Fits space (some σ)) {ref : CellRef} (leads : ref.Leads a σ t) :
    Safe a K (reference s space ref) (reference s' space ref) M fun v _ => ref.ty.Holds v := by
  have attached := fits.1
  rw [leads.ty]
  cases ha : ref.address with
  | closure index =>
    have address := leads.address
    rw [ha] at address
    obtain ⟨id, c, closure, found, has, symbol⟩ := good.captured rooted fits address
    unfold reference
    simp only [ha]
    refine Safe.memory ?_
    rw [closure]
    exact captured_safe serves good attached found has symbol
  | own | parent | frame | absolute =>
    obtain ⟨id, found, has, symbol, alive⟩ := resolve_eq good rooted fits leads fun index h => by
      rw [ha] at h
      cases h
    unfold reference
    simp only [ha]
    refine Safe.found found ?_
    refine (serves.force M _ good attached ⟨has, .inl alive⟩).mono fun v M' good' grows' value => ?_
    refine good'.memory.holds ?_ value
    rw [(grows'.memory.cell _ has.1).shape]
    exact symbol

/-- A cell that is asked for gives the value that it has from then on, or tells why it has none. -/
def Obtains (M : Machine) (id : CellId) : EStateM.Result Stop Machine Value → Prop
  | .ok v M' => (M'.memory.cell id).value = some v
  | .error (.raised e) M' => M.Denies id e M'
  | .error _ _ => True

theorem force_obtains (serves : s.Serves a K s') (good : M.Good a K)
    (attached : M.context.units.isSome = true) {id : CellId} (answers : M.memory.Answers id) :
    Obtains M id (s' (.force id) M) := by
  have outcome := (serves.force M id good attached answers).2
  cases forced : s' (.force id) M with
  | ok v M' =>
    rw [forced] at outcome
    exact outcome.2
  | error stop M' =>
    cases stop with
    | raised e => exact serves.denies M id good attached answers e M' forced
    | exhausted => trivial
    | refused => trivial

/-- **A slot of a closure gives the value of the cell it was captured from**, and holds it then. -/
theorem captured_obtains (serves : s.Serves a K s') (good : M.Good a K)
    (attached : M.context.units.isSome = true) {id : ClosureId} {index : Nat} {c : Captured}
    (found : (M.memory.closure id)[index]? = some c) (has : M.memory.HasCell c.origin) :
    Obtains M c.origin (captured s' id index M) ∧
      ∀ v M', captured s' id index M = .ok v M' → M'.memory.captured id index =
        .ok (.value v c.origin) := by
  have looked : ask (·.captured id index) M = .ok c M := ask_of_ok (Memory.captured_eq found)
  rw [captured, bind_of_ok looked]
  cases c with
  | empty => exact absurd found (good.memory.filled id index)
  | value v origin =>
    refine ⟨good.memory.captured id index v origin found, fun w M' same => ?_⟩
    cases same
    exact Memory.captured_eq found
  | pending cell =>
    have answers : M.memory.Answers cell := ⟨has, .inr (good.waits id index cell found)⟩
    have outcome := (serves.force M cell good attached answers).2
    have obtains := force_obtains serves good attached answers
    simp only
    cases forced : s' (.force cell) M with
    | error stop M' =>
      rw [forced] at obtains
      rw [bind_of_error forced]
      exact ⟨obtains, fun v M' same => by cases same⟩
    | ok v M₁ =>
      rw [forced] at obtains outcome
      obtain ⟨passes, -⟩ := outcome
      rw [bind_of_ok forced]
      refine ⟨obtains, fun w M' same => ?_⟩
      cases same
      -- By now the slot may have been settled, but then with the value of its cell.
      have origin := congrArg (·[index]?) (passes.grows.memory.origins id (closure_lt found))
      simp only [List.getElem?_map, found, Option.map_some, Option.map_eq_some_iff] at origin
      obtain ⟨now, entry, origin⟩ := origin
      refine Memory.captured_eq ?_
      rw [Memory.closure_fill, if_pos rfl, List.getElem?_modify, entry]
      simp only [if_true, Option.map_eq_map, Option.map_some]
      cases now with
      | empty => exact absurd entry (passes.good.memory.filled id index)
      | pending other =>
        cases origin
        rfl
      | value w other =>
        have value := passes.good.memory.captured id index w other entry
        cases origin
        rw [obtains] at value
        cases value
        rfl

/-- **A reference gives what the cell of its symbol has.** -/
theorem reference_yields (serves : s.Serves a K s') (good : M.Good a K) (rooted : a.Rooted)
    (fits : M.Fits space (some σ)) {ref : CellRef} (leads : ref.Leads a σ t) (span : Span) :
    ∃ id, ref.Denotes space M t id ∧
      ref.Yields space span id M (located span (reference s' space ref) M) := by
  have attached := fits.1
  -- A region changes nothing but exceptions.
  have yields : ∀ {id : CellId}, Obtains M id (reference s' space ref M) →
      (∀ v M', reference s' space ref M = .ok v M' → ∀ index closure, ref.address = .closure index →
        (M.memory.space space).closure = some closure → M'.memory.captured closure index =
          .ok (.value v id)) →
      ref.Yields space span id M (located span (reference s' space ref) M) := by
    intro id obtains slot
    cases ran : reference s' space ref M with
    | ok v M' =>
      rw [ran] at obtains
      rw [located_of_ok ran]
      exact ⟨obtains, slot v M' ran⟩
    | error stop M' =>
      rw [ran] at obtains
      cases stop with
      | raised e =>
        rw [located_of_raised ran]
        exact ⟨e, rfl, obtains⟩
      | exhausted =>
        rw [located_of_exhausted ran]
        trivial
      | refused =>
        rw [located_of_refused ran]
        trivial
  cases ha : ref.address with
  | closure index =>
    have address := leads.address
    rw [ha] at address
    obtain ⟨id, c, closure, found, has, symbol⟩ := good.captured rooted fits address
    have reads : reference s' space ref M = captured s' id index M := by
      rw [reference, ha]
      simp only
      rw [bind_of_ok (rfl : memory M = .ok M.memory M), closure]
    obtain ⟨obtains, slot⟩ := captured_obtains serves good attached found has
    refine ⟨c.origin, ⟨has, symbol, ?_⟩,
      yields (reads ▸ obtains) fun v M' ran other closure' same there => ?_⟩
    · rw [ha]
      refine ⟨id, c, closure, Memory.captured_eq found, fun empty => ?_, rfl,
        fun v origin value => ?_⟩
      · exact good.memory.filled id index (empty ▸ found)
      · subst value
        exact good.memory.captured id index v origin found
    · rw [ha] at same
      cases same
      rw [closure] at there
      cases there
      exact slot v M' (reads ▸ ran)
  | own | parent | frame | absolute =>
    obtain ⟨id, found, has, symbol, alive⟩ := resolve_eq good rooted fits leads fun index h => by
      rw [ha] at h
      cases h
    have reads : reference s' space ref M = s' (.force id) M := by
      rw [reference, ha]
      exact bind_of_ok found _
    refine ⟨id, ⟨has, symbol, by rw [ha]; exact ⟨found, alive⟩⟩,
      yields (reads ▸ force_obtains serves good attached ⟨has, .inl alive⟩)
        fun v M' _ index closure same => ?_⟩
    rw [ha] at same
    cases same

/-- **A symbol is captured from one of its cells.** -/
theorem capture_safe (serves : s.Serves a K s') (good : M.Good a K) (rooted : a.Rooted)
    {σ : Option ScopeId} (fits : M.Fits space σ) {plan : CapturePlan} (ok : plan.Ok a σ t) :
    Safe a K (capture s space plan) (capture s' space plan) M fun c M' => c.Ok M'.memory t := by
  obtain ⟨creation, rfl, ok⟩ := ok
  have attached := fits.1
  cases plan with
  | propagate index =>
    obtain ⟨id, c, closure, found, has, symbol⟩ := good.captured rooted fits ok
    unfold capture
    refine Safe.memory ?_
    rw [closure]
    refine Safe.found (ask_of_ok (Memory.captured_eq found)) ?_
    refine .pure good ?_
    cases c with
    | empty => exact absurd found (good.memory.filled id index)
    | value v origin =>
      refine ⟨has, symbol, fun h => (by cases h), fun w o hw => ?_, fun cell hc => (by cases hc)⟩
      cases hw
      exact good.memory.captured id index v origin found
    | pending cell =>
      simp only [Memory.settled]
      cases hv : (M.memory.cell cell).value with
      | none =>
        refine ⟨has, symbol, fun h => (by cases h), fun w o hw => (by cases hw), fun other hc => ?_⟩
        cases hc
        exact good.waits id index cell found
      | some v =>
        refine ⟨has, symbol, fun h => (by cases h), fun w o hw => ?_, fun other hc => (by cases hc)⟩
        cases hw
        exact hv
  | cell ref =>
    obtain ⟨id, found, has, symbol, alive⟩ := resolve_eq good rooted fits ok.1 ok.2
    unfold capture
    refine Safe.found found ?_
    refine Safe.memory ?_
    cases hv : (M.memory.cell id).value with
    | some v =>
      simp only [hv]
      refine .pure good ⟨has, symbol, fun h => (by cases h), fun w o hw => ?_, fun cell hc =>
        (by cases hc)⟩
      cases hw
      exact hv
    | none =>
      simp only [hv]
      split
      · next busy =>
        refine .pure good ⟨has, symbol, fun h => (by cases h), fun w o hw => (by cases hw),
          fun cell hc => ?_⟩
        cases hc
        exact .inl busy
      · refine (serves.force M id good attached ⟨has, .inl alive⟩).bind
          fun v M' good' grows' value => ?_
        refine .pure good' ⟨has.grows grows'.memory, ?_, fun h => (by cases h), fun w o hw => ?_,
          fun cell hc => (by cases hc)⟩
        · show (M'.memory.cell id).shape.symbol = t
          rw [(grows'.memory.cell id has.1).shape]
          exact symbol
        · cases hw
          exact value

/-- All symbols that a function captures are captured. -/
theorem captureAll_safe (serves : s.Serves a K s') (rooted : a.Rooted) {σ : Option ScopeId}
    {plans : List CapturePlan} {symbols : List SymbolId}
    (ok : List.Forall₂ (CapturePlan.Ok a σ) plans symbols) {M : Machine} (good : M.Good a K)
    (fits : M.Fits space σ) :
    Safe a K (plans.mapM (capture s space)) (plans.mapM (capture s' space)) M
      fun captured M' => List.Forall₂ (fun t c => Captured.Ok M'.memory t c) symbols captured := by
  induction ok generalizing M with
  | nil =>
    rw [List.mapM_nil, List.mapM_nil]
    exact .pure good .nil
  | cons first _ ih =>
    rw [List.mapM_cons, List.mapM_cons]
    refine (capture_safe serves good rooted fits first).bind fun c M₁ good₁ grows₁ captured => ?_
    refine (ih good₁ (fits.grows grows₁)).bindPasses fun cs M₂ passes all => ?_
    exact .pure passes.good (.cons (captured.later passes.grows.memory passes.rests.evaluating) all)

/-- The captured symbols that are pending wait for their cells. -/
theorem mem_pendings {closure : ClosureId} {captured : List Captured} {d : Deferral} :
    d ∈ pendings closure captured ↔
      d.closure = closure ∧ captured[d.index]? = some (.pending d.cell) := by
  simp only [pendings, List.mem_filterMap, Prod.exists, List.mem_zipIdx_iff_getElem?]
  constructor
  · rintro ⟨c, i, entry, hc⟩
    cases c with
    | empty => cases hc
    | value v origin => cases hc
    | pending cell =>
      cases hc
      exact ⟨rfl, entry⟩
  · rintro ⟨rfl, entry⟩
    exact ⟨_, _, entry, rfl⟩

/-- A new closure, and everything that waits for a cell. -/
theorem newClosure_eq (captured : List Captured) (M : Machine) :
    newClosure captured M = .ok M.memory.closures.size
      { memory := (M.memory.newClosure captured).2
        context := { M.context with
          deferred := M.context.deferred ++ pendings M.memory.closures.size captured } } := by
  have defers : ∀ (ds : List Deferral) (M : Machine),
      (ds.forM fun d => modifyContext (·.defer d)) M =
        .ok ⟨⟩ { M with context := { M.context with deferred := M.context.deferred ++ ds } } := by
    intro ds
    induction ds with
    | nil => intro M; rw [List.append_nil]; rfl
    | cons d rest ih =>
      intro M
      refine (ih { M with context := M.context.defer d }).trans ?_
      rw [Context.defer, List.append_assoc, List.singleton_append]
  unfold newClosure
  rw [bind_of_ok (rfl : create (·.newClosure captured) M = .ok M.memory.closures.size
    { M with memory := (M.memory.newClosure captured).2 }), bind_of_ok (defers _ _)]
  rfl

/-- A new closure of what was captured. -/
theorem newClosure_safe (good : M.Good a K) {captured : List Captured} {symbols : List SymbolId}
    (ok : List.Forall₂ (fun t c => Captured.Ok M.memory t c) symbols captured) :
    Safe a K (newClosure captured) (newClosure captured) M
      fun id M' => M'.memory.Closes symbols id := by
  have each : ∀ (i : Nat) c, captured[i]? = some c → ∃ t, Captured.Ok M.memory t c := by
    intro i c found
    obtain ⟨lt, he⟩ := List.getElem?_eq_some_iff.mp found
    obtain ⟨length, related⟩ := List.forall₂_iff_get.mp ok
    exact ⟨_, (show captured.get ⟨i, lt⟩ = c from he) ▸ related i (length ▸ lt) lt⟩
  have closes : Memory.Closes (M.memory.newClosure captured).2 symbols M.memory.closures.size := by
    refine ⟨?_, ?_⟩
    · show _ < (M.memory.closures.push captured).size
      rw [Array.size_push]
      exact Nat.lt_succ_self _
    · rw [Memory.closure_newClosure, if_pos rfl, List.forall₂_map_left_iff]
      exact ok.flip.imp fun c t h => ⟨h.cell, h.symbol⟩
  have g := Memory.grows_newClosure M.memory captured
  have agrees := good.later g (good.memory.newClosure (fun i v origin found =>
    (each i _ found).choose_spec.value v origin rfl)
    fun i found => (each i _ found).choose_spec.filled rfl) (Memory.fresh_of_same rfl)
  refine ⟨rfl, ?_⟩
  rw [newClosure_eq]
  refine ⟨⟨⟨⟨agrees.memory, fun d hd => ?_, agrees.attached⟩, fun id i cell found =>
    ?_, fun d hd => ?_⟩,
    ⟨g, rfl, Memory.fresh_of_same rfl, fun cell ⟨sound, id, i, found, absent⟩ =>
      ?_, fun _ _ alive => alive⟩,
    rfl, fun _ => rfl, rfl⟩, closes⟩
  · rcases List.mem_append.mp hd with hd | hd
    · exact agrees.deferred d hd
    · obtain ⟨here, entry⟩ := mem_pendings.mp hd
      refine ⟨.pending d.cell, ?_, rfl⟩
      rw [here, Memory.closure_newClosure, if_pos rfl]
      exact entry
  · rw [Memory.closure_newClosure] at found
    split at found
    · exact (each i _ found).choose_spec.pending cell rfl
    · exact good.waits id i cell found
  · rcases List.mem_append.mp hd with hd | hd
    · exact good.held d hd
    · exact (each d.index _ (mem_pendings.mp hd).2).choose_spec.pending d.cell rfl
  · -- What is pending in the new closure has just been deferred.
    rw [Memory.closure_newClosure] at found
    split at found
    · next new =>
      exact absurd (List.mem_append_right _ (mem_pendings.mpr ⟨new, found⟩)) absent
    · exact ⟨sound, id, i, found, fun mem => absent (List.mem_append_left _ mem)⟩

end Eval

end CellScript
