import CellScript.Proofs.Code.Below
import CellScript.Proofs.Memory.Budget
import CellScript.Proofs.Memory.Good

/-!
# Cells that are bound before they are looked at

A cell that nothing computes has to be bound before anybody looks at it. What stands in a space
looks at the first cells of the spaces around it, how many is known for each of them; these are the
cells that must be bound by then, if nothing computes them. A cell that is computed on the way looks
at others in turn, and they must be bound as well.

* `Cell.Provided` — a cell is bound, or computed when it is asked for
* `Memory.Equips` — whatever is looked at from a space is provided
* `Memory.Askable` — a cell may be asked for
* `Memory.Equips.askable` — whatever is looked at may be asked for
* `Memory.Neat` — definitions are computed, and so is whatever is under way
* `Memory.Abstains` — the cells of some spaces are not bound
-/

namespace CellScript

open Code (Op)

variable {a : Analysis} {m m' m'' : Memory} {space inner outer : SpaceId} {n : Nat}

/-- The cell has been bound, unless it is computed when it is asked for. -/
def Cell.Provided (c : Cell) : Prop := c.shape.init = none → c.value.isSome = true

theorem Cell.Provided.later {c c' : Cell} (h : c.Provided) (later : c.Later c') : c'.Provided := by
  intro bare
  rw [later.shape] at bare
  obtain ⟨v, value⟩ := Option.isSome_iff_exists.mp (h bare)
  rw [later.value v value]
  rfl

namespace Memory

theorem Grows.hasCell (g : m.Grows m') {id : CellId} (known : id.space < m.spaces.size)
    (has : m'.HasCell id) : m.HasCell id :=
  ⟨known, by rw [← (g.space _ known).size]; exact has.2⟩

/-! ## What is looked at -/

/-- The first cells of the space are provided. -/
def Provides (m : Memory) (space : SpaceId) (count : Nat) : Prop :=
  ∀ slot < count, m.HasCell ⟨space, slot⟩ → (m.cell ⟨space, slot⟩).Provided

/-- All cells of the space are provided. -/
def Full (m : Memory) (space : SpaceId) : Prop :=
  ∀ slot, m.HasCell ⟨space, slot⟩ → (m.cell ⟨space, slot⟩).Provided

/-- As many cells of the space are provided as are looked at. -/
def Shows (m : Memory) (space : SpaceId) (below : Nat → Prop) : Prop :=
  m.Full space ∨ ∃ count, below count ∧ m.Provides space count

/-- The space is laid out anew for each evaluation of its scope. -/
def Anew (m : Memory) (a : Analysis) (space : SpaceId) : Prop :=
  (a.arena.scope (m.space space).template.scope).kind.isDynamic = true

/-- In all spaces around a space, itself included, as many cells are provided as are looked at
there. -/
def Sights (m : Memory) (a : Analysis) (space : SpaceId) (below : Nat → Nat → Prop) : Prop :=
  ∀ depth outer, m.outward? depth space = some outer → m.Anew a outer →
    m.Shows outer (below · depth)

/-- What computes a cell looks at the cells before it, at the cell itself and at what is provided
around it. -/
structure Computes (m : Memory) (a : Analysis) (id : CellId) (init : Op) : Prop where
  own : m.Full id.space ∨ init.Awaits (id.slot + 1)
  around : ∀ e, (m.space id.space).enclosing = some e →
    m.Sights a e fun count depth => init.Below count (depth + 1)

/-- Whatever is looked at from the space, directly or on the way, is provided. -/
structure Equips (m : Memory) (a : Analysis) (space : SpaceId)
    (below : Nat → Nat → Prop) : Prop where
  known : space < m.spaces.size
  sights : m.Sights a space below
  inits : ∀ depth outer slot init, m.outward? depth space = some outer → m.Anew a outer →
    m.HasCell ⟨outer, slot⟩ → (m.cell ⟨outer, slot⟩).shape.init = some init →
    m.Computes a ⟨outer, slot⟩ init

/-- The cell may be asked for. If it has no value yet and can have one, what computes it finds what
it looks at. -/
def Askable (m : Memory) (a : Analysis) (id : CellId) : Prop :=
  (m.cell id).value = none → ¬(m.cell id).Withheld →
    ∃ init, (m.cell id).shape.init = some init ∧ m.Equips a id.space fun count depth =>
      init.Below count depth

/-! ## Later on -/

/-- Every space lies inside an older one. -/
def Nests (m : Memory) : Prop := ∀ id e, (m.space id).enclosing = some e → e < id

theorem Provides.grows {count : Nat} (h : m.Provides space count) (g : m.Grows m')
    (known : space < m.spaces.size) : m'.Provides space count :=
  fun slot lt has => (h slot lt (g.hasCell known has)).later (g.cell _ known)

theorem Full.grows (h : m.Full space) (g : m.Grows m') (known : space < m.spaces.size) :
    m'.Full space :=
  fun slot has => (h slot (g.hasCell known has)).later (g.cell _ known)

theorem Shows.grows {below : Nat → Prop} (h : m.Shows space below) (g : m.Grows m')
    (known : space < m.spaces.size) : m'.Shows space below :=
  h.imp (·.grows g known) fun ⟨count, looks, provides⟩ => ⟨count, looks, provides.grows g known⟩

theorem Shows.imp {below more : Nat → Prop} (h : m.Shows space below)
    (imp : ∀ count, below count → more count) : m.Shows space more :=
  Or.imp_right (fun ⟨count, looks, provides⟩ => ⟨count, imp count looks, provides⟩) h

theorem Anew.grows (h : m'.Anew a space) (g : m.Grows m') (known : space < m.spaces.size) :
    m.Anew a space := by
  rw [Anew, (g.space space known).template] at h
  exact h

theorem Sights.grows {below : Nat → Nat → Prop} (h : m.Sights a space below) (g : m.Grows m')
    (nests : m.Nests) (known : space < m.spaces.size) : m'.Sights a space below := by
  intro depth outer found anew
  rw [outward?_grows g nests depth known] at found
  have known' := Nat.lt_of_le_of_lt (outward?_le nests depth found) known
  exact (h depth outer found (anew.grows g known')).grows g known'

theorem Computes.grows {id : CellId} {init : Op} (h : m.Computes a id init) (g : m.Grows m')
    (nests : m.Nests) (known : id.space < m.spaces.size) : m'.Computes a id init := by
  refine ⟨h.own.imp_left (·.grows g known), fun e around => ?_⟩
  rw [(g.space _ known).enclosing] at around
  exact (h.around e around).grows g nests (Nat.lt_trans (nests _ e around) known)

/-- What is provided stays so. -/
theorem Equips.grows {below : Nat → Nat → Prop} (h : m.Equips a space below) (g : m.Grows m')
    (nests : m.Nests) : m'.Equips a space below := by
  refine ⟨Nat.lt_of_lt_of_le h.known g.spaces, h.sights.grows g nests h.known,
    fun depth outer slot init found anew has computed => ?_⟩
  rw [outward?_grows g nests depth h.known] at found
  have known := Nat.lt_of_le_of_lt (outward?_le nests depth found) h.known
  rw [(g.cell ⟨outer, slot⟩ known).shape] at computed
  exact (h.inits depth outer slot init found (anew.grows g known)
    (g.hasCell known has) computed).grows g
    nests known

/-- Whoever looks at less finds it. -/
theorem Equips.imp {below less : Nat → Nat → Prop} (h : m.Equips a space below)
    (imp : ∀ count depth, below count depth → less count depth) : m.Equips a space less :=
  ⟨h.known, fun depth outer found anew => (h.sights depth outer found anew).imp fun count =>
    imp count depth,
    h.inits⟩

/-! ## Asking -/

/-- **Whatever is looked at may be asked for.** -/
theorem Equips.askable {below : Nat → Nat → Prop} (h : m.Equips a space below) {depth : Nat}
    {id : CellId} (found : m.outward? depth space = some id.space) (anew : m.Anew a id.space)
    (has : m.HasCell id) (looks : ∀ count, below count depth → id.slot < count) :
    m.Askable a id := by
  intro empty _
  have shows := h.sights depth _ found anew
  cases computed : (m.cell id).shape.init with
  | none =>
    have bound : (m.cell id).value.isSome = true := by
      rcases shows with full | ⟨count, looked, provides⟩
      · exact full id.slot has computed
      · exact provides id.slot (looks count looked) has computed
    rw [empty] at bound
    cases bound
  | some init =>
    have computes := h.inits depth _ id.slot init found anew has computed
    refine ⟨init, rfl, has.1, fun depth' outer found' anew' =>
      ?_, fun depth' outer slot' init' found' => ?_⟩
    · cases depth' with
      | zero =>
        cases found'
        rcases shows with full | ⟨count, looked, provides⟩
        · exact .inl full
        · exact computes.own.imp_right fun awaits =>
            ⟨count, awaits count (looks count looked), provides⟩
      | succ depth' =>
        rw [outward?, Option.bind_eq_some_iff] at found'
        obtain ⟨e, around, found'⟩ := found'
        exact computes.around e around depth' outer found' anew'
    · exact h.inits (depth + depth') outer slot' init'
        (by rw [outward?_add depth depth' found, found'])

/-! ## New spaces -/

/-- A space inside another one finds what it looks at if its own cells are provided as far as they
are looked at, and the space around it is equipped for the rest. -/
theorem Equips.inside {below : Nat → Nat → Prop} (known : inner < m.spaces.size)
    (enclosing : (m.space inner).enclosing = some space)
    (around : m.Equips a space fun count depth => below count (depth + 1))
    (own : m.Shows inner (below · 0))
    (inits : ∀ slot init, m.HasCell ⟨inner, slot⟩ → (m.cell ⟨inner, slot⟩).shape.init = some init →
      (m.Full inner ∨ init.Awaits (slot + 1)) ∧
        m.Equips a space fun count depth => init.Below count (depth + 1)) :
    m.Equips a inner below := by
  refine ⟨known, fun depth outer found anew =>
    ?_, fun depth outer slot init found anew has computed => ?_⟩
  · cases depth with
    | zero =>
      cases found
      exact own
    | succ depth =>
      rw [outward?, enclosing, Option.bind_some] at found
      exact around.sights depth outer found anew
  · cases depth with
    | zero =>
      cases found
      obtain ⟨first, rest⟩ := inits slot init has computed
      refine ⟨first, fun e he => ?_⟩
      rw [enclosing] at he
      cases he
      exact rest.sights
    | succ depth =>
      rw [outward?, enclosing, Option.bind_some] at found
      exact around.inits depth outer slot init found anew has computed

/-- A space with nothing around it finds what it looks at if its cells are provided. -/
theorem Equips.root {below : Nat → Nat → Prop} (known : inner < m.spaces.size)
    (enclosing : (m.space inner).enclosing = none) (full : m.Full inner) :
    m.Equips a inner below := by
  have alone : ∀ depth outer, m.outward? depth inner = some outer → outer = inner := by
    intro depth outer found
    cases depth with
    | zero =>
      cases found
      rfl
    | succ depth =>
      rw [outward?, enclosing] at found
      cases found
  refine ⟨known, fun depth outer found _ => ?_, fun depth outer slot init found _ _ _ => ?_⟩
  · rw [alone depth outer found]
    exact .inl full
  · rw [alone depth outer found]
    refine ⟨.inl full, fun e around => ?_⟩
    rw [enclosing] at around
    cases around

/-! ## Definitions -/

/-- What is laid out once has nothing to do with what is laid out anew: it lies in nothing of that
kind, and its variables are computed. Whatever is or was under way is computed. -/
structure Neat (m : Memory) (a : Analysis) : Prop where
  started : ∀ id, (m.cell id).Withheld → (m.cell id).shape.init.isSome = true
  furnished : ∀ id, m.HasCell id → ¬m.Anew a id.space →
    a.arena.IsVariable (m.cell id).shape.symbol → (m.cell id).shape.init.isSome = true
  grounded : ∀ space e, (m.space space).enclosing = some e → ¬m.Anew a space → ¬m.Anew a e

/-- Memories with the same spaces are neat alike. -/
theorem Neat.of_spaces (h : m.Neat a) (same : m'.spaces = m.spaces) : m'.Neat a := by
  have space : ∀ id, m'.space id = m.space id := fun id => by rw [Memory.space, Memory.space, same]
  have cell : ∀ id, m'.cell id = m.cell id := fun id => by rw [Memory.cell, Memory.cell, space]
  refine ⟨fun id => ?_, fun id has => ?_, fun id e => ?_⟩
  · rw [cell]
    exact h.started id
  · rw [cell, Anew, space]
    refine h.furnished id ⟨by rw [← same]; exact has.1, ?_⟩
    rw [← space]
    exact has.2
  · rw [Anew, Anew, space, space]
    exact h.grounded id e

theorem Neat.modifyCell (h : m.Neat a) {id : CellId} {f : Cell → Cell} (has : m.HasCell id)
    (shape : (f (m.cell id)).shape = (m.cell id).shape)
    (started : (f (m.cell id)).Withheld → (m.cell id).shape.init.isSome = true) :
    (m.modifyCell id f).Neat a := by
  have cell : ∀ other, ((m.modifyCell id f).cell other).shape = (m.cell other).shape := by
    intro other
    rw [cell_modifyCell has]
    split
    · next same => rw [shape, same]
    · rfl
  have later := space_modifyCell_later m id f
  refine ⟨fun other withheld => ?_, fun other has' => ?_, fun other e around => ?_⟩
  · rw [cell]
    rw [cell_modifyCell has] at withheld
    split at withheld
    · next same =>
      rw [same]
      exact started withheld
    · exact h.started other withheld
  · rw [cell, Anew, (later other.space).template]
    refine h.furnished other ⟨?_, ?_⟩
    · rw [← size_spaces_modifyCell m id f]
      exact has'.1
    · rw [← size_cells_modifyCell m id f]
      exact has'.2
  · rw [(later other).enclosing] at around
    rw [Anew, Anew, (later other).template, (later e).template]
    exact h.grounded other e around

theorem Neat.newSpace (h : m.Neat a) (nests : m.Nests) {s : Space}
    (idle : ∀ (i : Nat) (c : Cell), s.cells[i]? = some c → ¬c.Withheld)
    (plain : (a.arena.scope s.template.scope).kind.isDynamic = true ∨ s.cells = #[] ∧
      s.enclosing = none) :
    (m.newSpace s).2.Neat a := by
  have new : (m.newSpace s).2.space m.spaces.size = s := by rw [space_newSpace, if_pos rfl]
  have old : ∀ id, id ≠ m.spaces.size → (m.newSpace s).2.space id = m.space id := fun id ne => by
    rw [space_newSpace, if_neg ne]
  have cell : ∀ id : CellId, id.space ≠ m.spaces.size → (m.newSpace s).2.cell id = m.cell id :=
    fun id ne => by
    rw [Memory.cell, old _ ne, Memory.cell]
  refine ⟨fun id withheld => ?_, fun id has => ?_, fun id e around => ?_⟩
  · by_cases same : id.space = m.spaces.size
    · rw [cell_eq, same, new] at withheld
      cases hc : s.cells[id.slot]? with
      | none =>
        rw [hc] at withheld
        rcases withheld with busy | failed
        · cases busy
        · cases failed
      | some c =>
        rw [hc] at withheld
        exact absurd withheld (idle _ c hc)
    · rw [cell id same] at withheld ⊢
      exact h.started id withheld
  · by_cases same : id.space = m.spaces.size
    · rw [Anew, same, new]
      intro static
      rcases plain with anew | ⟨empty, -⟩
      · exact absurd anew static
      · have slot := has.2
        rw [same, new, empty] at slot
        exact absurd slot (Nat.not_lt_zero _)
    · rw [cell id same, Anew, old _ same]
      refine h.furnished id ⟨?_, ?_⟩
      · have lt := has.1
        rw [size_spaces_newSpace] at lt
        exact Nat.lt_of_le_of_ne (Nat.le_of_lt_succ lt) same
      · rw [← old _ same]
        exact has.2
  · by_cases same : id = m.spaces.size
    · subst same
      rw [new] at around
      rw [Anew, new]
      intro static
      rcases plain with anew | ⟨-, alone⟩
      · exact absurd anew static
      · rw [alone] at around
        cases around
    · rw [old _ same] at around
      rw [Anew, old _ same]
      intro static
      have lt : e ≠ m.spaces.size := by
        rintro rfl
        have lt := nests id _ around
        rw [space, Array.getD_eq_getD_getElem?, Array.getElem?_eq_none (Nat.le_of_lt lt)] at around
        cases around
      rw [Anew, old _ lt]
      exact h.grounded id e around static

/-- Whatever computes a definition finds what it looks at, since it looks at nothing near. -/
theorem Neat.equips (h : m.Neat a) (nests : m.Nests) (known : space < m.spaces.size)
    (static : ¬m.Anew a space) (below : Nat → Nat → Prop) : m.Equips a space below := by
  have plain : ∀ depth outer, m.outward? depth space = some outer → ¬m.Anew a outer := by
    intro depth
    induction depth generalizing space with
    | zero =>
      intro outer found
      cases found
      exact static
    | succ depth ih =>
      intro outer found
      rw [outward?, Option.bind_eq_some_iff] at found
      obtain ⟨e, around, found⟩ := found
      exact ih (Nat.lt_trans (nests space e around) known)
        (h.grounded space e around static) outer found
  exact ⟨known, fun depth outer found anew => absurd anew (plain depth outer found),
    fun depth outer _ _ found anew => absurd anew (plain depth outer found)⟩

/-- A definition may be asked for. -/
theorem Neat.askable (h : m.Neat a) (nests : m.Nests) {id : CellId} (has : m.HasCell id)
    (static : ¬m.Anew a id.space) (isVariable : a.arena.IsVariable (m.cell id).shape.symbol) :
    m.Askable a id := by
  intro _ _
  obtain ⟨init, computed⟩ := Option.isSome_iff_exists.mp (h.furnished id has static isVariable)
  exact ⟨init, computed, h.equips nests has.1 static _⟩

/-! ## Cells that stay unbound -/

/-- A cell of the first spaces that nothing computes is not bound in between. -/
def Abstains (m m' : Memory) (n : Nat) : Prop :=
  ∀ id : CellId, id.space < n → (m.cell id).shape.init = none → (m.cell id).value = none →
    (m'.cell id).value = none

theorem Abstains.of_spaces (same : m'.spaces = m.spaces) : m.Abstains m' n := by
  intro id _ _ empty
  rw [Memory.cell, Memory.space, same]
  exact empty

theorem Abstains.congr (h : m.Abstains m' n) (same : m''.spaces = m'.spaces) :
    m.Abstains m'' n := by
  intro id lt bare empty
  rw [Memory.cell, Memory.space, same]
  exact h id lt bare empty

theorem Abstains.trans (h : m.Abstains m' n) (g : m.Grows m') (low : n ≤ m.spaces.size)
    (h' : m'.Abstains m'' n) : m.Abstains m'' n := by
  intro id lt bare empty
  refine h' id lt ?_ (h id lt bare empty)
  rw [(g.cell id (Nat.lt_of_lt_of_le lt low)).shape]
  exact bare

theorem Abstains.mono {less : Nat} (h : m.Abstains m' n) (le : less ≤ n) : m.Abstains m' less :=
  fun id lt => h id (Nat.lt_of_lt_of_le lt le)

theorem Abstains.newSpace (s : Space) (low : n ≤ m.spaces.size) :
    m.Abstains (m.newSpace s).2 n := by
  intro id lt _ empty
  rw [cell_newSpace_of_lt s (Nat.lt_of_lt_of_le lt low)]
  exact empty

theorem Abstains.modifyCell {id : CellId} {f : Cell → Cell} (has : m.HasCell id)
    (keeps : id.space < n → (m.cell id).shape.init = none →
      (f (m.cell id)).value = (m.cell id).value) :
    m.Abstains (m.modifyCell id f) n := by
  intro other lt bare empty
  rw [cell_modifyCell has]
  split
  · next same =>
    subst same
    rw [keeps lt bare]
    exact empty
  · exact empty

end Memory

end CellScript
