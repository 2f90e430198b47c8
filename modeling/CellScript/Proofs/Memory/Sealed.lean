import CellScript.Proofs.Code.Below
import CellScript.Proofs.Memory.Budget

/-!
# Blocks whose later cells cannot be asked for

While the heads of a comprehension are run, the cells of its block get their values one after the
other. A block is sealed from a slot on if nobody has asked for its cells from there on, and nobody
can: whatever may still be evaluated, in the block, in a space further inside or anywhere else,
looks at earlier cells of the block only, and no captured symbol, member or site leads to a later
one.

* `Memory.Sealed` — the block is sealed from a slot on
* `Memory.Sealed.mono` — and so it is from a later slot on
* `Memory.Sealed.newSpace`, `Memory.Sealed.modifyCell`, `Memory.Sealed.newClosure`,
  `Memory.Sealed.fill` — it stays sealed
* `Memory.Founded.sealed` — a new block is sealed from the first slot on whose cell is blank
* `Memory.Sealed.fork_copy` — a copy of a sealed block is sealed too
-/

namespace CellScript

open Code (Op)

/-- The cell is one of the first of the block, if it is one of the block at all. -/
def CellId.Early (block : SpaceId) (count : Nat) (id : CellId) : Prop :=
  id.space = block → id.slot < count

namespace Memory

section Definitions

variable (m : Memory)

/-- The space is there, and is not the block. -/
structure Apart (block space : SpaceId) : Prop where
  known : space < m.spaces.size
  other : space ≠ block

/-- The cell lies in a space that is there, and is one of the first if that is the block. -/
structure Allows (block : SpaceId) (count : Nat) (id : CellId) : Prop where
  known : id.space < m.spaces.size
  early : id.Early block count

/-- In the space that lies so many steps outwards from the cells of a space, the operation looks at
the first cells only, if that is the block. -/
def Heeds (block : SpaceId) (count : Nat) (space : SpaceId) (below : Nat → Nat → Prop) : Prop :=
  ∀ depth, m.outward? depth space = some block → ∀ more, count ≤ more → below more depth

/-- Whatever is named in memory is there. -/
structure Founded : Prop where
  inside : ∀ id e, (m.space id).enclosing = some e → e < id
  pending : ∀ (id : ClosureId) (i : Nat) cell, (m.closure id)[i]? = some (.pending cell) →
    cell.space < m.spaces.size
  members : ∀ id space, (m.cell id).members = some space → space < m.spaces.size
  pinned : ∀ site cell, m.pins.get? site = some cell → cell.space < m.spaces.size

/-- Nobody has asked for the cells of the block from a slot on, and nothing in memory leads
there. -/
structure Sealed (block : SpaceId) (count : Nat) : Prop where
  known : block < m.spaces.size
  inside : ∀ id e, (m.space id).enclosing = some e → e < id
  blank : ∀ slot, count ≤ slot → (m.cell ⟨block, slot⟩).isBlank = true
  /-- What computes a cell of the block looks at the cell itself and at earlier ones. -/
  order : ∀ slot init, (m.cell ⟨block, slot⟩).shape.init = some init → init.Awaits (slot + 1)
  init : ∀ id init, id.space ≠ block → (m.cell id).shape.init = some init →
    m.Heeds block count id.space (init.Below · ·)
  pending : ∀ (id : ClosureId) (i : Nat) cell, (m.closure id)[i]? = some (.pending cell) →
    m.Allows block count cell
  members : ∀ id space, (m.cell id).members = some space → m.Apart block space
  pinned : ∀ site cell, m.pins.get? site = some cell → m.Allows block count cell

end Definitions

variable {m m' : Memory} {block space : SpaceId} {count more : Nat} {id : CellId}

theorem Apart.allows (h : m.Apart block space) (count slot : Nat) :
    m.Allows block count ⟨space, slot⟩ :=
  ⟨h.known, fun same => absurd same h.other⟩

theorem Apart.grows (h : m.Apart block space) (g : m.Grows m') : m'.Apart block space :=
  ⟨Nat.lt_of_lt_of_le h.known g.spaces, h.other⟩

theorem Allows.grows (h : m.Allows block count id) (g : m.Grows m') : m'.Allows block count id :=
  ⟨Nat.lt_of_lt_of_le h.known g.spaces, h.early⟩

theorem Allows.mono (h : m.Allows block count id) (le : count ≤ more) : m.Allows block more id :=
  ⟨h.known, fun same => Nat.lt_of_lt_of_le (h.early same) le⟩

theorem Heeds.mono {below : Nat → Nat → Prop} (h : m.Heeds block count space below)
    (le : count ≤ more) :
    m.Heeds block more space below :=
  fun depth outer most later => h depth outer most (Nat.le_trans le later)

/-- The same spaces lie around the same spaces. -/
theorem outward?_congr (same : ∀ id, (m'.space id).enclosing = (m.space id).enclosing) (n : Nat)
    (space : SpaceId) : m'.outward? n space = m.outward? n space := by
  induction n generalizing space with
  | zero => rfl
  | succ n ih => rw [outward?, outward?, same, funext ih]

/-- A cell of a memory with a new space is an old one, or one of the new space. -/
theorem cell_newSpace_cases (m : Memory) (s : Space) (id : CellId) :
    (m.newSpace s).2.cell id = m.cell id ∨
      id.space = m.spaces.size ∧ s.cells[id.slot]? = some ((m.newSpace s).2.cell id) := by
  rw [cell_eq, cell_eq, space_newSpace]
  split
  · next new =>
    cases hc : s.cells[id.slot]? with
    | some c => exact .inr ⟨new, rfl⟩
    | none =>
      have before : ¬m.HasCell id := fun has => Nat.ne_of_lt has.1 new
      rw [← cell_eq, cell_eq_default before]
      exact .inl rfl
  · exact .inl rfl

/-- Only cells that are there are computed. -/
theorem hasCell_of_init {init : Op} (found : (m.cell id).shape.init = some init) :
    m.HasCell id := by
  refine Classical.byContradiction fun out => ?_
  rw [cell_eq_default out] at found
  cases found

/-! ## New blocks -/

/-- **A new block is sealed from the first slot on whose cell is blank**, if the values of its cells
look at earlier cells. -/
theorem Founded.sealed (h : m.Founded) {s : Space} (inside : ∀ e, s.enclosing = some e →
    e < m.spaces.size)
    (bare : ∀ (i : Nat) (c : Cell), s.cells[i]? = some c → c.members = none)
    (blank : ∀ (i : Nat) (c : Cell), s.cells[i]? = some c → count ≤ i → c.isBlank = true)
    (order : ∀ (i : Nat) (c : Cell) (init : Op), s.cells[i]? = some c → c.shape.init = some init →
      init.Awaits (i + 1)) : (m.newSpace s).2.Sealed m.spaces.size count := by
  have g := m.grows_newSpace s
  have lt : m.spaces.size < (m.newSpace s).2.spaces.size := by
    rw [size_spaces_newSpace]
    exact Nat.lt_succ_self _
  have later : ∀ {space : SpaceId}, space < m.spaces.size →
      (m.newSpace s).2.Apart m.spaces.size space :=
    fun known => ⟨Nat.lt_trans known lt, Nat.ne_of_lt known⟩
  have absent : ∀ i, m.cell ⟨m.spaces.size, i⟩ = default := fun i =>
    cell_eq_default fun has => Nat.lt_irrefl _ has.1
  have around := inside_newSpace h.inside inside
  refine ⟨lt, around, fun slot le => ?_, fun slot init found =>
    ?_, fun id init other found depth outer => ?_,
    fun cl i cell found => ?_, fun id space found => ?_, fun site cell found => ?_⟩
  · rcases m.cell_newSpace_cases s ⟨m.spaces.size, slot⟩ with same | ⟨-, here⟩
    · rw [same, absent]
      rfl
    · exact blank slot _ here le
  · rcases m.cell_newSpace_cases s ⟨m.spaces.size, slot⟩ with same | ⟨-, here⟩
    · rw [same, absent] at found
      cases found
    · exact order slot _ init here found
  · -- From an older space the way leads to older spaces only.
    have known : id.space < m.spaces.size := by
      rcases m.cell_newSpace_cases s id with same | ⟨new, -⟩
      · exact (hasCell_of_init (same ▸ found)).1
      · exact absurd new other
    exact absurd (outward?_le around depth outer) (Nat.not_le_of_lt known)
  · exact (later (h.pending cl i cell found)).allows count _
  · rcases m.cell_newSpace_cases s id with same | ⟨-, here⟩
    · rw [same] at found
      exact later (h.members id space found)
    · rw [bare _ _ here] at found
      cases found
  · exact (later (h.pinned site cell found)).allows count _

namespace Sealed

variable (h : m.Sealed block count)

include h

theorem founded : m.Founded :=
  ⟨h.inside, fun id i cell found => (h.pending id i cell found).known,
    fun id space found => (h.members id space found).known,
    fun site cell found => (h.pinned site cell found).known⟩

/-- From the block no way leads outwards to the block. -/
theorem no_return (depth : Nat) : m.outward? (depth + 1) block ≠ some block := by
  intro outer
  rw [outward?, Option.bind_eq_some_iff] at outer
  obtain ⟨e, he, outer⟩ := outer
  exact absurd (outward?_le h.inside depth outer) (Nat.not_le_of_lt (h.inside block e he))

/-- What is sealed from a slot on is sealed from a later one on. -/
theorem mono (le : count ≤ more) : m.Sealed block more :=
  ⟨h.known, h.inside, fun slot later => h.blank slot (Nat.le_trans le later), h.order,
    fun id init other found => (h.init id init other found).mono le,
    fun id i cell found => (h.pending id i cell found).mono le, h.members,
    fun site cell found => (h.pinned site cell found).mono le⟩

/-- What computes a cell that may be asked for looks at the first cells of the block only. -/
theorem heeds {init : Op} (allows : m.Allows block count id)
    (found : (m.cell id).shape.init = some init) :
    m.Heeds block count id.space (init.Below · ·) := by
  by_cases own : id.space = block
  · obtain ⟨space, slot⟩ := id
    obtain rfl : space = block := own
    intro depth outer most later
    cases depth with
    | zero => exact h.order slot init found most (Nat.le_trans (allows.early rfl) later)
    | succ depth => exact absurd outer (h.no_return depth)
  · exact h.init id init own found

/-- The block stays sealed while its later cells stay blank and nothing new is named. -/
theorem keep (size : m'.spaces.size = m.spaces.size)
    (enclosing : ∀ id, (m'.space id).enclosing = (m.space id).enclosing)
    (cell : ∀ id, (m'.cell id).shape = (m.cell id).shape ∧ (m'.cell id).members =
      (m.cell id).members)
    (blank : ∀ slot, count ≤ slot → (m'.cell ⟨block, slot⟩).isBlank = true)
    (pending : ∀ (id : ClosureId) (i : Nat) cell, (m'.closure id)[i]? = some (.pending cell) →
      m.Allows block count cell)
    (pinned : ∀ site cell, m'.pins.get? site = some cell → m.Allows block count cell) :
    m'.Sealed block count := by
  have allows : ∀ {id}, m.Allows block count id → m'.Allows block count id :=
    fun allows => ⟨size ▸ allows.known, allows.early⟩
  refine ⟨size ▸ h.known, fun id e he => h.inside id e (enclosing id ▸ he), blank,
    fun slot init found => h.order slot init ((cell _).1 ▸ found),
    fun id init other found depth outer => h.init id init other ((cell id).1 ▸ found) depth ?_,
    fun id i cell found => allows (pending id i cell found), fun id space found => ?_,
    fun site cell found => allows (pinned site cell found)⟩
  · rw [← outward?_congr enclosing]
    exact outer
  · have apart := h.members id space ((cell id).2 ▸ found)
    exact ⟨size ▸ apart.known, apart.other⟩

/-- A cell changes that may be asked for. -/
theorem modifyCell {f : Cell → Cell} (early : id.Early block count)
    (same : ∀ c, (f c).shape = c.shape ∧ (f c).members = c.members) :
    (m.modifyCell id f).Sealed block count := by
  refine h.keep (size_spaces_modifyCell m id f) (enclosing_modifyCell m id f) (fun other => ?_)
    (fun slot le => ?_) h.pending h.pinned
  · by_cases has : m.HasCell id
    · rw [cell_modifyCell has]
      split
      · next here => exact here ▸ same _
      · exact ⟨rfl, rfl⟩
    · by_cases here : other = id
      · have out : ¬(m.modifyCell id f).HasCell id := fun ⟨known, slot⟩ =>
          has ⟨size_spaces_modifyCell m id f ▸ known, size_cells_modifyCell m id f _ ▸ slot⟩
        rw [here, cell_eq_default has, cell_eq_default out]
        exact ⟨rfl, rfl⟩
      · rw [cell_modifyCell_ne m here]
        exact ⟨rfl, rfl⟩
  · rw [cell_modifyCell_ne]
    · exact h.blank slot le
    · rintro rfl
      exact absurd (early rfl) (Nat.not_lt_of_le le)

theorem newClosure {captured : List Captured}
    (allows : ∀ cell, .pending cell ∈ captured → m.Allows block count cell) :
    (m.newClosure captured).2.Sealed block count := by
  refine h.keep rfl (fun _ => rfl) (fun _ => ⟨rfl, rfl⟩) h.blank
    (fun id i cell found => ?_) h.pinned
  rw [closure_newClosure] at found
  split at found
  · exact allows cell (List.mem_of_getElem? found)
  · exact h.pending id i cell found

/-- Nothing becomes pending when a captured symbol is settled. -/
theorem fill (id : ClosureId) (index : Nat) (v : Value) :
    (m.fill id index v).Sealed block count := by
  refine h.keep rfl (fun _ => rfl) (fun _ => ⟨rfl, rfl⟩) h.blank
    (fun other i cell found => ?_) h.pinned
  rcases getElem?_closure_fill found with same | ⟨-, -, c, -, settled⟩
  · exact h.pending other i cell same
  · cases c <;> cases settled

theorem pin (site : Code.SiteId) (allows : m.Allows block count id) :
    Sealed { m with pins := m.pins.insert site id } block count := by
  refine h.keep rfl (fun _ => rfl) (fun _ => ⟨rfl, rfl⟩) h.blank h.pending
    fun other cell found => ?_
  change (m.pins.insert site id).get? other = some cell at found
  rw [Table.get?_insert] at found
  split at found
  · cases found
    exact allows
  · exact h.pinned other cell found

/-- Functions and the identities of values lead to no cells. -/
theorem newFunction (f : FunctionObject) : (m.newFunction f).2.Sealed block count :=
  h.keep rfl (fun _ => rfl) (fun _ => ⟨rfl, rfl⟩) h.blank h.pending h.pinned

theorem newObject : m.newObject.2.Sealed block count :=
  h.keep rfl (fun _ => rfl) (fun _ => ⟨rfl, rfl⟩) h.blank h.pending h.pinned

/-- Nor do the buffers, and it is of no account whether a space is alive. -/
theorem withScratch (pool : Pool) : Sealed { m with scratch := pool } block count :=
  h.keep rfl (fun _ => rfl) (fun _ => ⟨rfl, rfl⟩) h.blank h.pending h.pinned

theorem drop (space : SpaceId) : (m.drop space).Sealed block count :=
  h.keep rfl (fun _ => rfl) (fun _ => ⟨rfl, rfl⟩) h.blank h.pending h.pinned

/-- **The block stays sealed when a space is laid out** whose cells are computed by what looks at
the first cells of the block only. -/
theorem newSpace {s : Space} (inside : ∀ e, s.enclosing = some e → e < m.spaces.size)
    (bare : ∀ (i : Nat) (c : Cell), s.cells[i]? = some c → c.members = none)
    (inits : ∀ (i : Nat) (c : Cell) (init : Op), s.cells[i]? = some c → c.shape.init = some init →
      ∀ e, s.enclosing = some e → m.Heeds block count e fun more depth =>
        init.Below more (depth + 1)) :
    (m.newSpace s).2.Sealed block count := by
  have g := m.grows_newSpace s
  have own : ∀ slot, (m.newSpace s).2.cell ⟨block, slot⟩ = m.cell ⟨block, slot⟩ := fun slot =>
    cell_newSpace_of_lt s h.known
  refine ⟨Nat.lt_of_lt_of_le h.known g.spaces, inside_newSpace h.inside inside, fun slot le =>
    own slot ▸ h.blank slot le,
    fun slot init found => h.order slot init (own slot ▸ found),
    fun id init other found depth outer => ?_,
    fun cl i cell found => (h.pending cl i cell found).grows g, fun id space found => ?_,
    fun site cell found => (h.pinned site cell found).grows g⟩
  · rcases m.cell_newSpace_cases s id with same | ⟨new, here⟩
    · rw [same] at found
      rw [outward?_grows g h.inside depth (hasCell_of_init found).1] at outer
      exact h.init id init other found depth outer
    · cases depth with
      | zero => exact absurd (Option.some.inj outer) other
      | succ depth =>
        rw [outward?, new, space_newSpace, if_pos rfl, Option.bind_eq_some_iff] at outer
        obtain ⟨e, he, outer⟩ := outer
        rw [outward?_grows g h.inside depth (inside e he)] at outer
        exact inits _ _ init here found e he depth outer
  · rcases m.cell_newSpace_cases s id with same | ⟨-, here⟩
    · exact (h.members id space (same ▸ found)).grows g
    · rw [bare _ _ here] at found
      cases found

/-! ## Copies of the block -/

omit h in
/-- The cells of a copy of the block are those of the block, begun afresh. -/
theorem cell_of_fork {i : Nat} {c : Cell}
    (hc : ((m.space block).cells.map fun c => { Cell.ofSlot c.shape with value := c.value })[i]? =
      some c) :
    c = { Cell.ofSlot (m.cell ⟨block, i⟩).shape with value := (m.cell ⟨block, i⟩).value } := by
  rw [Array.getElem?_map, Option.map_eq_some_iff] at hc
  obtain ⟨old, there, rfl⟩ := hc
  rw [cell_eq, there]
  rfl

/-- The block stays sealed when a copy is laid out beside it. -/
theorem fork : (m.fork block).2.Sealed block count := by
  refine h.newSpace (fun e he => Nat.lt_trans (h.inside block e he) h.known) (fun i c hc => ?_)
    fun i c init hc found e he depth outer => ?_
  · rw [cell_of_fork hc]
    rfl
  · exact absurd (by rw [outward?, he]; exact outer) (h.no_return depth)

/-- **A copy of the block is sealed from the same slot on.** -/
theorem fork_copy : (m.fork block).2.Sealed m.spaces.size count := by
  refine h.founded.sealed (fun e he => Nat.lt_trans (h.inside block e he) h.known)
    (fun i c hc => ?_) (fun i c hc later => ?_) fun i c init hc found => ?_
  · rw [cell_of_fork hc]
    rfl
  · have blank := h.blank i later
    rw [Cell.isBlank, Bool.and_eq_true, Bool.and_eq_true, Option.isNone_iff_eq_none] at blank
    rw [cell_of_fork hc, Cell.isBlank, blank.1.1]
    rfl
  · rw [cell_of_fork hc] at found
    exact h.order i init found

end Sealed

end Memory

end CellScript
