import CellScript.Proofs.Memory.Grows
import Mathlib.Algebra.Order.BigOperators.Group.Finset

/-!
# What may still be asked for

Only a cell that nobody has asked for yet is computed, and only once. Cells count with the size of
what computes them, so that whatever cells can be reached from a space, counted together, bound how
deeply evaluation in the space can nest. Some spaces can be reached from everywhere, the others from
the blocks inside them.

* `Cell.load`, `Memory.load` — the count of a cell and of several cells
* `Memory.Around`, `Memory.Sees` — the spaces and cells that can be reached from a space
* `Memory.BlockOf`, `Memory.BlockOf.load_le` — the cells of a block count no more than its template
* `Memory.load_le_of_grows`, `Memory.load_modifyCell` — the count falls when a cell is asked for,
  and never rises
-/

namespace CellScript

open Code (Template)

namespace Cell

/-- Nobody has asked for the cell, and it is not bound. -/
def isBlank (c : Cell) : Bool := c.value.isNone && c.failure.isNone && !c.evaluating

/-- A cell that nobody has asked for counts with the size of what computes its value. -/
noncomputable def load (c : Cell) : Nat := if c.isBlank then 1 + sizeOf c.shape.init else 0

theorem load_le (c : Cell) : c.load ≤ 1 + sizeOf c.shape.init := by
  unfold load
  split
  · exact Nat.le_refl _
  · exact Nat.zero_le _

/-- A cell does not become blank. -/
theorem load_le_of_later {c c' : Cell} (h : c.Later c') (busy : c'.evaluating = c.evaluating) :
    c'.load ≤ c.load := by
  cases hb : c'.isBlank with
  | false =>
    rw [load, hb]
    exact Nat.zero_le _
  | true =>
    have blank : c.isBlank = true := by
      simp only [isBlank, Bool.and_eq_true, Option.isNone_iff_eq_none] at hb ⊢
      obtain ⟨⟨value, failure⟩, idle⟩ := hb
      refine ⟨⟨?_, ?_⟩, by rw [← busy]; exact idle⟩
      · cases hv : c.value with
        | none => rfl
        | some v =>
          rw [h.value v hv] at value
          cases value
      · cases hf : c.failure with
        | none => rfl
        | some e =>
          rw [h.failure e hf] at failure
          cases failure
    rw [load, load, hb, blank, h.shape]

end Cell

namespace Memory

variable {m m' : Memory} {static space other : SpaceId} {cells : Finset CellId}

/-- How much may still be asked for in some cells. -/
noncomputable def load (m : Memory) (cells : Finset CellId) : Nat := ∑ id ∈ cells, (m.cell id).load

theorem load_union_le (m : Memory) (cells more : Finset CellId) :
    m.load (cells ∪ more) ≤ m.load cells + m.load more := by
  rw [load, load, load, ← Finset.sum_union_inter]
  exact Nat.le_add_right _ _

theorem load_le_of_grows (g : m.Grows m')
    (busy : ∀ id, (m'.cell id).evaluating = (m.cell id).evaluating)
    (known : ∀ id ∈ cells, m.HasCell id) : m'.load cells ≤ m.load cells :=
  Finset.sum_le_sum fun id mem => Cell.load_le_of_later (g.cell id (known id mem).1) (busy id)

/-- A cell that is no longer blank is not counted any more. -/
theorem load_modifyCell {id : CellId} {f : Cell → Cell} (has : m.HasCell id) (mem : id ∈ cells)
    (asked : (f (m.cell id)).load = 0) :
    (m.modifyCell id f).load cells + (m.cell id).load = m.load cells := by
  have others : ∑ other ∈ cells.erase id, ((m.modifyCell id f).cell other).load =
      ∑ other ∈ cells.erase id, (m.cell other).load := by
    refine Finset.sum_congr rfl fun other h => ?_
    rw [cell_modifyCell_ne m (Finset.ne_of_mem_erase h)]
  rw [load, load, ← Finset.add_sum_erase cells _ mem, ← Finset.add_sum_erase cells _ mem, others,
    cell_modifyCell_self has, asked, Nat.zero_add, Nat.add_comm]

/-! ## What can be reached -/

theorem outward?_grows (g : m.Grows m') (inside : ∀ id e, (m.space id).enclosing = some e → e < id)
    (n : Nat) (known : space < m.spaces.size) : m'.outward? n space = m.outward? n space := by
  induction n generalizing space with
  | zero => rfl
  | succ n ih =>
    rw [outward?, outward?, (g.space space known).enclosing]
    cases he : (m.space space).enclosing with
    | none => rfl
    | some e => exact ih (Nat.lt_trans (inside space e he) known)

theorem outward?_le (inside : ∀ id e, (m.space id).enclosing = some e → e < id) (n : Nat)
    (h : m.outward? n space = some other) : other ≤ space := by
  induction n generalizing space with
  | zero =>
    cases h
    exact Nat.le_refl _
  | succ n ih =>
    rw [outward?, Option.bind_eq_some_iff] at h
    obtain ⟨e, he, h⟩ := h
    exact Nat.le_trans (ih h) (Nat.le_of_lt (inside space e he))

theorem outward?_add (n k : Nat) {between : SpaceId} (h : m.outward? n space = some between) :
    m.outward? (n + k) space = m.outward? k between := by
  induction n generalizing space with
  | zero =>
    cases h
    rw [Nat.zero_add]
  | succ n ih =>
    rw [outward?, Option.bind_eq_some_iff] at h
    obtain ⟨e, he, h⟩ := h
    rw [Nat.succ_add, outward?, he, Option.bind_some, ih h]

/-- The other space can be reached from a space: it is static, or lies around it. -/
def Around (m : Memory) (static space other : SpaceId) : Prop :=
  other < static ∨ ∃ n, m.outward? n space = some other

theorem Around.self : m.Around static space space := .inr ⟨0, rfl⟩

theorem Around.trans (inside : ∀ id e, (m.space id).enclosing = some e → e < id) {third : SpaceId}
    (h : m.Around static space other) (h' : m.Around static other third) :
    m.Around static space third := by
  rcases h' with low | ⟨k, outer⟩
  · exact .inl low
  · rcases h with low | ⟨n, outer'⟩
    · exact .inl (Nat.lt_of_le_of_lt (outward?_le inside k outer) low)
    · exact .inr ⟨n + k, by rw [outward?_add n k outer', outer]⟩

/-- The cells are there, and all that can be reached from the space are among them. -/
structure Sees (m : Memory) (static space : SpaceId) (cells : Finset CellId) : Prop where
  known : ∀ id ∈ cells, m.HasCell id
  all : ∀ id, m.HasCell id → m.Around static space id.space → id ∈ cells

theorem Sees.around (h : m.Sees static space cells)
    (inside : ∀ id e, (m.space id).enclosing = some e → e < id)
    (place : m.Around static space other) : m.Sees static other cells :=
  ⟨h.known, fun id has around => h.all id has (place.trans inside around)⟩

theorem Sees.grows (h : m.Sees static space cells) (g : m.Grows m')
    (inside : ∀ id e, (m.space id).enclosing = some e → e < id) (low : static ≤ m.spaces.size)
    (known : space < m.spaces.size) : m'.Sees static space cells := by
  refine ⟨fun id mem => (h.known id mem).grows g, fun id has around => ?_⟩
  have around : m.Around static space id.space := by
    rcases around with low | ⟨n, outer⟩
    · exact .inl low
    · exact .inr ⟨n, by rw [← outward?_grows g inside n known]; exact outer⟩
  have old : id.space < m.spaces.size := by
    rcases around with below | ⟨n, outer⟩
    · exact Nat.lt_of_lt_of_le below low
    · exact Nat.lt_of_le_of_lt (outward?_le inside n outer) known
  exact h.all id ⟨old, by rw [← (g.space _ old).size]; exact has.2⟩ around

/-! ## Blocks -/

/-- The space lies inside another one, and has a cell for each slot of a template. -/
structure BlockOf (m : Memory) (t : Template) (space inner : SpaceId) : Prop where
  known : inner < m.spaces.size
  enclosing : (m.space inner).enclosing = some space
  shapes : (m.space inner).cells.toList.map (·.shape) = t.slots

theorem BlockOf.grows {t : Template} {inner : SpaceId} (h : m.BlockOf t space inner)
    (g : m.Grows m') :
    m'.BlockOf t space inner := by
  refine ⟨Nat.lt_of_lt_of_le h.known g.spaces, ?_, ?_⟩
  · rw [(g.space _ h.known).enclosing]
    exact h.enclosing
  · rw [← h.shapes]
    refine List.ext_getElem? fun i => ?_
    rw [List.getElem?_map, List.getElem?_map, Array.getElem?_toList, Array.getElem?_toList]
    exact g.shape h.known i

/-- A block laid out in a space. -/
theorem blockOf_child (m : Memory) (t : Template) (space : SpaceId) :
    (m.child t space).2.BlockOf t space (m.child t space).1 := by
  have here : (m.child t space).2.space m.spaces.size =
      Space.ofTemplate t (some space) (m.space space).closure := by
    rw [child, space_newSpace, if_pos rfl]
  refine ⟨?_, congrArg Space.enclosing here, ?_⟩
  · rw [child, size_spaces_newSpace]
    exact Nat.lt_succ_self _
  · show ((m.child t space).2.space m.spaces.size).cells.toList.map _ = _
    rw [here]
    show (t.slots.map Cell.ofSlot).map (·.shape) = t.slots
    rw [List.map_map]
    exact List.map_id _

theorem space_fork (m : Memory) (block : SpaceId) : (m.fork block).2.space (m.fork block).1 =
    { m.space block with
      cells := (m.space block).cells.map fun c =>
        { Cell.ofSlot c.shape with value := c.value } } := by
  rw [fork, space_newSpace, fst_newSpace, if_pos rfl]

/-- A block laid out again. -/
theorem BlockOf.fork {t : Template} {block : SpaceId} (h : m.BlockOf t space block) :
    (m.fork block).2.BlockOf t space (m.fork block).1 := by
  refine ⟨?_, ?_, ?_⟩
  · rw [Memory.fork, size_spaces_newSpace]
    exact Nat.lt_succ_self _
  · rw [space_fork]
    exact h.enclosing
  · rw [space_fork, ← h.shapes, Array.toList_map, List.map_map]
    rfl

/-- Cells laid out from slots count no more than the slots. -/
theorem load_shapes_le (cs : List Cell) :
    ∑ i ∈ Finset.range cs.length, ((cs[i]?).getD default).load ≤ sizeOf (cs.map (·.shape)) := by
  induction cs with
  | nil => exact Nat.zero_le _
  | cons c rest ih =>
    rw [List.length_cons, Finset.sum_range_succ', List.map_cons, List.cons.sizeOf_spec]
    have first : c.load ≤ sizeOf c.shape := by
      refine Nat.le_trans c.load_le ?_
      rcases c.shape with ⟨symbol, name, ty, span, init, members⟩
      simp only [Code.Slot.mk.sizeOf_spec]
      omega
    simp only [List.getElem?_cons_succ, List.getElem?_cons_zero, Option.getD_some]
    omega

theorem cellId_mk_injective (space : SpaceId) : Function.Injective (CellId.mk space) :=
  fun _ _ h => congrArg CellId.slot h

/-- The cells of a space. -/
def cellSet (m : Memory) (space : SpaceId) : Finset CellId :=
  (Finset.range (m.space space).cells.size).image (CellId.mk space)

theorem mem_cellSet {id : CellId} : id ∈ m.cellSet space ↔ m.HasCell id ∧ id.space = space := by
  rw [cellSet, Finset.mem_image]
  constructor
  · rintro ⟨slot, lt, rfl⟩
    have lt := Finset.mem_range.mp lt
    exact ⟨(@hasCell_of_getElem? m ⟨space, slot⟩ _ (Array.getElem?_eq_getElem lt)).1, rfl⟩
  · rintro ⟨has, rfl⟩
    exact ⟨id.slot, Finset.mem_range.mpr has.2, rfl⟩

/-- The cells of all spaces. -/
def allCells (m : Memory) : Finset CellId := (Finset.range m.spaces.size).biUnion m.cellSet

theorem mem_allCells {id : CellId} : id ∈ m.allCells ↔ m.HasCell id := by
  rw [allCells, Finset.mem_biUnion]
  constructor
  · rintro ⟨space, -, mem⟩
    exact (mem_cellSet.mp mem).1
  · exact fun has => ⟨id.space, Finset.mem_range.mpr has.1, mem_cellSet.mpr ⟨has, rfl⟩⟩

/-- **The cells of a block count no more than its template.** -/
theorem BlockOf.load_le {t : Template} {inner : SpaceId} (h : m.BlockOf t space inner) :
    m.load (m.cellSet inner) ≤ sizeOf t := by
  have slots : sizeOf t.slots ≤ sizeOf t := by
    obtain ⟨scope, slots⟩ := t
    rw [Code.Template.mk.sizeOf_spec]
    exact Nat.le_add_left _ _
  refine Nat.le_trans ?_ slots
  rw [load, cellSet, Finset.sum_image fun _ _ _ _ same =>
    cellId_mk_injective inner same, ← h.shapes]
  have cells := load_shapes_le (m.space inner).cells.toList
  rw [Array.length_toList] at cells
  refine Nat.le_trans (Nat.le_of_eq (Finset.sum_congr rfl fun i _ => ?_)) cells
  rw [cell_eq, Array.getElem?_toList]

/-- What can be reached from a block are its own cells and those that can be reached from the space
around it. -/
theorem BlockOf.sees {t : Template} {inner : SpaceId} (h : m.BlockOf t space inner)
    (sees : m.Sees static space cells) : m.Sees static inner (cells ∪ m.cellSet inner) := by
  refine ⟨fun id mem => ?_, fun id has around => ?_⟩
  · rcases Finset.mem_union.mp mem with mem | mem
    · exact sees.known id mem
    · exact (mem_cellSet.mp mem).1
  · rw [Finset.mem_union]
    rcases around with low | ⟨n, outer⟩
    · exact .inl (sees.all id has (.inl low))
    · cases n with
      | zero =>
        cases outer
        exact .inr (mem_cellSet.mpr ⟨has, rfl⟩)
      | succ n =>
        rw [outward?, h.enclosing, Option.bind_some] at outer
        exact .inl (sees.all id has (.inr ⟨n, outer⟩))

end Memory

end CellScript
