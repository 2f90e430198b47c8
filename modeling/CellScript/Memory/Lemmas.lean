import CellScript.Memory.Basic

/-!
# What operations on memory leave alone

Memory only grows: a new space, closure or function gets a number that was not in use, and
everything with an earlier number stays as it is. Changing a cell changes that cell and nothing
else.

* `space_newSpace`, `closure_newClosure`, `function_newFunction` — a creation is seen under its own
  number only
* `cell_modifyCell` — a change is seen in its own cell only
* `bind_of_value`, `fill_of_value` — what has a value keeps it
* `ancestor?_of_outward?` — a walk outwards from a space that is alive meets only spaces that are
-/

namespace CellScript

namespace Cell

/-- A cell with a value keeps it. -/
theorem withValue_of_value {c : Cell} {v w : Value} (h : c.value = some v) : c.withValue w = c := by
  cases c
  simp only at h
  subst h
  rfl

theorem value_withValue (c : Cell) (w : Value) : (c.withValue w).value = c.value.or (some w) := rfl

/-- A cell with a failure keeps it. -/
theorem withFailure_of_failure {c : Cell} {e f : Exception} (h : c.failure = some e) :
    c.withFailure f = c := by
  cases c
  simp only at h
  subst h
  rfl

end Cell

namespace Memory

/-! ## New spaces -/

/-- A new space is seen under its own number, and every other number denotes what it did. -/
theorem space_newSpace (m : Memory) (s : Space) (id : SpaceId) :
    (m.newSpace s).2.space id = if id = m.spaces.size then s else m.space id := by
  simp only [newSpace, space, Array.getD_eq_getD_getElem?, Array.getElem?_push]
  split <;> rfl

theorem fst_newSpace (m : Memory) (s : Space) : (m.newSpace s).1 = m.spaces.size := rfl

theorem size_spaces_newSpace (m : Memory) (s : Space) :
    (m.newSpace s).2.spaces.size = m.spaces.size + 1 := by
  simp only [newSpace, Array.size_push]

/-- A space that exists is not touched by the creation of another. -/
theorem space_newSpace_of_lt {m : Memory} {id : SpaceId} (s : Space) (h : id < m.spaces.size) :
    (m.newSpace s).2.space id = m.space id := by
  rw [space_newSpace, if_neg (Nat.ne_of_lt h)]

/-- A cell that exists is not touched by the creation of a space. -/
theorem cell_newSpace_of_lt {m : Memory} {id : CellId} (s : Space) (h : id.space < m.spaces.size) :
    (m.newSpace s).2.cell id = m.cell id := by
  rw [cell, cell, space_newSpace_of_lt s h]

/-! ## Spaces that come to an end -/

/-- A new space that is dropped leaves the spaces alive that were. -/
theorem held_drop_of_cons {m : Memory} {id : SpaceId} {held : List SpaceId}
    (h : m.held = id :: held) :
    (m.drop id).held = held := by
  rw [drop, h, List.erase_cons_head]

/-- The space a number of steps outwards, alive or not. -/
def outward? (m : Memory) : Nat → SpaceId → Option SpaceId
  | 0, id => some id
  | n + 1, id => (m.space id).enclosing.bind (m.outward? n)

/-- Whoever gets somewhere over spaces that are alive gets there. -/
theorem outward?_of_ancestor? {m : Memory} {depth : Nat} {id outer : SpaceId}
    (h : m.ancestor? depth id = some outer) : m.outward? depth id = some outer := by
  induction depth generalizing id with
  | zero => exact h
  | succ depth ih =>
    obtain ⟨e, around, found⟩ := Option.bind_eq_some_iff.mp h
    rw [outward?, (Option.filter_eq_some_iff.mp around).1]
    exact ih found

/-- Where no space that is alive lies in one that is not, all spaces around it are alive. -/
theorem ancestor?_of_outward? {m : Memory} (closed : ∀ id ∈ m.held, ∀ e, (m.space id).enclosing =
    some e → e ∈ m.held) {depth : Nat} {id outer : SpaceId} (alive : id ∈ m.held)
    (h : m.outward? depth id = some outer) : m.ancestor? depth id = some outer ∧
      outer ∈ m.held := by
  induction depth generalizing id with
  | zero =>
    cases h
    exact ⟨rfl, alive⟩
  | succ depth ih =>
    obtain ⟨e, enclosing, found⟩ := Option.bind_eq_some_iff.mp h
    have around : m.around? id = some e :=
      Option.filter_eq_some_iff.mpr ⟨enclosing, decide_eq_true (closed id alive e enclosing)⟩
    rw [ancestor?, around]
    exact ih (closed id alive e enclosing) found

theorem outward?_of_ancestor {m : Memory} {depth : Nat} {id outer : SpaceId}
    (h : m.ancestor depth id = .ok outer) : m.outward? depth id = some outer := by
  unfold ancestor at h
  split at h
  · next found =>
    cases h
    exact outward?_of_ancestor? found
  · cases h

/-! ## Changed cells -/

theorem size_spaces_modifyCell (m : Memory) (id : CellId) (f : Cell → Cell) :
    (m.modifyCell id f).spaces.size = m.spaces.size := by
  simp only [modifyCell, Array.size_modify]

/-- A change of a cell is a change of its space. -/
theorem space_modifyCell (m : Memory) (id : CellId) (f : Cell → Cell) (other : SpaceId) :
    (m.modifyCell id f).space other =
      if other = id.space ∧ id.space < m.spaces.size then
        { m.space other with cells := (m.space other).cells.modify id.slot f }
      else m.space other := by
  simp only [modifyCell, space, Array.getD_eq_getD_getElem?, Array.getElem?_modify]
  by_cases h : id.space = other
  · subst h
    by_cases hlt : id.space < m.spaces.size
    · simp [hlt]
    · simp [hlt]
  · rw [if_neg h, if_neg (fun hc => h hc.1.symm)]

/-- The number of cells of a space never changes. -/
theorem size_cells_modifyCell (m : Memory) (id : CellId) (f : Cell → Cell) (other : SpaceId) :
    ((m.modifyCell id f).space other).cells.size = (m.space other).cells.size := by
  rw [space_modifyCell]
  split
  · exact Array.size_modify ..
  · rfl

/-- What lies around a space never changes. -/
theorem enclosing_modifyCell (m : Memory) (id : CellId) (f : Cell → Cell) (other : SpaceId) :
    ((m.modifyCell id f).space other).enclosing = (m.space other).enclosing := by
  rw [space_modifyCell]
  split <;> rfl

/-- The cell is there. -/
def HasCell (m : Memory) (id : CellId) : Prop :=
  id.space < m.spaces.size ∧ id.slot < (m.space id.space).cells.size

/-- A change is seen in the cell that was changed. -/
theorem cell_modifyCell_self {m : Memory} {id : CellId} (h : m.HasCell id) (f : Cell → Cell) :
    (m.modifyCell id f).cell id = f (m.cell id) := by
  obtain ⟨hspace, hslot⟩ := h
  rw [cell, cell, space_modifyCell, if_pos ⟨rfl, hspace⟩]
  simp [Array.getD_eq_getD_getElem?, hslot, Array.getElem_modify]

/-- A change is not seen in any other cell. -/
theorem cell_modifyCell_ne (m : Memory) {id other : CellId} (h : other ≠ id) (f : Cell → Cell) :
    (m.modifyCell id f).cell other = m.cell other := by
  rw [cell, cell, space_modifyCell]
  split
  · next hc =>
    have hslot : id.slot ≠ other.slot := by
      intro he
      refine h ?_
      cases other
      cases id
      simp only at hc he
      rw [hc.1, he]
    simp [Array.getD_eq_getD_getElem?, Array.getElem?_modify, hslot]
  · rfl

theorem cell_modifyCell {m : Memory} {id : CellId} (h : m.HasCell id) (f : Cell → Cell)
    (other : CellId) :
    (m.modifyCell id f).cell other = if other = id then f (m.cell id) else m.cell other := by
  by_cases he : other = id
  · rw [if_pos he, he, cell_modifyCell_self h]
  · rw [if_neg he, cell_modifyCell_ne m he]

/-- A change that changes nothing leaves memory as it is. -/
theorem modifyCell_eq_self {m : Memory} {id : CellId} {f : Cell → Cell} (h : m.HasCell id)
    (hf : f (m.cell id) = m.cell id) (other : CellId) :
    (m.modifyCell id f).cell other = m.cell other := by
  rw [cell_modifyCell h]
  split
  · next he => rw [hf, he]
  · rfl

/-- A cell with a value keeps it when it is bound again. -/
theorem bind_of_value {m : Memory} {id : CellId} {v w : Value} (h : m.HasCell id)
    (hv : (m.cell id).value = some v) (other : CellId) :
    (m.bind id w).cell other = m.cell other :=
  modifyCell_eq_self h (Cell.withValue_of_value hv) other

/-- A cell without a value gets the one it is bound to. -/
theorem value_bind_self {m : Memory} {id : CellId} {w : Value} (h : m.HasCell id)
    (hv : (m.cell id).value = none) : ((m.bind id w).cell id).value = some w := by
  rw [bind, cell_modifyCell_self h, Cell.value_withValue, hv]
  rfl

/-- The slots of a space are exactly the numbers below the count of its cells. -/
theorem cellIn_eq_ok_iff (m : Memory) (space : SpaceId) (slot : Nat) (id : CellId) :
    m.cellIn space slot = .ok id ↔ slot < (m.space space).cells.size ∧ id = ⟨space, slot⟩ := by
  simp only [cellIn]
  split
  · next h => simp [h, eq_comm]
  · next h => simp [h]

/-! ## Closures and functions -/

theorem closure_newClosure (m : Memory) (captured : List Captured) (id : ClosureId) :
    (m.newClosure captured).2.closure id =
      if id = m.closures.size then captured else m.closure id := by
  simp only [newClosure, closure, Array.getD_eq_getD_getElem?, Array.getElem?_push]
  split <;> rfl

theorem function_newFunction (m : Memory) (f : FunctionObject) (id : FunctionId) :
    (m.newFunction f).2.function id = if id = m.functions.size then f else m.function id := by
  simp only [newFunction, function, Array.getD_eq_getD_getElem?, Array.getElem?_push]
  split <;> rfl

/-- What one captured symbol becomes when it is settled. -/
theorem closure_fill (m : Memory) (id : ClosureId) (index : Nat) (v : Value) (other : ClosureId) :
    (m.fill id index v).closure other =
      if other = id then (m.closure id).modify index (·.orValue v) else m.closure other := by
  simp only [fill, closure, Array.getD_eq_getD_getElem?, Array.getElem?_modify]
  by_cases h : id = other
  · subst h
    by_cases hlt : id < m.closures.size
    · simp [hlt]
    · simp [hlt]
  · rw [if_neg h, if_neg (fun hc => h hc.symm)]

/-- After a captured symbol was settled every one is what it was, or it is the one that was
settled. -/
theorem getElem?_closure_fill {m : Memory} {id other : ClosureId} {index i : Nat} {v : Value}
    {c : Captured} (found : ((m.fill id index v).closure other)[i]? = some c) :
    (m.closure other)[i]? = some c ∨
      other = id ∧ i = index ∧ ∃ before, (m.closure other)[i]? = some before ∧
        before.orValue v = c := by
  rw [closure_fill] at found
  split at found
  · next he =>
    subst he
    rw [List.getElem?_modify] at found
    by_cases hi : index = i
    · subst hi
      simp only [if_true, Option.map_eq_map, Option.map_eq_some_iff] at found
      exact .inr ⟨rfl, rfl, found⟩
    · simp only [if_neg hi, Option.map_eq_map, Option.map_id_fun', id_eq] at found
      exact .inl found
  · exact .inl found

/-- A captured symbol that has its value keeps it. -/
theorem fill_of_value {m : Memory} {id : ClosureId} {index : Nat} {known v : Value}
    {origin : CellId} (h : (m.closure id)[index]? = some (.value known origin))
    (other : ClosureId) :
    (m.fill id index v).closure other = m.closure other := by
  rw [closure_fill]
  split
  · next he =>
    subst he
    refine List.ext_getElem? fun i => ?_
    rw [List.getElem?_modify]
    by_cases hi : index = i
    · subst hi
      simp [h, Captured.orValue]
    · simp [hi]
  · rfl

end Memory

end CellScript
