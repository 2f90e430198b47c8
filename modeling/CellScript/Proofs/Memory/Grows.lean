import CellScript.Memory.Lemmas

/-!
# Memory only grows

Whatever evaluation does, spaces keep their place, their cells keep what they were laid out from and
the value or failure they have, closures keep the cells they were captured from, and functions never
change. If all buffers were empty they are empty again.

* `Memory.Grows` — a preorder on memories
* `grows_newSpace`, `grows_modifyCell`, `grows_newClosure`, `grows_fill`, `grows_newFunction` —
  every operation on memory makes it grow
* `grows_drop`, `grows_rest`, `grows_give` — so it does when a space is dropped, or a buffer taken
  and put back
-/

namespace CellScript

namespace Cell

/-- The second cell is the first one at a later time. -/
structure Later (c c' : Cell) : Prop where
  shape : c'.shape = c.shape
  members : ∀ space, c.members = some space → c'.members = some space
  value : ∀ v, c.value = some v → c'.value = some v
  failure : ∀ e, c.failure = some e → c'.failure = some e

theorem Later.refl (c : Cell) : c.Later c := ⟨rfl, fun _ => id, fun _ => id, fun _ => id⟩

theorem Later.trans {c c' c'' : Cell} (h : c.Later c') (h' : c'.Later c'') : c.Later c'' :=
  ⟨h'.shape.trans h.shape, fun s hs => h'.members s (h.members s hs),
    fun v hv => h'.value v (h.value v hv), fun e he => h'.failure e (h.failure e he)⟩

/-- A cell that has a value keeps it when it is bound. -/
theorem later_withValue (c : Cell) (v : Value) : c.Later (c.withValue v) := by
  refine ⟨rfl, fun _ h => h, fun w hw => ?_, fun _ h => h⟩
  rw [value_withValue, hw]
  rfl

/-- A cell that has failed keeps its failure. -/
theorem later_withFailure (c : Cell) (e : Exception) : c.Later (c.withFailure e) := by
  refine ⟨rfl, fun _ h => h, fun _ h => h, fun f hf => ?_⟩
  rw [withFailure_of_failure hf]
  exact hf

theorem later_evaluating (c : Cell) (busy : Bool) : c.Later { c with evaluating := busy } :=
  ⟨rfl, fun _ h => h, fun _ h => h, fun _ h => h⟩

end Cell

namespace Space

/-- The second space is the first one at a later time, its cells apart. -/
structure Later (s s' : Space) : Prop where
  template : s'.template = s.template
  enclosing : s'.enclosing = s.enclosing
  closure : s'.closure = s.closure
  size : s'.cells.size = s.cells.size

theorem Later.refl (s : Space) : s.Later s := ⟨rfl, rfl, rfl, rfl⟩

theorem Later.trans {s s' s'' : Space} (h : s.Later s') (h' : s'.Later s'') : s.Later s'' :=
  ⟨h'.template.trans h.template, h'.enclosing.trans h.enclosing, h'.closure.trans h.closure,
    h'.size.trans h.size⟩

end Space

namespace Memory

/-- The second memory is the first one at a later time. -/
structure Grows (m m' : Memory) : Prop where
  spaces : m.spaces.size ≤ m'.spaces.size
  space : ∀ id, id < m.spaces.size → (m.space id).Later (m'.space id)
  cell : ∀ id : CellId, id.space < m.spaces.size → (m.cell id).Later (m'.cell id)
  closures : m.closures.size ≤ m'.closures.size
  origins : ∀ id, id < m.closures.size →
    (m'.closure id).map Captured.origin = (m.closure id).map Captured.origin
  functions : m.functions.size ≤ m'.functions.size
  function : ∀ id, id < m.functions.size → m'.function id = m.function id
  clear : m.scratch.Clear → m'.scratch.Clear

variable {m m' m'' : Memory}

theorem Grows.refl (m : Memory) : m.Grows m :=
  ⟨Nat.le_refl _, fun _ _ => .refl _, fun _ _ => .refl _, Nat.le_refl _, fun _ _ =>
    rfl, Nat.le_refl _,
    fun _ _ => rfl, id⟩

theorem Grows.trans (h : m.Grows m') (h' : m'.Grows m'') : m.Grows m'' where
  spaces := Nat.le_trans h.spaces h'.spaces
  space id hid := (h.space id hid).trans (h'.space id (Nat.lt_of_lt_of_le hid h.spaces))
  cell id hid := (h.cell id hid).trans (h'.cell id (Nat.lt_of_lt_of_le hid h.spaces))
  closures := Nat.le_trans h.closures h'.closures
  origins id hid := (h'.origins id (Nat.lt_of_lt_of_le hid h.closures)).trans (h.origins id hid)
  functions := Nat.le_trans h.functions h'.functions
  function id hid := (h'.function id (Nat.lt_of_lt_of_le hid h.functions)).trans (h.function id hid)
  clear := h'.clear ∘ h.clear

theorem HasCell.grows {id : CellId} (h : m.HasCell id) (g : m.Grows m') : m'.HasCell id := by
  refine ⟨Nat.lt_of_lt_of_le h.1 g.spaces, ?_⟩
  rw [(g.space _ h.1).size]
  exact h.2

/-! ## Cells and spaces -/

theorem cell_eq (m : Memory) (id : CellId) :
    m.cell id = ((m.space id.space).cells[id.slot]?).getD default := by
  rw [cell, Array.getD_eq_getD_getElem?]

theorem HasCell.getElem? {id : CellId} (h : m.HasCell id) :
    (m.space id.space).cells[id.slot]? = some (m.cell id) := by
  rw [cell_eq, Array.getElem?_eq_getElem h.2]
  rfl

theorem hasCell_of_getElem? {id : CellId} {c : Cell}
    (h : (m.space id.space).cells[id.slot]? = some c) : m.HasCell id ∧ m.cell id = c := by
  have slot : id.slot < (m.space id.space).cells.size := by
    rw [Array.getElem?_eq_some_iff] at h
    exact h.1
  refine ⟨⟨?_, slot⟩, by rw [cell_eq, h]; rfl⟩
  -- A number out of range denotes a space without cells.
  refine Classical.byContradiction fun out => ?_
  have none : m.space id.space = default := by
    rw [space, Array.getD_eq_getD_getElem?, Array.getElem?_eq_none (Nat.le_of_not_lt out)]
    rfl
  rw [none] at slot
  exact absurd slot (Nat.not_lt_zero _)

/-- A slot of a space is a cell that is there. -/
theorem hasCell_of_cellIn {space : SpaceId} {slot : Nat} {id : CellId}
    (h : m.cellIn space slot = .ok id) :
    m.HasCell id ∧ id.space = space := by
  rw [cellIn_eq_ok_iff] at h
  obtain ⟨lt, rfl⟩ := h
  exact ⟨(@hasCell_of_getElem? _ ⟨space, slot⟩ _ (Array.getElem?_eq_getElem lt)).1, rfl⟩

/-- A cell that is not there was never asked for. -/
theorem cell_eq_default {id : CellId} (h : ¬m.HasCell id) : m.cell id = default := by
  cases hc : (m.space id.space).cells[id.slot]? with
  | none =>
    rw [cell_eq, hc]
    rfl
  | some c => exact absurd (hasCell_of_getElem? hc).1 h

/-- Cells keep what they were laid out from. -/
theorem Grows.shape (g : m.Grows m') {space : SpaceId} (known : space < m.spaces.size) (i : Nat) :
    ((m'.space space).cells[i]?).map (·.shape) = ((m.space space).cells[i]?).map (·.shape) := by
  by_cases has : m.HasCell ⟨space, i⟩
  · rw [(has.grows g).getElem?, has.getElem?, Option.map_some, Option.map_some,
      (g.cell _ known).shape]
  · have out : ¬ i < (m.space space).cells.size := fun lt => has ⟨known, lt⟩
    rw [Array.getElem?_eq_none (by rw [(g.space space known).size]; exact Nat.le_of_not_lt out),
      Array.getElem?_eq_none (Nat.le_of_not_lt out)]

/-- No cell of a new space is being computed. -/
theorem evaluating_newSpace (m : Memory) {s : Space}
    (idle : ∀ (i : Nat) (c : Cell), s.cells[i]? = some c → c.evaluating = false) (id : CellId) :
    ((m.newSpace s).2.cell id).evaluating = (m.cell id).evaluating := by
  by_cases new : id.space = m.spaces.size
  · have before : ¬m.HasCell id := fun has => Nat.ne_of_lt has.1 new
    rw [cell_eq_default before, cell_eq, new, space_newSpace, if_pos rfl]
    cases hc : s.cells[id.slot]? with
    | none => rfl
    | some c => exact idle _ c hc
  · rw [cell, cell, space_newSpace, if_neg new]

/-- Spaces lie inside older ones, also with a new space that does. -/
theorem inside_newSpace {s : Space} (inside : ∀ id e, (m.space id).enclosing = some e → e < id)
    (new : ∀ e, s.enclosing = some e → e < m.spaces.size) (id e : SpaceId)
    (around : ((m.newSpace s).2.space id).enclosing = some e) : e < id := by
  rw [space_newSpace] at around
  split at around
  · next same => exact same ▸ new e around
  · exact inside id e around

/-- Only cells that are there have a value. -/
theorem hasCell_of_value {id : CellId} {v : Value} (h : (m.cell id).value = some v) :
    m.HasCell id := by
  cases hc : (m.space id.space).cells[id.slot]? with
  | none =>
    rw [cell_eq, hc] at h
    cases h
  | some c => exact (hasCell_of_getElem? hc).1

/-! ## What makes memory grow -/

theorem grows_newSpace (m : Memory) (s : Space) : m.Grows (m.newSpace s).2 where
  spaces := by
    rw [size_spaces_newSpace]
    exact Nat.le_succ _
  space id hid := by
    rw [space_newSpace_of_lt s hid]
    exact .refl _
  cell id hid := by
    rw [cell_newSpace_of_lt s hid]
    exact .refl _
  closures := Nat.le_refl _
  origins _ _ := rfl
  functions := Nat.le_refl _
  function _ _ := rfl
  clear clear := clear

theorem space_modifyCell_later (m : Memory) (id : CellId) (f : Cell → Cell) (other : SpaceId) :
    (m.space other).Later ((m.modifyCell id f).space other) := by
  rw [space_modifyCell]
  split
  · exact ⟨rfl, rfl, rfl, Array.size_modify ..⟩
  · exact .refl _

/-- A change of a cell that keeps what must be kept. -/
theorem grows_modifyCell {id : CellId} {f : Cell → Cell} (h : m.HasCell id)
    (later : (m.cell id).Later (f (m.cell id))) : m.Grows (m.modifyCell id f) where
  spaces := Nat.le_of_eq (size_spaces_modifyCell m id f).symm
  space other _ := space_modifyCell_later m id f other
  cell other _ := by
    rw [cell_modifyCell h]
    split
    · next he =>
      subst he
      exact later
    · exact .refl _
  closures := Nat.le_refl _
  origins _ _ := rfl
  functions := Nat.le_refl _
  function _ _ := rfl
  clear clear := clear

/-- A change that every cell survives, whether the cell that it is meant for is there or not. -/
theorem grows_modifyCell_of_later (m : Memory) (id : CellId) {f : Cell → Cell}
    (later : ∀ c : Cell, c.Later (f c)) : m.Grows (m.modifyCell id f) := by
  by_cases has : m.HasCell id
  · exact grows_modifyCell has (later _)
  · have size := size_spaces_modifyCell m id f
    refine ⟨Nat.le_of_eq size.symm, fun other _ => space_modifyCell_later m id f other,
      fun other _ => ?_, Nat.le_refl _, fun _ _ => rfl, Nat.le_refl _, fun _ _ =>
        rfl, fun clear => clear⟩
    by_cases same : other = id
    · -- Neither memory has such a cell.
      have hasnt : ¬(m.modifyCell id f).HasCell other := by
        rintro ⟨lt, slot⟩
        rw [size, same] at lt
        rw [size_cells_modifyCell, same] at slot
        exact has ⟨lt, slot⟩
      rw [cell_eq_default hasnt, same, cell_eq_default has]
      exact .refl _
    · rw [cell_modifyCell_ne m same]
      exact .refl _

theorem grows_bind (m : Memory) (id : CellId) (v : Value) : m.Grows (m.bind id v) :=
  m.grows_modifyCell_of_later id (·.later_withValue v)

theorem grows_newClosure (m : Memory) (captured : List Captured) :
    m.Grows (m.newClosure captured).2 where
  spaces := Nat.le_refl _
  space _ _ := .refl _
  cell _ _ := .refl _
  closures := by
    show _ ≤ (m.closures.push captured).size
    rw [Array.size_push]
    exact Nat.le_succ _
  origins id hid := by rw [closure_newClosure, if_neg (Nat.ne_of_lt hid)]
  functions := Nat.le_refl _
  function _ _ := rfl
  clear clear := clear

theorem origin_orValue (c : Captured) (v : Value) : (c.orValue v).origin = c.origin := by
  cases c <;> rfl

theorem origins_modify_orValue (captured : List Captured) (index : Nat) (v : Value) :
    (captured.modify index (·.orValue v)).map Captured.origin = captured.map Captured.origin := by
  refine List.ext_getElem? fun i => ?_
  rw [List.getElem?_map, List.getElem?_map, List.getElem?_modify]
  cases captured[i]? with
  | none => rfl
  | some c =>
    simp only [Option.map_eq_map, Option.map_some]
    split
    · rw [origin_orValue]
    · rfl

theorem grows_fill (m : Memory) (id : ClosureId) (index : Nat) (v : Value) :
    m.Grows (m.fill id index v) where
  spaces := Nat.le_refl _
  space _ _ := .refl _
  cell _ _ := .refl _
  closures := Nat.le_of_eq Array.size_modify.symm
  origins other _ := by
    rw [closure_fill]
    split
    · next he => rw [he, origins_modify_orValue]
    · rfl
  functions := Nat.le_refl _
  function _ _ := rfl
  clear clear := clear

/-- Filling captured symbols changes no space. -/
theorem fillAll_spaces (waiting : List Deferral) (v : Value) (m : Memory) :
    (waiting.foldl (fun m d => m.fill d.closure d.index v) m).spaces = m.spaces ∧
      m.Grows (waiting.foldl (fun m d => m.fill d.closure d.index v) m) := by
  induction waiting generalizing m with
  | nil => exact ⟨rfl, .refl m⟩
  | cons d rest ih =>
    obtain ⟨same, grows⟩ := ih (m.fill d.closure d.index v)
    exact ⟨same, (grows_fill m d.closure d.index v).trans grows⟩

theorem grows_newFunction (m : Memory) (f : FunctionObject) : m.Grows (m.newFunction f).2 where
  spaces := Nat.le_refl _
  space _ _ := .refl _
  cell _ _ := .refl _
  closures := Nat.le_refl _
  origins _ _ := rfl
  functions := by
    show _ ≤ (m.functions.push f).size
    rw [Array.size_push]
    exact Nat.le_succ _
  function id hid := by rw [function_newFunction, if_neg (Nat.ne_of_lt hid)]
  clear clear := clear

theorem grows_newObject (m : Memory) : m.Grows m.newObject.2 :=
  ⟨Nat.le_refl _, fun _ _ => .refl _, fun _ _ => .refl _, Nat.le_refl _, fun _ _ =>
    rfl, Nat.le_refl _,
    fun _ _ => rfl, id⟩

theorem grows_pin (m : Memory) (site : Code.SiteId) (cell : CellId) :
    m.Grows { m with pins := m.pins.insert site cell } :=
  ⟨Nat.le_refl _, fun _ _ => .refl _, fun _ _ => .refl _, Nat.le_refl _, fun _ _ =>
    rfl, Nat.le_refl _,
    fun _ _ => rfl, id⟩

/-- A space that nobody holds any more stays where it was. -/
theorem grows_drop (m : Memory) (space : SpaceId) : m.Grows (m.drop space) :=
  ⟨Nat.le_refl _, fun _ _ => .refl _, fun _ _ => .refl _, Nat.le_refl _, fun _ _ =>
    rfl, Nat.le_refl _,
    fun _ _ => rfl, id⟩

theorem grows_rest (m : Memory) : m.Grows { m with scratch := m.scratch.rest } :=
  ⟨Nat.le_refl _, fun _ _ => .refl _, fun _ _ => .refl _, Nat.le_refl _, fun _ _ =>
    rfl, Nat.le_refl _,
    fun _ _ => rfl, fun clear => clear.rest⟩

theorem grows_give (m : Memory) : m.Grows { m with scratch := m.scratch.give [] } :=
  ⟨Nat.le_refl _, fun _ _ => .refl _, fun _ _ => .refl _, Nat.le_refl _, fun _ _ =>
    rfl, Nat.le_refl _,
    fun _ _ => rfl, fun clear => clear.give⟩

end Memory

end CellScript
