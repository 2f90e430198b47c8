import CellScript.Proofs.Code.Templates
import CellScript.Proofs.Memory.Mirrors

/-!
# Static memory is laid out

Laying out a compiled program succeeds. Every member scope gets a space, in the cell of the symbol
that owns it, and what was true of memory stays true. Owners stand in older scopes than their
members, so that the depth allowed suffices.

* `Memory.Furnished`, `Memory.Planned` — a cell has the space of its members, a space its template
* `Layout.Keeps` — laying out keeps something true of memory
* `Layout.Lays` — what laying out leaves behind
* `Layout.program_lays`, `Layout.Lays.mirrors` — the whole program is laid out, and mirrors the
  arena
-/

namespace CellScript

open Code (Template)

variable {a : Analysis} {I : Memory → Prop} {T : Table ScopeId Template} {m m' : Memory}
  {l l₁ l' l'' : Layout} {σ : ScopeId}

/-- The space was laid out from the template that is known for its scope. -/
structure Memory.Planned (m : Memory) (T : Table ScopeId Template) (space : SpaceId) : Prop where
  template : T.get? (m.space space).template.scope = some (m.space space).template
  cells : ∀ i : Nat, ((m.space space).cells[i]?).map (·.shape) = (m.space space).template.slots[i]?

theorem Memory.Planned.grows {space : SpaceId} (h : m.Planned T space)
    (known : space < m.spaces.size) (g : m.Grows m') : m'.Planned T space := by
  have later := g.space space known
  refine ⟨by rw [later.template]; exact h.template, fun i => ?_⟩
  rw [later.template, ← h.cells i]
  exact g.shape known i

/-- The cell has the space of its members, if its symbol has members. -/
def Memory.Furnished (m : Memory) (id : CellId) : Prop :=
  ∀ σ, (m.cell id).shape.members = some σ → ∃ space, (m.cell id).members = some space ∧
    id.space < space ∧ space < m.spaces.size ∧ (m.space space).template.scope = σ

theorem Memory.Furnished.grows {id : CellId} (h : m.Furnished id) (known : id.space < m.spaces.size)
    (g : m.Grows m') : m'.Furnished id := by
  intro σ members
  have later := g.cell id known
  rw [later.shape] at members
  obtain ⟨space, there, after, lt, scope⟩ := h σ members
  exact ⟨space, later.members space there, after, Nat.lt_of_lt_of_le lt g.spaces,
    by rw [(g.space _ lt).template]; exact scope⟩

/-- Every cell of a new space is empty. -/
theorem Memory.cell_newSpace_ofTemplate (m : Memory) (t : Template) (enclosing : Option SpaceId)
    (closure : Option ClosureId) {id : CellId} (new : id.space = m.spaces.size)
    (has : (m.newSpace (.ofTemplate t enclosing closure)).2.HasCell id) :
    ∃ slot ∈ t.slots, (m.newSpace (.ofTemplate t enclosing closure)).2.cell id =
      Cell.ofSlot slot := by
  have found := has.getElem?
  rw [new, Memory.space_newSpace, if_pos rfl] at found
  change ((t.slots.map Cell.ofSlot).toArray)[id.slot]? = _ at found
  rw [List.getElem?_toArray, List.getElem?_map, Option.map_eq_some_iff] at found
  obtain ⟨slot, there, eq⟩ := found
  exact ⟨slot, List.mem_of_getElem? there, eq.symm⟩

theorem Memory.mem_cellsOf {space : SpaceId} {id : CellId} :
    id ∈ m.cellsOf space ↔ id.space = space ∧ id.slot < (m.space space).cells.size := by
  rw [Memory.cellsOf, List.mem_map]
  constructor
  · rintro ⟨slot, lt, rfl⟩
    exact ⟨rfl, List.mem_range.mp lt⟩
  · rintro ⟨rfl, lt⟩
    exact ⟨id.slot, List.mem_range.mpr lt, rfl⟩

theorem Memory.hasCell_of_mem {space : SpaceId} {id : CellId} (h : id ∈ m.cellsOf space) :
    m.HasCell id := by
  obtain ⟨rfl, slot⟩ := Memory.mem_cellsOf.mp h
  exact (Memory.hasCell_of_getElem? (Array.getElem?_eq_getElem slot)).1

theorem Memory.nodup_cellsOf (m : Memory) (space : SpaceId) : (m.cellsOf space).Nodup := by
  refine List.Nodup.map (fun i j h => ?_) List.nodup_range
  exact congrArg CellId.slot h

namespace Layout

/-! ## Single steps -/

section Steps

variable {layOut : ScopeId → Step SpaceId} {id : CellId} {rest : List CellId}

theorem members_of_none (h : (l.memory.cell id).shape.members = none) :
    members layOut (id :: rest) l = members layOut rest l := by
  simp only [members, bind, StateT.bind, get, getThe, MonadStateOf.get, StateT.get, pure,
    Except.pure, Except.bind, h]

theorem members_of_some {space : SpaceId} (h : (l.memory.cell id).shape.members = some σ)
    (laid : layOut σ l = .ok (space, l₁)) :
    members layOut (id :: rest) l = members layOut rest { l₁ with
      memory := l₁.memory.modifyCell id fun c => { c with members := some space } } := by
  simp only [members, bind, StateT.bind, get, getThe, MonadStateOf.get, StateT.get, pure,
    Except.pure, Except.bind, h, laid]
  rfl

theorem scope_of_some {arena : Arena} {fuel : Nat} {parent : SpaceId} {t : Template}
    (found : T.get? σ = some t) {enclosing : SpaceId}
    (around : enclosing = ((arena.scope σ).enclosing.bind (l.spaces.get? ·)).getD parent)
    (laid : members (fun inner => scope arena T fuel inner (l.memory.nested t enclosing).1)
      ((l.memory.nested t enclosing).2.cellsOf (l.memory.nested t enclosing).1)
      ⟨(l.memory.nested t enclosing).2, l.spaces.insert σ (l.memory.nested t enclosing).1⟩ =
        .ok (⟨⟩, l₁)) :
    scope arena T (fuel + 1) σ parent l = .ok ((l.memory.nested t enclosing).1, l₁) := by
  subst around
  simp only [scope, bind, StateT.bind, get, getThe, MonadStateOf.get, StateT.get, pure,
    Except.pure, Except.bind, found, add, modifyGet, MonadStateOf.modifyGet, StateT.modifyGet, laid]
  rfl

end Steps

/-! ## What laying out leaves behind -/

/-- The spaces of scopes are there. -/
def Known (l : Layout) : Prop := ∀ σ space, l.spaces.get? σ = some space →
    space < l.memory.spaces.size

/-- Everything laid out between two states is planned, and its cells have the spaces of their
members. The cells in the list have them as well; other cells are as they were. -/
structure Lays (I : Memory → Prop) (T : Table ScopeId Template) (ids : List CellId)
    (l l' : Layout) :
    Prop where
  memory : I l'.memory
  grows : l.memory.Grows l'.memory
  planned : ∀ space, l.memory.spaces.size ≤ space → space < l'.memory.spaces.size →
    l'.memory.Planned T space
  fresh : ∀ id, l.memory.spaces.size ≤ id.space → l'.memory.HasCell id → l'.memory.Furnished id
  done : ∀ id ∈ ids, l'.memory.Furnished id
  same : ∀ id, id.space < l.memory.spaces.size → id ∉ ids → l'.memory.cell id = l.memory.cell id
  known : l.Known → l'.Known

/-- A space of the scope was laid out, with everything in it. -/
def LaysOut (I : Memory → Prop) (T : Table ScopeId Template) (l : Layout) (σ : ScopeId)
    (r : Except Exception (SpaceId × Layout)) : Prop :=
  ∃ space l', r = .ok (space, l') ∧ Lays I T [] l l' ∧ l.memory.spaces.size ≤ space ∧
    space < l'.memory.spaces.size ∧ (l'.memory.space space).template.scope = σ

/-- What is true of memory stays true when a scope outside all functions is laid out, and when a
cell gets the space of its members. -/
structure Keeps (a : Analysis) (T : Table ScopeId Template) (I : Memory → Prop) : Prop where
  newSpace : ∀ {m : Memory} {σ : ScopeId} {t : Template} (enclosing : Option SpaceId), I m →
    (∀ e, enclosing = some e → e < m.spaces.size) → T.get? σ = some t →
      (a.arena.scope σ).kind.isDynamic = false → (a.arena.scope σ).kind ≠ .global →
        I (m.newSpace (.ofTemplate t enclosing none)).2
  setMembers : ∀ {m : Memory} {id : CellId} {space : SpaceId} {σ : ScopeId}, I m → m.HasCell id →
    (m.cell id).members = none → (m.cell id).shape.members = some σ → space < m.spaces.size →
      I (m.modifyCell id fun c => { c with members := some space })

/-- Two facts that laying out keeps, as one. -/
theorem Keeps.and {J : Memory → Prop} (h : Keeps a T I) (h' : Keeps a T J) :
    Keeps a T fun m => I m ∧ J m where
  newSpace enclosing holds around found static ne :=
    ⟨h.newSpace enclosing holds.1 around found static ne, h'.newSpace enclosing holds.2 around
      found static ne⟩
  setMembers holds has bare members known :=
    ⟨h.setMembers holds.1 has bare members known, h'.setMembers holds.2 has bare members known⟩

theorem Lays.refl (kept : I l.memory) : Lays I T [] l l :=
  ⟨kept, .refl _, fun _ new lt => absurd lt (Nat.not_lt_of_le new),
    fun _ new has => absurd has.1 (Nat.not_lt_of_le new), fun _ h => (by cases h), fun _ _ _ => rfl,
    fun h => h⟩

theorem Lays.trans {first more : List CellId} (h : Lays I T first l l') (h' : Lays I T more l' l'')
    (known : ∀ id ∈ first, id.space < l.memory.spaces.size) : Lays I T (first ++ more) l l'' := by
  refine ⟨h'.memory, h.grows.trans h'.grows, fun space new lt => ?_, fun id new has => ?_,
    fun id mem => ?_, fun id old out => ?_, fun h₁ => h'.known (h.known h₁)⟩
  · by_cases there : space < l'.memory.spaces.size
    · exact (h.planned space new there).grows there h'.grows
    · exact h'.planned space (Nat.le_of_not_lt there) lt
  · by_cases lt : id.space < l'.memory.spaces.size
    · exact (h.fresh id new ⟨lt, by rw [← (h'.grows.space _ lt).size]; exact has.2⟩).grows
        lt h'.grows
    · exact h'.fresh id (Nat.le_of_not_lt lt) has
  · rcases List.mem_append.mp mem with mem | mem
    · exact (h.done id mem).grows (Nat.lt_of_lt_of_le (known id mem) h.grows.spaces) h'.grows
    · exact h'.done id mem
  · rw [List.mem_append, not_or] at out
    rw [h'.same id (Nat.lt_of_lt_of_le old h.grows.spaces) out.2, h.same id old out.1]

/-- A cell without members gets the space that was laid out for them. -/
theorem Lays.setMembers {id : CellId} {space : SpaceId} (keeps : Keeps a T I) (h : Lays I T [] l l')
    (has : l.memory.HasCell id) (bare : (l.memory.cell id).members = none)
    (members : (l.memory.cell id).shape.members = some σ) (new : l.memory.spaces.size ≤ space)
    (known : space < l'.memory.spaces.size)
    (scope : (l'.memory.space space).template.scope = σ) :
    Lays I T [id] l { l' with
      memory := l'.memory.modifyCell id fun c => { c with members := some space } } := by
  have has' := has.grows h.grows
  have cell := h.same id has.1 List.not_mem_nil
  have later : (l'.memory.cell id).Later ((fun c : Cell => { c with members := some space })
      (l'.memory.cell id)) := by
    refine ⟨rfl, fun s hs => ?_, fun v hv => hv, fun e he => he⟩
    rw [cell, bare] at hs
    cases hs
  have grows :=
    Memory.grows_modifyCell (f := fun c : Cell => { c with members := some space }) has' later
  have furnished :
      Memory.Furnished (l'.memory.modifyCell id fun c => { c with members := some space }) id := by
    intro τ hτ
    rw [Memory.cell_modifyCell_self has'] at hτ ⊢
    change (l'.memory.cell id).shape.members = some τ at hτ
    rw [cell, members] at hτ
    cases hτ
    exact ⟨space, rfl, Nat.lt_of_lt_of_le has.1 new, Nat.lt_of_lt_of_le known grows.spaces,
      by rw [(grows.space _ known).template]; exact scope⟩
  refine ⟨keeps.setMembers h.memory has' (by rw [cell]; exact bare) (by rw [cell]; exact members)
    known, h.grows.trans grows, fun other new there => ?_, fun other new there =>
      ?_, fun other mem => ?_,
    fun other old out => ?_, fun before τ there found => ?_⟩
  · change other < (l'.memory.modifyCell id _).spaces.size at there
    rw [Memory.size_spaces_modifyCell] at there
    exact (h.planned other new there).grows there grows
  · change Memory.HasCell (l'.memory.modifyCell id _) other at there
    have there' : l'.memory.HasCell other := by
      refine ⟨by rw [← Memory.size_spaces_modifyCell]; exact there.1, ?_⟩
      rw [← Memory.size_cells_modifyCell]
      exact there.2
    exact (h.fresh other new there').grows there'.1 grows
  · rw [List.mem_singleton.mp mem]
    exact furnished
  · rw [List.mem_singleton] at out
    show (l'.memory.modifyCell id _).cell other = _
    rw [Memory.cell_modifyCell_ne _ out]
    exact h.same other old List.not_mem_nil
  · show there < (l'.memory.modifyCell id _).spaces.size
    rw [Memory.size_spaces_modifyCell]
    exact h.known before τ there found

/-- **The members of all cells are laid out**, provided that each of them can be. -/
theorem members_lays {layOut : ScopeId → Step SpaceId} (keeps : Keeps a T I) (ids : List CellId)
    (kept : I l.memory) (places : l.Known) (nodup : ids.Nodup)
    (has : ∀ id ∈ ids, l.memory.HasCell id) (bare : ∀ id ∈ ids, (l.memory.cell id).members = none)
    (step : ∀ id ∈ ids, ∀ σ, (l.memory.cell id).shape.members = some σ → ∀ l₁,
      I l₁.memory → l₁.Known → l.memory.Grows l₁.memory → LaysOut I T l₁ σ (layOut σ l₁)) :
    ∃ l', members layOut ids l = .ok (⟨⟩, l') ∧ Lays I T ids l l' := by
  induction ids generalizing l with
  | nil => exact ⟨l, rfl, .refl kept⟩
  | cons id rest ih =>
    rw [List.forall_mem_cons] at has bare step
    rw [List.nodup_cons] at nodup
    -- After the first cell, the others are as they were.
    obtain ⟨l₁, eq, lays⟩ : ∃ l₁, members layOut (id :: rest) l = members layOut rest l₁ ∧
        Lays I T [id] l l₁ := by
      cases hm : (l.memory.cell id).shape.members with
      | none =>
        have nothing := Lays.refl (T := T) kept
        refine ⟨l, members_of_none hm, kept, .refl _, nothing.planned, nothing.fresh,
          fun other mem σ hσ => ?_, fun _ _ _ => rfl, fun h => h⟩
        rw [List.mem_singleton.mp mem, hm] at hσ
        cases hσ
      | some σ =>
        obtain ⟨space, l₁, laid, lays, new, known, scope⟩ :=
          step.1 σ hm l kept places (.refl _)
        exact ⟨_, members_of_some hm laid, lays.setMembers keeps has.1 bare.1 hm new known scope⟩
    have cell : ∀ other ∈ rest, l₁.memory.cell other = l.memory.cell other := by
      intro other mem
      refine lays.same other (has.2 other mem).1 fun same => nodup.1 ?_
      rw [← List.mem_singleton.mp same]
      exact mem
    obtain ⟨l', eq', lays'⟩ :=
      ih lays.memory (lays.known places) nodup.2 (fun other mem =>
        (has.2 other mem).grows lays.grows)
      (fun other mem => by rw [cell other mem]; exact bare.2 other mem)
      fun other mem σ hσ l₂ kept₂ places₂ grows₂ => step.2 other mem σ
        (by rw [← cell other mem]; exact hσ) l₂ kept₂ places₂ (lays.grows.trans grows₂)
    refine ⟨l', eq.trans eq', lays.trans lays' fun other mem => ?_⟩
    rw [List.mem_singleton.mp mem]
    exact has.1.1

/-! ## Scopes -/

/-- What laying out is given: templates that show their scopes, for whatever has members. -/
structure Plans (a : Analysis) (T : Table ScopeId Template) : Prop extends a.Rooted where
  template : ∀ σ t, T.get? σ = some t → a.Shows σ t
  members : ∀ s σ, (a.arena.symbol s).members = some σ → ∃ t, T.get? σ = some t

/-- What a cell of a new space has members in lies deeper than the scope of the space. -/
theorem Plans.deeper (plans : Plans a T) {t : Template} (found : T.get? σ = some t)
    {slot : Code.Slot} (mem : slot ∈ t.slots) {inner : ScopeId}
    (members : slot.members = some inner) :
    σ < inner ∧ ∃ s, (a.arena.scope inner).kind = .members s := by
  obtain ⟨rfl, symbols, slots⟩ := plans.template σ t found
  rw [slots slot mem] at members
  have place : slot.symbol ∈ (a.arena.scope t.scope).slots := by
    rw [← symbols]
    exact List.mem_map.mpr ⟨slot, mem, rfl⟩
  obtain ⟨i, at'⟩ := List.getElem?_of_mem place
  obtain ⟨-, home, -⟩ := plans.ready.slot _ i _ at'
  have lt := plans.ready.deeper _ _ members
  rw [home] at lt
  exact ⟨lt, _, plans.ready.members _ _ members⟩

/-- A new space is planned. -/
theorem planned_newSpace (m : Memory) (enclosing : Option SpaceId) {t : Template}
    (found : T.get? t.scope = some t) :
    (m.newSpace (.ofTemplate t enclosing none)).2.Planned T m.spaces.size := by
  have here : (m.newSpace (.ofTemplate t enclosing none)).2.space m.spaces.size =
      .ofTemplate t enclosing none := by
    rw [Memory.space_newSpace, if_pos rfl]
  refine ⟨by rw [here]; exact found, fun i => ?_⟩
  rw [here]
  show ((t.slots.map Cell.ofSlot).toArray[i]?).map (·.shape) = t.slots[i]?
  rw [List.getElem?_toArray, List.getElem?_map, Option.map_map]
  cases t.slots[i]? <;> rfl

/-- The members of the cells of a new space are laid out, if they can be in the order that is
given. -/
theorem newSpace_lays (keeps : Keeps a T I) (layOut : ScopeId → Step SpaceId)
    (spaces old : Table ScopeId SpaceId) {enclosing : Option SpaceId} {t : Template}
    {order : List CellId} (found : T.get? t.scope = some t)
    (kept : I (m.newSpace (.ofTemplate t enclosing none)).2)
    (places : Known ⟨(m.newSpace (.ofTemplate t enclosing none)).2, spaces⟩)
    (perm : order.Perm ((m.newSpace (.ofTemplate t enclosing none)).2.cellsOf m.spaces.size))
    (step : ∀ slot ∈ t.slots, ∀ inner, slot.members = some inner → ∀ l₁, I l₁.memory → l₁.Known →
      m.spaces.size < l₁.memory.spaces.size → LaysOut I T l₁ inner (layOut inner l₁)) :
    ∃ l', members layOut order ⟨(m.newSpace (.ofTemplate t enclosing none)).2, spaces⟩ =
        .ok (⟨⟩, l') ∧ Lays I T [] ⟨m, old⟩ l' ∧ m.spaces.size < l'.memory.spaces.size ∧
        (l'.memory.space m.spaces.size).template.scope = t.scope := by
  have grows := Memory.grows_newSpace m (.ofTemplate t enclosing none)
  have here : (m.newSpace (.ofTemplate t enclosing none)).2.space m.spaces.size =
      .ofTemplate t enclosing none := by
    rw [Memory.space_newSpace, if_pos rfl]
  have size := Memory.size_spaces_newSpace m (.ofTemplate t enclosing none)
  have mem : ∀ id, id ∈ order ↔ id.space = m.spaces.size ∧
      (m.newSpace (.ofTemplate t enclosing none)).2.HasCell id := by
    intro id
    rw [perm.mem_iff, Memory.mem_cellsOf]
    constructor
    · rintro ⟨space, slot⟩
      exact ⟨space, by rw [space, size]; exact Nat.lt_succ_self _, by rw [space]; exact slot⟩
    · rintro ⟨space, has⟩
      exact ⟨space, by rw [← space]; exact has.2⟩
  have lt : m.spaces.size < (m.newSpace (.ofTemplate t enclosing none)).2.spaces.size := by
    rw [size]
    exact Nat.lt_succ_self _
  obtain ⟨l', eq, lays⟩ := members_lays (l := ⟨_, spaces⟩) keeps order kept places
    (perm.nodup_iff.mpr (Memory.nodup_cellsOf _ _)) (fun id hid => ((mem id).mp hid).2)
    (fun id hid => by
      obtain ⟨new, has⟩ := (mem id).mp hid
      obtain ⟨slot, -, cell⟩ := Memory.cell_newSpace_ofTemplate m t enclosing none new has
      show ((m.newSpace _).2.cell id).members = none
      rw [cell]
      rfl)
    fun id hid inner hi l₁ kept₁ places₁ grows₁ => by
      obtain ⟨new, has⟩ := (mem id).mp hid
      obtain ⟨slot, hs, cell⟩ := Memory.cell_newSpace_ofTemplate m t enclosing none new has
      change ((m.newSpace _).2.cell id).shape.members = some inner at hi
      rw [cell] at hi
      exact step slot hs inner hi l₁ kept₁ places₁ (Nat.lt_of_lt_of_le lt grows₁.spaces)
  -- A space that was not there before is the new one or was laid out in it.
  have same : ∀ {space : SpaceId}, m.spaces.size ≤ space →
      space < (m.newSpace (.ofTemplate t enclosing none)).2.spaces.size →
        space = m.spaces.size := by
    intro space new there
    rw [size] at there
    exact Nat.le_antisymm (Nat.le_of_lt_succ there) new
  refine ⟨l', eq, ⟨lays.memory, grows.trans lays.grows, fun space new known =>
    ?_, fun id new has => ?_,
    fun _ h => (by cases h), fun id old _ => ?_, fun _ => lays.known places⟩,
    Nat.lt_of_lt_of_le lt lays.grows.spaces, ?_⟩
  · by_cases there : space < (m.newSpace (.ofTemplate t enclosing none)).2.spaces.size
    · have planned := (planned_newSpace m enclosing found).grows lt lays.grows
      rw [same new there]
      exact planned
    · exact lays.planned space (Nat.le_of_not_lt there) known
  · by_cases there : id.space < (m.newSpace (.ofTemplate t enclosing none)).2.spaces.size
    · have had : (m.newSpace (.ofTemplate t enclosing none)).2.HasCell id :=
        ⟨there, by rw [← (lays.grows.space _ there).size]; exact has.2⟩
      exact lays.done id ((mem id).mpr ⟨same new there, had⟩)
    · exact lays.fresh id (Nat.le_of_not_lt there) has
  · rw [lays.same id (Nat.lt_of_lt_of_le old grows.spaces) fun h => ?_]
    · exact Memory.cell_newSpace_of_lt _ old
    · exact absurd ((mem id).mp h).1 (Nat.ne_of_lt old)
  · rw [(lays.grows.space _ lt).template]
    show ((m.newSpace _).2.space m.spaces.size).template.scope = _
    rw [here]
    rfl

/-- The space that is laid out next is one of those known then. -/
theorem Known.insert {spaces : Table ScopeId SpaceId} (h : Known ⟨m, spaces⟩)
    (σ : ScopeId) (s : Space) :
    Known ⟨(m.newSpace s).2, spaces.insert σ m.spaces.size⟩ := by
  intro τ space found
  show space < (m.newSpace s).2.spaces.size
  rw [Memory.size_spaces_newSpace]
  change (spaces.insert σ m.spaces.size).get? τ = some space at found
  rw [Table.get?_insert] at found
  split at found
  · cases found
    exact Nat.lt_succ_self _
  · exact Nat.lt_succ_of_lt (h τ space found)

/-- **A member scope is laid out with everything in it.** The depth that is allowed suffices,
because members lie deeper than their owners. -/
theorem scope_lays (plans : Plans a T) (keeps : Keeps a T I) (fuel : Nat) (parent : SpaceId)
    (kept : I l.memory) (places : l.Known) (inside : parent < l.memory.spaces.size)
    (deep : a.arena.scopes.size - σ < fuel) {s : SymbolId}
    (kind : (a.arena.scope σ).kind = .members s) :
    LaysOut I T l σ (scope a.arena T fuel σ parent l) := by
  induction fuel generalizing σ s parent l with
  | zero => exact absurd deep (Nat.not_lt_zero _)
  | succ fuel ih =>
    obtain ⟨t, found⟩ := plans.members s σ (plans.ready.owner σ s kind).2
    obtain ⟨rfl, -, -⟩ := plans.template σ t found
    have around :
        ∀ e, some (((a.arena.scope t.scope).enclosing.bind (l.spaces.get? ·)).getD parent) =
        some e → e < l.memory.spaces.size := by
      rintro _ ⟨⟩
      cases hp : (a.arena.scope t.scope).enclosing.bind (l.spaces.get? ·) with
      | none => exact inside
      | some space =>
        obtain ⟨outer, -, found⟩ := Option.bind_eq_some_iff.mp hp
        exact places outer space found
    have new := keeps.newSpace _ kept around found (by rw [kind]; rfl)
      (by rw [kind]; exact fun h => by cases h)
    obtain ⟨l', eq, lays, known, scope⟩ := newSpace_lays keeps
      (fun inner => Layout.scope a.arena T fuel inner l.memory.spaces.size)
      (l.spaces.insert t.scope l.memory.spaces.size) l.spaces found new (places.insert _ _)
      (.refl _) fun slot hs inner hi l₁ kept₁ places₁ there => by
        obtain ⟨deeper, owner, kind'⟩ := plans.deeper found hs hi
        have lt : inner < a.arena.scopes.size :=
          Arena.lt_size_of_kind (by rw [kind']; exact fun h => by cases h)
        have less : a.arena.scopes.size - inner < a.arena.scopes.size - t.scope :=
          Nat.sub_lt_sub_left (Nat.lt_trans deeper lt) deeper
        exact ih _ kept₁ places₁ there (Nat.lt_of_lt_of_le less (Nat.le_of_lt_succ deep)) kind'
    exact ⟨_, l', scope_of_some found rfl eq, lays, Nat.le_refl _, known, scope⟩

/-! ## The program -/

theorem program_of_some {arena : Arena} {t : Template} (found : T.get? Analysis.unitsScope = some t)
    (laid : members (fun id => scope arena T (arena.scopes.size + 1) id (l.memory.root t).1)
      (unitOrder arena (l.memory.root t).2 (l.memory.root t).1)
      ⟨(l.memory.root t).2, l.spaces.insert Analysis.unitsScope (l.memory.root t).1⟩ =
        .ok (⟨⟩, l₁)) :
    program arena T l = .ok ((l.memory.root t).1, l₁) := by
  simp only [program, bind, StateT.bind, get, getThe, MonadStateOf.get, StateT.get, pure,
    Except.pure, Except.bind, found, add, modifyGet, MonadStateOf.modifyGet, StateT.modifyGet, laid]
  rfl

theorem unitOrder_perm (arena : Arena) (m : Memory) (units : SpaceId) :
    (unitOrder arena m units).Perm (m.cellsOf units) := by
  rw [unitOrder, List.partition_eq_filter_filter]
  exact List.perm_append_comm.trans (List.filter_append_perm _ _)

/-- **A compiled program is laid out.** -/
theorem program_lays (plans : Plans a T) (keeps : Keeps a T I)
    (root : ∃ t, T.get? Analysis.unitsScope = some t) (kept : I m) :
    ∃ units l', program a.arena T ⟨m, []⟩ = .ok (units, l') ∧ Lays I T [] ⟨m, []⟩ l' ∧
      m.spaces.size ≤ units ∧ units < l'.memory.spaces.size ∧
      (l'.memory.space units).template.scope = Analysis.unitsScope := by
  obtain ⟨t, found⟩ := root
  obtain ⟨same, -, -⟩ := plans.template _ t found
  have kind := (plans.ready.units _).mpr rfl
  have new := keeps.newSpace none kept (fun e he => by cases he) found (by rw [kind]; rfl)
    (by rw [kind]; exact fun h => by cases h)
  obtain ⟨l', eq, lays, known, scope⟩ := newSpace_lays keeps
    (fun id => Layout.scope a.arena T (a.arena.scopes.size + 1) id m.spaces.size)
    (Table.insert [] Analysis.unitsScope m.spaces.size) []
    (by rw [same]; exact found) new (Known.insert (fun _ _ h => (by cases h)) _ _)
    (unitOrder_perm a.arena _ _) fun slot hs inner hi l₁ kept₁ places₁ there => by
      obtain ⟨-, owner, kind'⟩ := plans.deeper found hs hi
      exact scope_lays plans keeps _ _ kept₁ places₁ there (Nat.lt_succ_of_le (Nat.sub_le ..)) kind'
  exact ⟨_, l', program_of_some found eq, lays, Nat.le_refl _, known, scope.trans same⟩

/-- What has been laid out mirrors the arena. -/
theorem Lays.mirrors (h : Lays I T [] l l') (plans : Plans a T) {root : SpaceId}
    (new : l.memory.spaces.size ≤ root)
    (known : root < l'.memory.spaces.size)
    (scope : (l'.memory.space root).template.scope = Analysis.unitsScope) :
    l'.memory.Mirrors a (fun space => l.memory.spaces.size ≤ space ∧ space < l'.memory.spaces.size)
      root := by
  refine ⟨fun _ hs => hs.2, ⟨new, known⟩, scope, fun {space slot t} hs ht => ?_⟩
  have planned := h.planned space hs.1 hs.2
  obtain ⟨-, symbols, members⟩ := plans.template _ _ planned.template
  rw [← symbols, List.getElem?_map, Option.map_eq_some_iff] at ht
  obtain ⟨shape, at', rfl⟩ := ht
  have cells := planned.cells slot
  rw [at', Option.map_eq_some_iff] at cells
  obtain ⟨c, found, rfl⟩ := cells
  obtain ⟨has, cell⟩ : l'.memory.HasCell ⟨space, slot⟩ ∧ l'.memory.cell ⟨space, slot⟩ = c :=
    Memory.hasCell_of_getElem? found
  refine ⟨has, by rw [cell], fun σ hσ => ?_⟩
  rw [← members _ (List.mem_of_getElem? at'), ← cell] at hσ
  obtain ⟨inner, there, after, lt, inside⟩ := h.fresh ⟨space, slot⟩ hs.1 has σ hσ
  exact ⟨inner, there, ⟨Nat.le_trans hs.1 (Nat.le_of_lt after), lt⟩, inside⟩

end Layout

end CellScript
