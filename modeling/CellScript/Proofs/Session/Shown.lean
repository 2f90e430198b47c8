import CellScript.Proofs.Session.Definitions

/-!
# What is shown of a space

The values known in a space are shown as a dictionary, with one entry for each cell that has a name
of its own: a dictionary of its members, or its value. Showing a space only creates dictionaries.

* `Entries.get?_ofList_cons` — what a collected dictionary holds
* `Memory.Displays` — a value shows a space
* `Session.spaceValues_displays` — what is shown of a space displays it
-/

namespace CellScript

variable {a : Analysis} {K : FunctionId → Ty → Prop} {M : Machine} {m : Memory} {α : Type}

namespace Entries

theorem get?_ofList_cons {rest : Entries α} (sorted : rest.Sorted) (k : String) (v : α)
    (key : String) :
    (ofList ((k, v) :: rest)).get? key = (rest.get? key).or (if k = key then some v else none) := by
  change (((insert [] k v) : Entries α).merge rest).get? key = _
  rw [get?_merge sorted, get?_insert, get?_nil]

end Entries

/-- Cells of one space have different names. -/
theorem MemoryOk.eq_of_name (ok : MemoryOk a K m) (rooted : a.Rooted) {id other : CellId}
    (has : m.HasCell id) (hasOther : m.HasCell other) (inside : other.space = id.space)
    (name : (m.cell other).name = (m.cell id).name) : other = id := by
  have laid := ok.laid id.space has.1 (ok.scope_ne has)
  have slotOf : ∀ {id' : CellId}, m.HasCell id' → id'.space = id.space →
      (a.arena.scope (m.space id.space).template.scope).slots[id'.slot]? =
        some (m.cell id').shape.symbol := by
    intro id' has' inside'
    rw [← laid.symbols, ← inside', has'.getElem?, Option.map_some]
  have first := slotOf has rfl
  have second := slotOf hasOther inside
  obtain ⟨known, home, place⟩ := rooted.ready.slot _ _ _ first
  obtain ⟨known', home', place'⟩ := rooted.ready.slot _ _ _ second
  have named := rooted.ready.named _ known
  have named' := rooted.ready.named _ known'
  rw [home, ← (ok.cell has).shape.name] at named
  rw [home', ← (ok.cell hasOther).shape.name] at named'
  rw [Cell.name, Cell.name] at name
  rw [name, named, Option.some.injEq] at named'
  obtain ⟨space, slot⟩ := id
  obtain ⟨space', slot'⟩ := other
  cases inside
  rw [named', place'] at place
  cases place
  rfl

/-- The entries hold what is shown of a cell: what `R` relates to the space of its members, or the
value of its definition if it has one. -/
structure Cell.Entered (R : SpaceId → Value → Prop) (c : Cell)
    (entries : Entries Value) : Prop where
  members : ∀ inner, c.members = some inner → ∃ w, Entries.get? entries c.name = some w ∧ R inner w
  value : c.members = none → c.shape.init.isSome = true → Entries.get? entries c.name = c.value

/-- Whatever is found under the name of the cell in the one is found there in the other. -/
theorem Cell.Entered.of_same {R : SpaceId → Value → Prop} {c : Cell} {entries more : Entries Value}
    (h : c.Entered R entries) (same : Entries.get? more c.name = Entries.get? entries c.name) :
    c.Entered R more :=
  ⟨fun inner members => by rw [same]; exact h.members inner members,
    fun bare init => by rw [same]; exact h.value bare init⟩

/-- The value shows the space, at most `depth` levels deep: a dictionary with an entry for each cell
that has a name of its own. -/
def Memory.Displays (m : Memory) : Nat → SpaceId → Value → Prop
  | 0, _, v => ∃ o, v = .dict o []
  | depth + 1, space, v => ∃ o entries, v = .dict o entries ∧ ∀ id ∈ m.cellsOf space,
      (∀ other ∈ m.cellsOf space, (m.cell other).name = (m.cell id).name → other = id) →
        (m.cell id).Entered (m.Displays depth) entries

/-- The machine after some more lists and dictionaries were created. -/
def Machine.counted (M : Machine) (objects : Nat) : Machine :=
  { M with memory := { M.memory with objects := objects } }

namespace Session

/-- What is shown of a cell, with only lists and dictionaries created. -/
theorem shown_counted {inner : SpaceId → Eval Value} {R : SpaceId → Value → Prop}
    (total : ∀ space n, ∃ w n', inner space (M.counted n) = .ok w (M.counted n') ∧ R space w)
    (c : Cell) (n : Nat) : ∃ r n', shown inner c (M.counted n) = .ok r (M.counted n') ∧
      (∀ space, c.members = some space → ∃ w, r = some w ∧ R space w) ∧
      (c.members = none → c.shape.init.isSome = true → r = c.value) := by
  cases hm : c.members with
  | some space =>
    obtain ⟨w, n', eq, related⟩ := total space n
    refine ⟨some w, n', ?_, fun space' h => ?_, fun h => by cases h⟩
    · simp only [shown, hm]
      rw [Eval.bind_of_ok eq]
      rfl
    · cases h
      exact ⟨w, rfl, related⟩
  | none =>
    refine ⟨_, n, by simp only [shown, hm]; rfl, fun space h => (by cases h), fun _ init => ?_⟩
    rw [if_pos init]

/-- The entries of some cells hold what is shown of each cell that has a name of its own. -/
theorem entriesOf_entered {inner : SpaceId → Eval Value} {R : SpaceId → Value → Prop}
    (total : ∀ space n, ∃ w n', inner space (M.counted n) = .ok w (M.counted n') ∧ R space w)
    (ids : List CellId) (nodup : ids.Nodup) (n : Nat) : ∃ entries n',
    entriesOf inner ids (M.counted n) = .ok entries (M.counted n') ∧ entries.Sorted ∧
      (∀ name w, Entries.get? entries name = some w → ∃ id ∈ ids, (M.memory.cell id).name = name) ∧
      ∀ id ∈ ids, (∀ other ∈ ids, (M.memory.cell other).name = (M.memory.cell id).name →
        other = id) →
        (M.memory.cell id).Entered R entries := by
  induction ids generalizing n with
  | nil => exact ⟨[], n, rfl, Entries.sorted_nil, fun _ _ h => (by cases h), fun _ h => by cases h⟩
  | cons id rest ih =>
    rw [List.nodup_cons] at nodup
    obtain ⟨r, n₁, first, members, value⟩ := shown_counted total (M.memory.cell id) n
    obtain ⟨entries, n₂, walk, sorted, named, all⟩ := ih nodup.2 n₁
    -- No other cell has the name of the first one, if that one has a name of its own.
    have absent : (∀ other ∈ id :: rest,
        (M.memory.cell other).name = (M.memory.cell id).name → other = id) →
          Entries.get? entries (M.memory.cell id).name = none := by
      intro own
      cases hg : Entries.get? entries (M.memory.cell id).name with
      | none => rfl
      | some w =>
        obtain ⟨other, mem, name⟩ := named _ w hg
        have same := own other (List.mem_cons_of_mem _ mem) name
        rw [same] at mem
        exact absurd mem nodup.1
    have apart : ∀ {other : CellId}, other ∈ rest → (∀ third ∈ id :: rest,
        (M.memory.cell third).name = (M.memory.cell other).name → third = other) →
          (M.memory.cell id).name ≠ (M.memory.cell other).name := by
      intro other mem own name
      have same := own id (List.mem_cons_self ..) name
      rw [← same] at mem
      exact nodup.1 mem
    cases r with
    | none =>
      refine ⟨entries, n₂, ?_, sorted, fun name w h => ?_, fun other mem own => ?_⟩
      · rw [entriesOf, Eval.bind_of_ok (rfl : Eval.memory (M.counted n) = .ok _ _)]
        exact (Eval.bind_of_ok first _).trans walk
      · obtain ⟨other, mem, same⟩ := named name w h
        exact ⟨other, List.mem_cons_of_mem _ mem, same⟩
      · rcases List.mem_cons.mp mem with rfl | mem
        · refine ⟨fun space h => ?_, fun bare init => (absent own).trans (value bare init)⟩
          obtain ⟨w, h, -⟩ := members space h
          cases h
        · exact all other mem fun third h => own third (List.mem_cons_of_mem _ h)
    | some v =>
      refine ⟨.ofList (((M.memory.cell id).name, v) :: entries), n₂, ?_, Entries.sorted_ofList _,
        fun name w h => ?_, fun other mem own => ?_⟩
      · rw [entriesOf, Eval.bind_of_ok (rfl : Eval.memory (M.counted n) = .ok _ _)]
        refine (Eval.bind_of_ok first _).trans ?_
        exact (Eval.bind_of_ok walk _).trans rfl
      · rw [Entries.get?_ofList_cons sorted, Option.or_eq_some_iff] at h
        rcases h with h | ⟨-, h⟩
        · obtain ⟨other, mem, same⟩ := named name w h
          exact ⟨other, List.mem_cons_of_mem _ mem, same⟩
        · split at h
          · next same => exact ⟨id, List.mem_cons_self .., same⟩
          · cases h
      · rcases List.mem_cons.mp mem with rfl | mem
        · have here : Entries.get? (.ofList (((M.memory.cell other).name, v) :: entries))
              (M.memory.cell other).name = some v := by
            rw [Entries.get?_ofList_cons sorted, absent own, if_pos rfl]
            rfl
          refine ⟨fun space h => ?_, fun bare init => here.trans (value bare init)⟩
          obtain ⟨w, h, related⟩ := members space h
          cases h
          exact ⟨_, here, related⟩
        · refine (all other mem fun third h => own third (List.mem_cons_of_mem _ h)).of_same ?_
          rw [Entries.get?_ofList_cons sorted, if_neg (apart mem own), Option.or_none]

/-- **What is shown of a space displays it.** -/
theorem spaceValues_displays (depth : Nat) (space : SpaceId) (n : Nat) : ∃ v n',
    spaceValues depth space (M.counted n) = .ok v (M.counted n') ∧
      M.memory.Displays depth space v := by
  induction depth generalizing space n with
  | zero => exact ⟨_, _, rfl, _, rfl⟩
  | succ depth ih =>
    obtain ⟨entries, n', walk, -, -, all⟩ :=
      entriesOf_entered ih (M.memory.cellsOf space) (Memory.nodup_cellsOf _ _) n
    refine ⟨.dict n' entries, n' + 1, ?_, n', entries, rfl, all⟩
    rw [spaceValues, Eval.bind_of_ok (rfl : Eval.memory (M.counted n) = .ok _ _)]
    exact (Eval.bind_of_ok walk _).trans rfl

end Session

end CellScript
