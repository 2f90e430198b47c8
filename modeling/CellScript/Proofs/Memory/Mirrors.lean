import CellScript.Proofs.Memory.Grows
import CellScript.Proofs.Scope.Analyzed

/-!
# Memory that mirrors the arena

What is laid out once lies in the spaces of the units and of their members: each has a cell for
every symbol of its scope, and a cell whose symbol has members leads to a space of these. Slots that
lead from the units to a symbol in the arena then lead to a cell of that symbol in memory.

* `Memory.Path` — slots that lead from a space to a cell
* `Memory.Mirrors` — some spaces of a memory mirror the arena
* `Memory.Mirrors.path` — a path of the arena is one of memory
-/

namespace CellScript

namespace Memory

variable {a : Analysis} {S : SpaceId → Prop} {m m' : Memory} {space units : SpaceId} {t : SymbolId}

/-- Slots lead from a space through the members of cells to a cell. -/
inductive Path (m : Memory) : SpaceId → List Nat → CellId → Prop where
  | last {space : SpaceId} {slot : Nat} (has : m.HasCell ⟨space, slot⟩) :
    Path m space [slot] ⟨space, slot⟩
  | step {space inner : SpaceId} {slot next : Nat} {rest : List Nat} {id : CellId}
    (has : m.HasCell ⟨space, slot⟩) (members : (m.cell ⟨space, slot⟩).members = some inner)
    (path : Path m inner (next :: rest) id) : Path m space (slot :: next :: rest) id

/-- A path may be continued with a member of the cell it leads to. -/
theorem Path.snoc {path : List Nat} {id : CellId} {inner : SpaceId} {slot : Nat}
    (h : Path m space path id) (members : (m.cell id).members = some inner)
    (has : m.HasCell ⟨inner, slot⟩) : Path m space (path ++ [slot]) ⟨inner, slot⟩ := by
  induction h with
  | last here => exact .step here members (.last has)
  | step here through _ ih => exact .step here through (ih members)

/-- A path stays. -/
theorem Path.grows {path : List Nat} {id : CellId} (h : Path m space path id) (g : m.Grows m') :
    Path m' space path id := by
  induction h with
  | last has => exact .last (has.grows g)
  | step has members _ ih => exact .step (has.grows g) ((g.cell _ has.1).members _ members) ih

/-- A path leads to one cell only. -/
theorem Path.unique {path : List Nat} {id id' : CellId} (h : Path m space path id)
    (h' : Path m space path id') : id' = id := by
  induction h with
  | last _ =>
    cases h'
    rfl
  | step _ members _ ih =>
    cases h' with
    | step _ members' rest =>
      rw [members] at members'
      cases members'
      exact ih rest

/-- The spaces have a cell for each symbol of their scopes. A cell of a symbol with members leads to
another one of these spaces. -/
structure Mirrors (a : Analysis) (S : SpaceId → Prop) (m : Memory) (units : SpaceId) : Prop where
  known : ∀ space, S space → space < m.spaces.size
  root : S units
  scope : (m.space units).template.scope = Analysis.unitsScope
  cell : ∀ {space : SpaceId} {slot : Nat} {t : SymbolId}, S space →
    (a.arena.scope (m.space space).template.scope).slots[slot]? = some t →
      m.HasCell ⟨space, slot⟩ ∧ (m.cell ⟨space, slot⟩).shape.symbol = t ∧
      ∀ σ, (a.arena.symbol t).members = some σ → ∃ inner,
        (m.cell ⟨space, slot⟩).members = some inner ∧ S inner ∧ (m.space inner).template.scope = σ

/-- The same spaces still do later. -/
theorem Mirrors.grows (h : m.Mirrors a S units) (g : m.Grows m') : m'.Mirrors a S units := by
  refine ⟨fun space hs => Nat.lt_of_lt_of_le (h.known space hs) g.spaces, h.root, ?_,
    fun {space slot t} hs ht => ?_⟩
  · rw [(g.space units (h.known units h.root)).template]
    exact h.scope
  · rw [(g.space space (h.known space hs)).template] at ht
    obtain ⟨has, symbol, members⟩ := h.cell hs ht
    have later := g.cell ⟨space, slot⟩ has.1
    refine ⟨has.grows g, ?_, fun σ hσ => ?_⟩
    · rw [later.shape]
      exact symbol
    · obtain ⟨inner, there, hi, scope⟩ := members σ hσ
      refine ⟨inner, later.members inner there, hi, ?_⟩
      rw [(g.space inner (h.known inner hi)).template]
      exact scope

/-- **A symbol that is laid out once has a cell at the end of its path.** -/
theorem Mirrors.path (h : m.Mirrors a S units) (ready : a.arena.Ready) {path : List Nat}
    (known : t < a.arena.symbols.size) (leads : a.arena.SlotPath t path) :
    ∃ id, m.Path units path id ∧ S id.space ∧
      (m.space id.space).template.scope = (a.arena.symbol t).scope ∧
      (m.cell id).shape.symbol = t ∧ m.HasCell id ∧
      ∀ σ, (a.arena.symbol t).members = some σ → ∃ inner,
        (m.cell id).members = some inner ∧ S inner ∧ (m.space inner).template.scope = σ := by
  have placed := ready.placed
  induction leads with
  | @unit t home =>
    have slot := placed t known
    have scope := h.scope.trans ((ready.units _).mp home).symm
    rw [← scope] at slot
    obtain ⟨has, symbol, members⟩ := h.cell h.root slot
    exact ⟨_, .last has, h.root, scope, symbol, has, members⟩
  | @member t s path home owner ih =>
    obtain ⟨owned, ownedMembers⟩ := ready.owner _ s home
    obtain ⟨id, path, -, -, -, -, members⟩ := ih owned
    -- The cell of the owner has a space for the scope that the symbol lies in.
    obtain ⟨inner, there, hi, scope⟩ := members _ ownedMembers
    have slot := placed t known
    rw [← scope] at slot
    obtain ⟨has, symbol, members'⟩ := h.cell hi slot
    exact ⟨_, path.snoc there has, hi, scope, symbol, has, members'⟩

end Memory

end CellScript
