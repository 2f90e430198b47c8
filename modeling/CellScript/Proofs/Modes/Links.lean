import CellScript.Proofs.Memory.Grows
import CellScript.Proofs.Modes.Yields
import CellScript.Proofs.Scope.Alike

/-!
# Memories that follow each other

Two sessions of one program that differ in the completion of operations lay out the same spaces and
create functions and closures side by side. A function literal that was folded is an exception: each
evaluation creates a function in the memory of the one session and none in that of the other, where
all of them are the function that folding has created. So functions and closures are linked, and
several may be linked to the same one.

* `Links` — which functions and closures of two memories stand for each other
* `Memory.Follows`, `Machine.Follows` — what holds of two memories and machines all the time
* `Memory.Follows.newSpace`, `Memory.Follows.modifyCell`, `Memory.Follows.fill`, … — the steps that
  both memories take
* `Memory.Follows.withFunctions`, `Memory.Follows.emptyClosure` — the steps that only the first of
  them takes
-/

namespace CellScript

open Code

/-- Which functions and closures of two memories stand for each other. -/
structure Links where
  functions : FunctionId → FunctionId → Prop
  closures : ClosureId → ClosureId → Prop

/-- More functions and closures stand for each other. -/
structure Links.Le (L L' : Links) : Prop where
  functions : ∀ f g, L.functions f g → L'.functions f g
  closures : ∀ c d, L.closures c d → L'.closures c d

namespace Links

theorem Le.refl (L : Links) : L.Le L := ⟨fun _ _ h => h, fun _ _ h => h⟩

theorem Le.trans {L L' L'' : Links} (h : L.Le L') (h' : L'.Le L'') : L.Le L'' :=
  ⟨fun f g same => h'.functions f g (h.functions f g same),
    fun c d same => h'.closures c d (h.closures c d same)⟩

/-- Nothing stands for anything yet. -/
def none : Links := ⟨fun _ _ => False, fun _ _ => False⟩

/-- Two functions more. -/
def withFunctions (L : Links) (f g : FunctionId) : Links where
  functions x y := L.functions x y ∨ x = f ∧ y = g
  closures := L.closures

/-- Two closures more. -/
def withClosures (L : Links) (c d : ClosureId) : Links where
  functions := L.functions
  closures x y := L.closures x y ∨ x = c ∧ y = d

theorem le_withFunctions (L : Links) (f g : FunctionId) : L.Le (L.withFunctions f g) :=
  ⟨fun _ _ => .inl, fun _ _ h => h⟩

theorem le_withClosures (L : Links) (c d : ClosureId) : L.Le (L.withClosures c d) :=
  ⟨fun _ _ h => h, fun _ _ => .inl⟩

/-- The identities of functions stand for each other as linked, those of lists and dictionaries
anyhow. -/
def identities (L : Links) : Identities := ⟨fun _ _ => True, L.functions⟩

abbrev values (L : Links) : Value → Value → Prop := Value.Alike L.identities

abbrev items (L : Links) : List Value → List Value → Prop := Value.AlikeItems L.identities

abbrev entries (L : Links) : Entries Value → Entries Value → Prop :=
  Value.AlikeEntries L.identities

theorem Le.identities {L L' : Links} (le : L.Le L') : L.identities.Le L'.identities :=
  ⟨fun _ _ _ => trivial, le.functions⟩

end Links

/-- Values that are entered for the same slot, or under the same name. -/
def Links.keyed {κ : Type} (L : Links) (a b : κ × Value) : Prop := a.1 = b.1 ∧ L.values a.2 b.2

/-! ## Parts of memory -/

/-- The exceptions differ at most in the value that was thrown. -/
structure Exception.Follows (L : Links) (e e' : Exception) : Prop where
  code : e.code = e'.code
  message : e.message = e'.message
  span : e.span = e'.span
  trace : e.trace = e'.trace
  thrown : Option.Rel L.values e.thrown e'.thrown

inductive Captured.Follows (L : Links) : Captured → Captured → Prop
  | empty : Captured.Follows L .empty .empty
  | value {v w : Value} (origin : CellId) (h : L.values v w) :
      Captured.Follows L (.value v origin) (.value w origin)
  | pending (cell : CellId) : Captured.Follows L (.pending cell) (.pending cell)

section Static

variable (static : Memory) (L : Links)

structure Cell.Follows (c d : Cell) : Prop where
  shape : Slot.Becomes static c.shape d.shape
  value : Option.Rel L.values c.value d.value
  failure : Option.Rel (Exception.Follows L) c.failure d.failure
  evaluating : c.evaluating = d.evaluating
  members : c.members = d.members

structure Space.Follows (s t : Space) : Prop where
  template : Template.Becomes static s.template t.template
  cells : List.Forall₂ (Cell.Follows static L) s.cells.toList t.cells.toList
  enclosing : s.enclosing = t.enclosing
  closure : Option.Rel L.closures s.closure t.closure

inductive FunctionBody.Follows : FunctionBody → FunctionBody → Prop
  | literal {body body' : Op} {t t' : Template} {c d : ClosureId} 
      (hBody : Op.Becomes static body body')
      (hTemplate : Template.Becomes static t t') (hClosure : L.closures c d) (region : Span) :
      FunctionBody.Follows (.literal body t c region) (.literal body' t' d region)
  | curried {f g : FunctionId} {fixed fixed' : List (Option Value)} (target : L.functions f g)
      (h : List.Forall₂ (Option.Rel L.values) fixed fixed') :
      FunctionBody.Follows (.curried f fixed) (.curried g fixed')

structure FunctionObject.Follows (f g : FunctionObject) : Prop where
  signature : f.signature = g.signature
  defaults : L.items f.defaults g.defaults
  body : FunctionBody.Follows static L f.body g.body

/-- What the second memory holds is what the first holds after completion. Linked closures that have
captured something are linked one to one, so that what is filled in at one is filled in at the
other only. -/
structure Memory.Follows (m n : Memory) : Prop where
  count : m.spaces.size = n.spaces.size
  space : ∀ id, Space.Follows static L (m.space id) (n.space id)
  held : m.held = n.held
  pins : m.pins = n.pins
  closures : ∀ c d, L.closures c d → c < m.closures.size ∧ d < n.closures.size
  closure : ∀ c d, L.closures c d →
    List.Forall₂ (Captured.Follows L) (m.closure c) (n.closure d)
  apart : ∀ c d c' d', L.closures c d → L.closures c' d' → m.closure c ≠ [] → (c = c' ↔ d = d')
  functions : ∀ f g, L.functions f g → f < m.functions.size ∧ g < n.functions.size
  function : ∀ f g, L.functions f g →
    FunctionObject.Follows static L (m.function f) (n.function g)
  left : m.scratch.Clear
  right : n.scratch.Clear
  static : static.Retains n

end Static

structure Deferral.Follows (L : Links) (d e : Deferral) : Prop where
  cell : d.cell = e.cell
  closure : L.closures d.closure e.closure
  index : d.index = e.index

structure Context.Follows (L : Links) (c d : Context) : Prop where
  units : c.units = d.units
  stack : c.stack = d.stack
  deferred : List.Forall₂ (Deferral.Follows L) c.deferred d.deferred

structure Machine.Follows (static : Memory) (L : Links) (M N : Machine) : Prop where
  memory : Memory.Follows static L M.memory N.memory
  context : Context.Follows L M.context N.context

/-! ## More links -/

section Le

variable {static : Memory} {L L' : Links} (le : L.Le L')

include le

theorem Value.Alike.links {v w : Value} (h : L.values v w) : L'.values v w := h.mono le.identities

theorem optionValues_links {v w : Option Value} (h : Option.Rel L.values v w) :
    Option.Rel L'.values v w := optionRel_mono h fun _ _ _ h => h.links le

theorem Exception.Follows.links {e e' : Exception} (h : Exception.Follows L e e') :
    Exception.Follows L' e e' :=
  { h with thrown := optionValues_links le h.thrown }

theorem Captured.Follows.links {c d : Captured} (h : Captured.Follows L c d) :
    Captured.Follows L' c d := by
  cases h with
  | empty => exact .empty
  | value origin h => exact .value origin (h.links le)
  | pending cell => exact .pending cell

theorem Cell.Follows.links {c d : Cell} (h : Cell.Follows static L c d) :
    Cell.Follows static L' c d where
  shape := h.shape
  value := optionValues_links le h.value
  failure := optionRel_mono h.failure fun _ _ _ h => h.links le
  evaluating := h.evaluating
  members := h.members

theorem Space.Follows.links {s t : Space} (h : Space.Follows static L s t) :
    Space.Follows static L' s t where
  template := h.template
  cells := h.cells.imp fun _ _ h => h.links le
  enclosing := h.enclosing
  closure := optionRel_mono h.closure fun _ _ _ => le.closures _ _

theorem FunctionBody.Follows.links {b b' : FunctionBody} (h : FunctionBody.Follows static L b b') :
    FunctionBody.Follows static L' b b' := by
  cases h with
  | literal hBody hTemplate hClosure region =>
    exact .literal hBody hTemplate (le.closures _ _ hClosure) region
  | curried target h =>
    exact .curried (le.functions _ _ target) (h.imp fun _ _ h => optionValues_links le h)

theorem FunctionObject.Follows.links {f g : FunctionObject}
    (h : FunctionObject.Follows static L f g) : FunctionObject.Follows static L' f g where
  signature := h.signature
  defaults := h.defaults.mono le.identities
  body := h.body.links le

theorem Context.Follows.links {c d : Context} (h : Context.Follows L c d) :
    Context.Follows L' c d :=
  { h with deferred := h.deferred.imp fun _ _ h => { h with closure := le.closures _ _ h.closure } }

end Le

variable {static m n : Memory} {L : Links}

/-- What constants refer to is there if functions and closures are those that were. -/
theorem Memory.Retains.same (h : static.Retains n) {n' : Memory}
    (functions : n'.functions = n.functions) (closures : n'.closures = n.closures)
    (objects : n.objects ≤ n'.objects) :
    static.Retains n' where
  objects := Nat.le_trans h.objects objects
  functions := functions ▸ h.functions
  function id lt := by
    rw [Memory.function, functions]
    exact h.function id lt
  closures := closures ▸ h.closures
  closure id lt empty := by
    rw [Memory.closure, closures]
    exact h.closure id lt empty

/-- A closure that has captured nothing stays as it is. -/
theorem Memory.closure_fill_of_empty {id c : ClosureId} {index : Nat} {v : Value}
    (empty : m.closure id = []) : (m.fill c index v).closure id = [] := by
  rw [closure_fill]
  split
  · next same => rw [← same, empty, List.modify_nil]
  · exact empty

theorem Captured.Follows.orValue {c d : Captured} (h : Captured.Follows L c d) {v w : Value}
    (same : L.values v w) : Captured.Follows L (c.orValue v) (d.orValue w) := by
  cases h with
  | empty => exact .value _ same
  | value origin known => exact .value origin known
  | pending cell => exact .value cell same

/-! ## Spaces and cells -/

theorem Cell.Follows.default : Cell.Follows static L default default :=
  ⟨.mk _ _ _ _ .none _, .none, .none, rfl, rfl⟩

theorem Space.Follows.default : Space.Follows static L default default :=
  ⟨.mk _ .nil, .nil, rfl, .none⟩

theorem Space.Follows.size {s t : Space} (h : Space.Follows static L s t) :
    s.cells.size = t.cells.size := h.cells.length_eq

theorem Space.Follows.cell {s t : Space} (h : Space.Follows static L s t) (slot : Nat) :
    Cell.Follows static L (s.cells.getD slot Inhabited.default)
      (t.cells.getD slot Inhabited.default) := by
  rw [Array.getD_eq_getD_getElem?, Array.getD_eq_getD_getElem?, ← Array.getElem?_toList,
    ← Array.getElem?_toList]
  have cells := h.cells
  generalize s.cells.toList = cs at cells
  generalize t.cells.toList = ds at cells
  induction cells generalizing slot with
  | nil => exact .default
  | cons first rest ih =>
    cases slot with
    | zero => exact first
    | succ slot => exact ih slot

/-- Entries at the same place are changed alike. -/
theorem forall₂_modify {α β : Type} {R : α → β → Prop} {xs : List α} {ys : List β}
    (h : List.Forall₂ R xs ys) (i : Nat) {f : α → α} {g : β → β}
    (change : ∀ x y, R x y → R (f x) (g y)) : List.Forall₂ R (xs.modify i f) (ys.modify i g) := by
  induction h generalizing i with
  | nil =>
    rw [List.modify_nil, List.modify_nil]
    exact .nil
  | cons first rest ih =>
    cases i with
    | zero => exact .cons (change _ _ first) rest
    | succ i => exact .cons first (ih i)

/-- Cells that follow each other are changed alike. -/
theorem Space.Follows.modify {s t : Space} (h : Space.Follows static L s t) (slot : Nat)
    {f g : Cell → Cell}
    (change : ∀ c d, Cell.Follows static L c d → Cell.Follows static L (f c) (g d)) :
    Space.Follows static L { s with cells := s.cells.modify slot f }
      { t with cells := t.cells.modify slot g } where
  template := h.template
  cells := by
    show List.Forall₂ _ (s.cells.modify slot f).toList (t.cells.modify slot g).toList
    rw [Array.toList_modify, Array.toList_modify]
    exact forall₂_modify h.cells slot change
  enclosing := h.enclosing
  closure := h.closure

theorem Space.Follows.ofTemplate {t t' : Template} (h : Template.Becomes static t t')
    (enclosing : Option SpaceId) {c d : Option ClosureId} (closure : Option.Rel L.closures c d) :
    Space.Follows static L (.ofTemplate t enclosing c) (.ofTemplate t' enclosing d) where
  template := h
  cells := by
    obtain ⟨scope, slots⟩ := h
    show List.Forall₂ _ (_ : List Cell).toArray.toList (_ : List Cell).toArray.toList
    rename_i ss ss'
    induction ss generalizing ss' with
    | nil =>
      cases slots
      exact .nil
    | cons s ss ih =>
      cases slots with
      | cons first rest => exact .cons ⟨first, .none, .none, rfl, rfl⟩ (ih rest)
  enclosing := rfl
  closure := closure

namespace Memory.Follows

variable (h : Memory.Follows static L m n)

include h

theorem cell (id : CellId) : Cell.Follows static L (m.cell id) (n.cell id) :=
  (h.space id.space).cell id.slot

/-- A new space on both sides. -/
theorem newSpace {s t : Space} (new : Space.Follows static L s t) :
    Memory.Follows static L (m.newSpace s).2 (n.newSpace t).2 :=
  { h with
    count := by rw [size_spaces_newSpace, size_spaces_newSpace, h.count]
    space := fun id => by
      rw [space_newSpace, space_newSpace, h.count]
      split
      · exact new
      · exact h.space id
    held := by
      show m.spaces.size :: m.held = n.spaces.size :: n.held
      rw [h.count, h.held]
    static := h.static.same rfl rfl (Nat.le_refl _) }

/-- The copy of a space beside it, on both sides. -/
theorem fork (id : SpaceId) :
    Memory.Follows static L (m.fork id).2 (n.fork id).2 := by
  have s := h.space id
  refine h.newSpace ⟨s.template, ?_, s.enclosing, s.closure⟩
  rw [Array.toList_map, Array.toList_map, List.forall₂_map_left_iff, List.forall₂_map_right_iff]
  exact s.cells.imp fun _ _ c => ⟨c.shape, c.value, .none, rfl, rfl⟩

theorem drop (id : SpaceId) : Memory.Follows static L (m.drop id) (n.drop id) :=
  { h with
    held := congrArg (·.erase id) h.held
    static := h.static.same rfl rfl (Nat.le_refl _) }

/-- Cells that follow each other are changed alike. -/
theorem modifyCell (id : CellId) {f g : Cell → Cell}
    (change : ∀ c d, Cell.Follows static L c d → Cell.Follows static L (f c) (g d)) :
    Memory.Follows static L (m.modifyCell id f) (n.modifyCell id g) :=
  { h with
    count := by rw [size_spaces_modifyCell, size_spaces_modifyCell, h.count]
    space := fun other => by
      rw [space_modifyCell, space_modifyCell, h.count]
      split
      · exact (h.space other).modify id.slot change
      · exact h.space other
    static := h.static.same rfl rfl (Nat.le_refl _) }

theorem bind (id : CellId) {v w : Value} (same : L.values v w) :
    Memory.Follows static L (m.bind id v) (n.bind id w) := by
  refine h.modifyCell id fun c d follows => { follows with value := ?_ }
  show Option.Rel _ (c.value.or _) (d.value.or _)
  have value := follows.value
  generalize c.value = x at value ⊢
  generalize d.value = y at value ⊢
  cases value with
  | some known => exact .some known
  | none => exact .some same

/-- A reference with a site stays with its cell. -/
theorem pin (site : SiteId) (id : CellId) :
    Memory.Follows static L { m with pins := m.pins.insert site id }
      { n with pins := n.pins.insert site id } :=
  { h with
    pins := congrArg (Table.insert · site id) h.pins
    static := h.static.same rfl rfl (Nat.le_refl _) }

/-- Buffers are taken from clear pools and put back empty. -/
theorem scratch {p q : Pool} (left : p.Clear) (right : q.Clear) :
    Memory.Follows static L { m with scratch := p } { n with scratch := q } :=
  { h with left := left, right := right, static := h.static.same rfl rfl (Nat.le_refl _) }

/-! ## Walks -/

theorem ancestor? (depth : Nat) (id : SpaceId) :
    m.ancestor? depth id = n.ancestor? depth id := by
  induction depth generalizing id with
  | zero => rfl
  | succ depth ih =>
    have around : m.around? id = n.around? id := by
      rw [Memory.around?, Memory.around?, (h.space id).enclosing, h.held]
    rw [Memory.ancestor?, Memory.ancestor?, around]
    cases n.around? id with
    | none => rfl
    | some outer => exact ih outer

theorem ancestor (depth : Nat) (id : SpaceId) : m.ancestor depth id = n.ancestor depth id := by
  rw [Memory.ancestor, Memory.ancestor, h.ancestor? depth id]

theorem cellIn (space : SpaceId) (slot : Nat) : m.cellIn space slot = n.cellIn space slot := by
  rw [Memory.cellIn, Memory.cellIn, (h.space space).size]

/-! ## Closures and functions -/

/-- A new list or dictionary, on either side. -/
theorem objects (i j : Nat) (more : n.objects ≤ j) :
    Memory.Follows static L { m with objects := i } { n with objects := j } :=
  { h with static := h.static.same rfl rfl more }

/-- Symbols that were captured on both sides are filled in alike. -/
theorem fill {c : ClosureId} {d : ClosureId} (linked : L.closures c d) (index : Nat) {v w : Value}
    (same : L.values v w) :
    Memory.Follows static L (m.fill c index v) (n.fill d index w) := by
  refine { h with closures := ?_, closure := fun c' d' linked' => ?_, apart := ?_, static := ?_ }
  · intro c' d' linked'
    have lt := h.closures c' d' linked'
    refine ⟨Nat.lt_of_lt_of_eq lt.1 ?_, Nat.lt_of_lt_of_eq lt.2 ?_⟩
    · exact (Array.size_modify ..).symm
    · exact (Array.size_modify ..).symm
  · have before := h.closure c' d' linked'
    by_cases empty : m.closure c' = []
    · -- What has captured nothing stays as it is, on both sides.
      have empty' : n.closure d' = [] := List.forall₂_nil_left_iff.mp (empty ▸ before)
      rw [closure_fill_of_empty empty, closure_fill_of_empty empty']
      exact .nil
    · -- What has captured something is linked to one closure only: both are filled in, or neither.
      have one := h.apart c' d' c d linked' linked empty
      rw [closure_fill, closure_fill]
      by_cases here : c' = c
      · rw [if_pos here, if_pos (one.mp here)]
        exact forall₂_modify (h.closure c d linked) index fun _ _ captured => captured.orValue same
      · rw [if_neg here, if_neg fun he => here (one.mpr he)]
        exact before
  · exact fun c₁ d₁ c₂ d₂ h₁ h₂ filled => h.apart c₁ d₁ c₂ d₂ h₁ h₂ fun empty =>
      filled (closure_fill_of_empty empty)
  · exact ⟨h.static.objects, h.static.functions, h.static.function,
      Nat.le_trans h.static.closures (Nat.le_of_eq (Array.size_modify ..).symm),
      fun id lt empty => closure_fill_of_empty (h.static.closure id lt empty)⟩

/-- A new closure on both sides. -/
theorem newClosure {cs ds : List Captured} (new : List.Forall₂ (Captured.Follows L) cs ds) :
    Memory.Follows static (L.withClosures m.closures.size n.closures.size) (m.newClosure cs).2
      (n.newClosure ds).2 := by
  have le := L.le_withClosures m.closures.size n.closures.size
  have size : ∀ (p : Memory) (cs : List Captured), (p.newClosure cs).2.closures.size =
      p.closures.size + 1 := fun p cs => Array.size_push ..
  refine { h with
    space := fun id => (h.space id).links le
    closures := ?_
    closure := ?_
    apart := ?_
    function := fun f g linked => (h.function f g linked).links le
    static := h.static.trans (Memory.Adds.newClosure n ds).retains }
  · rintro c d (linked | ⟨rfl, rfl⟩)
    · have lt := h.closures c d linked
      rw [size, size]
      exact ⟨Nat.lt_succ_of_lt lt.1, Nat.lt_succ_of_lt lt.2⟩
    · rw [size, size]
      exact ⟨Nat.lt_succ_self _, Nat.lt_succ_self _⟩
  · rintro c d (linked | ⟨rfl, rfl⟩)
    · have lt := h.closures c d linked
      rw [closure_newClosure, closure_newClosure, if_neg (Nat.ne_of_lt lt.1),
        if_neg (Nat.ne_of_lt lt.2)]
      exact (h.closure c d linked).imp fun _ _ c => c.links le
    · rw [closure_newClosure, closure_newClosure, if_pos rfl, if_pos rfl]
      exact new.imp fun _ _ c => c.links le
  · rintro c d c' d' (linked | ⟨rfl, rfl⟩) (linked' | ⟨rfl, rfl⟩) some
    · rw [closure_newClosure, if_neg (Nat.ne_of_lt (h.closures c d linked).1)] at some
      exact h.apart c d c' d' linked linked' some
    · have lt := h.closures c d linked
      exact ⟨fun he => absurd he (Nat.ne_of_lt lt.1), fun he => absurd he (Nat.ne_of_lt lt.2)⟩
    · have lt := h.closures c' d' linked'
      exact ⟨fun he => absurd he.symm (Nat.ne_of_lt lt.1),
        fun he => absurd he.symm (Nat.ne_of_lt lt.2)⟩
    · exact ⟨fun _ => rfl, fun _ => rfl⟩

/-- New functions on the left, and either a new one on the right or one that was there. -/
theorem withFunctions {f g : FunctionObject} {n' : Memory} {id : FunctionId}
    (adds : n.Adds n') (closures : n'.closures = n.closures)
    (there : ∀ id < n.functions.size, n'.function id = n.function id)
    (created : id < n'.functions.size) (found : n'.function id = g)
    (new : FunctionObject.Follows static (L.withFunctions m.functions.size id) f g) :
    Memory.Follows static (L.withFunctions m.functions.size id) (m.newFunction f).2 n' := by
  have le := L.le_withFunctions m.functions.size id
  have size : (m.newFunction f).2.functions.size = m.functions.size + 1 := Array.size_push ..
  have closure : ∀ d, n'.closure d = n.closure d := fun d => by
    rw [Memory.closure, Memory.closure, closures]
  have space : ∀ id, n'.space id = n.space id := fun id => by
    rw [Memory.space, Memory.space, adds.spaces]
  refine { h with
    count := h.count.trans (congrArg Array.size adds.spaces).symm
    space := fun id => space id ▸ (h.space id).links le
    held := h.held.trans adds.held.symm
    pins := h.pins.trans adds.pins.symm
    closures := fun c d linked => closures ▸ h.closures c d linked
    closure := fun c d linked =>
      closure d ▸ (h.closure c d linked).imp fun _ _ c => c.links le
    functions := ?_
    function := ?_
    right := adds.scratch ▸ h.right
    static := h.static.trans adds.retains }
  · rintro f' g' (linked | ⟨rfl, rfl⟩)
    · have lt := h.functions f' g' linked
      rw [size]
      exact ⟨Nat.lt_succ_of_lt lt.1, Nat.lt_of_lt_of_le lt.2 adds.retains.functions⟩
    · rw [size]
      exact ⟨Nat.lt_succ_self _, created⟩
  · rintro f' g' (linked | ⟨rfl, rfl⟩)
    · have lt := h.functions f' g' linked
      rw [function_newFunction, if_neg (Nat.ne_of_lt lt.1), there g' lt.2]
      exact (h.function f' g' linked).links le
    · rw [function_newFunction, if_pos rfl, found]
      exact new

/-- A new function on both sides. -/
theorem newFunction {f g : FunctionObject} (new : FunctionObject.Follows static L f g) :
    Memory.Follows static (L.withFunctions m.functions.size n.functions.size) (m.newFunction f).2
      (n.newFunction g).2 :=
  h.withFunctions (.newFunction n g) rfl
    (fun id lt => by rw [function_newFunction, if_neg (Nat.ne_of_lt lt)])
    (Nat.lt_of_lt_of_eq (Nat.lt_succ_self _) (Array.size_push ..).symm)
    (by rw [function_newFunction, if_pos rfl]) (new.links (L.le_withFunctions ..))

/-- A closure that has captured nothing on the left, where there is such a closure on the right. -/
theorem emptyClosure {d : ClosureId} (lt : d < n.closures.size) (empty : n.closure d = []) :
    Memory.Follows static (L.withClosures m.closures.size d) (m.newClosure []).2 n := by
  have le := L.le_withClosures m.closures.size d
  have size : (m.newClosure []).2.closures.size = m.closures.size + 1 := Array.size_push ..
  refine { h with
    space := fun id => (h.space id).links le
    closures := ?_
    closure := ?_
    apart := ?_
    function := fun f g linked => (h.function f g linked).links le }
  · rintro c d' (linked | ⟨rfl, rfl⟩)
    · have lt := h.closures c d' linked
      rw [size]
      exact ⟨Nat.lt_succ_of_lt lt.1, lt.2⟩
    · rw [size]
      exact ⟨Nat.lt_succ_self _, lt⟩
  · rintro c d' (linked | ⟨rfl, rfl⟩)
    · have lt := h.closures c d' linked
      rw [closure_newClosure, if_neg (Nat.ne_of_lt lt.1)]
      exact (h.closure c d' linked).imp fun _ _ c => c.links le
    · rw [closure_newClosure, if_pos rfl, empty]
      exact .nil
  · rintro c d' c' d'' (linked | ⟨rfl, rfl⟩) linked' some
    · rw [closure_newClosure, if_neg (Nat.ne_of_lt (h.closures c d' linked).1)] at some
      rcases linked' with linked' | ⟨rfl, rfl⟩
      · exact h.apart c d' c' d'' linked linked' some
      · refine ⟨fun he => absurd he (Nat.ne_of_lt (h.closures c d' linked).1), fun he => ?_⟩
        have follows := h.closure c d' linked
        rw [he, empty] at follows
        exact absurd (List.forall₂_nil_right_iff.mp follows) some
    · rw [closure_newClosure, if_pos rfl] at some
      exact absurd rfl some

end Memory.Follows

end CellScript
