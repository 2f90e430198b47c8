import CellScript.Code.Fold

/-!
# Operations that leave later slots alone

The cells of a comprehension are computed one after the other, in the order of its heads. What
stands in a head must therefore look at earlier cells only, wherever it is evaluated: in the space
of the comprehension itself, or in a block further inside, from which that space lies some steps
outwards. The bodies of functions are left out of account, since they look at what was captured and
not at cells around them.

* `CellRef.Below` — a reference that looks at one of the first slots, if it looks at the space at
  all
* `Op.Below` — all references of an operation do, by recursion
* `HeadsInOrder` — heads that take one slot after the other and look at earlier ones only
* `Op.Below.finish` — specialising and folding add no references
-/

namespace CellScript.Code

/-- How many steps outwards the address leads, and to which slot there. -/
def Address.place? : Address → Option (Nat × Nat)
  | .own slot => some (0, slot)
  | .parent slot => some (1, slot)
  | .frame depth slot => some (depth, slot)
  | .closure _ | .absolute _ => none

/-- In the space that many steps outwards the reference denotes one of the first slots, if it leads
there at all. -/
def CellRef.Below (count depth : Nat) (ref : CellRef) : Prop :=
  ∀ slot, ref.address.place? = some (depth, slot) → slot < count

/-- The same for what a function captures where it is created. -/
def CapturePlan.Below (count depth : Nat) : CapturePlan → Prop
  | .propagate _ => True
  | .cell ref => ref.Below count depth

section Below

variable (count : Nat)

mutual

/-- In the space that many steps outwards the operation looks at the first slots only. -/
def Op.Below (depth : Nat) : Op → Prop
  | ⟨_, action⟩ => action.Below depth

def Action.Below (depth : Nat) : Action → Prop
  | .constant _ | .fail _ => True
  | .reference ref _ => ref.Below count depth
  | .list items => itemsBelow depth items
  | .patchedList segments => listSegmentsBelow depth segments
  | .dict entries => entriesBelow depth entries
  | .mergedDict segments => dictSegmentsBelow depth segments
  | .function params _ _ _ captures _ =>
    paramsBelow depth params ∧ ∀ plan ∈ captures, plan.Below count depth
  | .call callee args => callee.Below depth ∧ argumentsBelow depth args
  | .fixedCall _ _ args => opsBelow depth args
  | .curry callee args => callee.Below depth ∧ namedBelow depth args
  | .letIn template body => template.Below (depth + 1) ∧ body.Below (depth + 1)
  | .ifElse c t e => c.Below depth ∧ t.Below depth ∧ e.Below depth
  | .matchOn subject lines => subject.Below depth ∧ linesBelow depth lines
  | .forEach template heads body =>
    template.Below (depth + 1) ∧ headsBelow (depth + 1) heads ∧ body.Below (depth + 1)
  | .binary _ _ l r => l.Below depth ∧ r.Below depth
  | .unary _ e => e.Below depth
  | .cast e _ => e.Below depth
  | .isOf e _ => e.Below depth
  | .access container keys => container.Below depth ∧ opsBelow depth keys
  | .keyAccess container _ => container.Below depth
  | .tryCatch body template _ _ handler =>
    body.Below depth ∧ template.Below (depth + 1) ∧ handler.Below (depth + 1)
  | .throw e => e.Below depth

def opsBelow (depth : Nat) : List Op → Prop
  | [] => True
  | op :: rest => op.Below depth ∧ opsBelow depth rest

def optionBelow (depth : Nat) : Option Op → Prop
  | none => True
  | some op => op.Below depth

def itemsBelow (depth : Nat) : List Item → Prop
  | [] => True
  | .value op :: rest => op.Below depth ∧ itemsBelow depth rest
  | .splat op :: rest => op.Below depth ∧ itemsBelow depth rest

def listSegmentsBelow (depth : Nat) : List ListSegment → Prop
  | [] => True
  | .constant _ :: rest => listSegmentsBelow depth rest
  | .value op :: rest => op.Below depth ∧ listSegmentsBelow depth rest
  | .splat op :: rest => op.Below depth ∧ listSegmentsBelow depth rest

def entriesBelow (depth : Nat) : List Entry → Prop
  | [] => True
  | .pair k v :: rest => k.Below depth ∧ v.Below depth ∧ entriesBelow depth rest
  | .splat op :: rest => op.Below depth ∧ entriesBelow depth rest

def dictSegmentsBelow (depth : Nat) : List DictSegment → Prop
  | [] => True
  | .constant _ :: rest => dictSegmentsBelow depth rest
  | .pair _ v :: rest => v.Below depth ∧ dictSegmentsBelow depth rest
  | .dynamic k v :: rest => k.Below depth ∧ v.Below depth ∧ dictSegmentsBelow depth rest
  | .splat op :: rest => op.Below depth ∧ dictSegmentsBelow depth rest

def paramsBelow (depth : Nat) : List Param → Prop
  | [] => True
  | ⟨_, _, default⟩ :: rest => optionBelow depth default ∧ paramsBelow depth rest

def argumentsBelow (depth : Nat) : List Argument → Prop
  | [] => True
  | .positional op :: rest => op.Below depth ∧ argumentsBelow depth rest
  | .named _ op :: rest => op.Below depth ∧ argumentsBelow depth rest
  | .splat op :: rest => op.Below depth ∧ argumentsBelow depth rest

def namedBelow (depth : Nat) : List Named → Prop
  | [] => True
  | ⟨_, op⟩ :: rest => op.Below depth ∧ namedBelow depth rest

def linesBelow (depth : Nat) : List Line → Prop
  | [] => True
  | ⟨pattern, template, guard, result⟩ :: rest =>
    (pattern.Below depth ∧ template.Below (depth + 1) ∧ optionBelow (depth + 1) guard ∧
      result.Below (depth + 1)) ∧ linesBelow depth rest

def headsBelow (depth : Nat) : List Head → Prop
  | [] => True
  | .generator _ _ source :: rest => source.Below depth ∧ headsBelow depth rest
  | .definition _ :: rest => headsBelow depth rest
  | .condition op :: rest => op.Below depth ∧ headsBelow depth rest

def Pattern.Below (depth : Nat) : Pattern → Prop
  | ⟨shape, _⟩ => shape.Below depth

def Shape.Below (depth : Nat) : Shape → Prop
  | .expr op => op.Below depth
  | .any | .ofType _ => True
  | .list items => patternsBelow depth items
  | .headTail head _ => patternsBelow depth head
  | .initLast _ last => patternsBelow depth last
  | .middle head _ last => patternsBelow depth head ∧ patternsBelow depth last
  | .dict entries => keyPatternsBelow depth entries
  | .openDict entries _ => keyPatternsBelow depth entries

def patternsBelow (depth : Nat) : List Pattern → Prop
  | [] => True
  | p :: rest => p.Below depth ∧ patternsBelow depth rest

def keyPatternsBelow (depth : Nat) : List KeyPattern → Prop
  | [] => True
  | ⟨_, p⟩ :: rest => p.Below depth ∧ keyPatternsBelow depth rest

def slotsBelow (depth : Nat) : List Slot → Prop
  | [] => True
  | ⟨_, _, _, _, init, _⟩ :: rest => optionBelow depth init ∧ slotsBelow depth rest

/-- The values of the slots look at the first slots only. -/
def Template.Below (depth : Nat) : Template → Prop
  | ⟨_, slots⟩ => slotsBelow depth slots

end

variable {count}

theorem slotsBelow_iff {depth : Nat} (slots : List Slot) :
    slotsBelow count depth slots ↔ ∀ s ∈ slots, optionBelow count depth s.init := by
  induction slots with
  | nil => exact ⟨fun _ s hs => (by cases hs), fun _ => trivial⟩
  | cons s rest ih =>
    obtain ⟨symbol, name, ty, span, init, members⟩ := s
    rw [slotsBelow, ih, List.forall_mem_cons]

theorem template_below_iff {depth : Nat} (t : Template) :
    t.Below count depth ↔ ∀ s ∈ t.slots, optionBelow count depth s.init := by
  obtain ⟨scope, slots⟩ := t
  rw [Template.Below, slotsBelow_iff]

end Below

/-! ## Heads in order -/

/-- In the space of the comprehension itself the operation looks at the first slots only, however
many more are counted. -/
def Op.Awaits (count : Nat) (op : Op) : Prop := ∀ more, count ≤ more → op.Below more 0

/-- The value of each slot looks at itself and at the slots before it. -/
def SlotsInOrder (slots : List Slot) : Prop :=
  ∀ (i : Nat) (s : Slot) (init : Op), slots[i]? = some s → s.init = some init → init.Awaits (i + 1)

/-- The heads take the slots from a number on, one after the other and all of them. What stands in a
head looks at the slots taken before it; definitions have a value, and generators none. -/
def HeadsInOrder (slots : List Slot) : Nat → List Head → Prop
  | count, [] => count = slots.length
  | count, .generator slot _ source :: rest =>
    slot = count ∧ source.Awaits count ∧ (∀ s, slots[slot]? = some s → s.init = none) ∧
      HeadsInOrder slots (count + 1) rest
  | count, .definition slot :: rest =>
    slot = count ∧ (∃ s init, slots[slot]? = some s ∧ s.init = some init) ∧
      HeadsInOrder slots (count + 1) rest
  | count, .condition op :: rest => op.Awaits count ∧ HeadsInOrder slots count rest

/-! ## Completed operations -/

variable {count depth : Nat}

theorem listSegmentsBelow_append (segments rest : List ListSegment) :
    listSegmentsBelow count depth (segments ++ rest) ↔
      listSegmentsBelow count depth segments ∧ listSegmentsBelow count depth rest := by
  induction segments with
  | nil => exact ⟨fun h => ⟨trivial, h⟩, fun h => h.2⟩
  | cons segment segments ih =>
    cases segment with
    | constant run => exact ih
    | value op | splat op =>
      rw [List.cons_append, listSegmentsBelow, listSegmentsBelow, ih, and_assoc]

theorem constantRun_below (run : List Value) : listSegmentsBelow count depth (constantRun run) := by
  unfold constantRun
  split <;> trivial

theorem listSegments_below (items : List Item) (run : List Value)
    (h : itemsBelow count depth items) :
    listSegmentsBelow count depth (listSegments run items) := by
  induction items generalizing run with
  | nil => exact constantRun_below run
  | cons item rest ih =>
    have parts :
        item.op.Below count depth ∧ itemsBelow count depth rest := by cases item <;> exact h
    rw [listSegments]
    split
    · exact ih _ parts.2
    · rw [listSegmentsBelow_append]
      refine ⟨constantRun_below run, ?_⟩
      cases item <;> exact ⟨parts.1, ih [] parts.2⟩

theorem mergedRun_below_append (run : Option (Entries Value)) (rest : List DictSegment) :
    dictSegmentsBelow count depth (mergedRun run ++ rest) ↔ dictSegmentsBelow count depth rest := by
  cases run <;> rfl

theorem dictSegments_below (entries : List Entry) (run : Option (Entries Value))
    (h : entriesBelow count depth entries) :
    dictSegmentsBelow count depth (dictSegments run entries) := by
  induction entries generalizing run with
  | nil => cases run <;> trivial
  | cons entry rest ih =>
    have later : entriesBelow count depth rest := by
      cases entry with
      | pair k v => exact h.2.2
      | splat op => exact h.2
    rw [dictSegments]
    split
    · exact ih _ later
    · rw [mergedRun_below_append]
      cases entry with
      | splat op => exact ⟨h.1, ih none later⟩
      | pair k v =>
        rw [Entry.segment]
        split
        · exact ⟨h.2.1, ih none later⟩
        · exact ⟨h.1, h.2.1, ih none later⟩

theorem opsBelow_of_positionals? (args : List Argument) {ops : List Op}
    (h : argumentsBelow count depth args) (hp : positionals? args = some ops) :
    opsBelow count depth ops := by
  induction args generalizing ops with
  | nil =>
    cases hp
    trivial
  | cons arg rest ih =>
    cases arg with
    | positional op =>
      rw [positionals?, Option.map_eq_some_iff] at hp
      obtain ⟨ops, hr, rfl⟩ := hp
      exact ⟨h.1, ih h.2 hr⟩
    | named name op | splat op => cases hp

theorem Op.Below.specialize {op : Op} (h : op.Below count depth) :
    op.specialize.Below count depth := by
  obtain ⟨span, action⟩ := op
  change action.Below count depth at h
  show action.specialize.Below count depth
  unfold Action.specialize
  split
  · split <;> exact h
  · split
    · next args => exact opsBelow_of_positionals? _ h.2 args
    · exact h
  · split
    · exact listSegments_below _ [] h
    · exact h
  · split
    · exact dictSegments_below _ none h
    · exact h
  · split
    · exact h.1
    · exact h
  · exact h

/-- **A completed operation looks at nothing that it did not look at before.** -/
theorem Op.Below.finish {op : Op} (h : op.Below count depth) (options : Options) (m : Memory) :
    (op.finish options m).1.Below count depth := by
  have narrow : (if options.specialize = true then op.specialize else op).Below count depth := by
    split
    · exact h.specialize
    · exact h
  simp only [Op.finish]
  generalize (if options.specialize = true then op.specialize else op) = op at narrow
  split
  · unfold Op.fold
    split
    · exact narrow
    · split
      · trivial
      · exact narrow
  · exact narrow

end CellScript.Code
