import CellScript.Proofs.Code.Below
import CellScript.Proofs.Scope.Captures

/-!
# Operations that lead to their cells

`Op.Ok` says of an operation, evaluated in a space of a scope, that all it looks at is there: every
address leads to the symbol that analysis has found for the reference, templates lay out the symbols
of their scopes, and functions capture what their bodies ask for. An operation without a scope may
be evaluated anywhere, and looks at nothing.

* `Pattern.slots` — the slots that a pattern names
* `Address.Leads`, `CapturePlan.Ok` — an address, seen from a scope, denotes a symbol
* `Op.Ok` — by recursion over the operation
* `detachOp` — a constant operation may be evaluated anywhere
* `Op.Ok.specialize` — specialisation keeps all that
-/

namespace CellScript

/-- The scope belongs to a block inside another scope. -/
def Arena.BlockIn (a : Arena) (σ : Option ScopeId) (inner : ScopeId) : Prop :=
  ∃ outer n, σ = some outer ∧ (a.scope inner).kind = .block n ∧
    (a.scope inner).enclosing = some outer

/-- The slot of a scope is for a variable of a type. -/
def Arena.SlotOf (a : Arena) (σ : ScopeId) (slot : Nat) (ty : Ty) : Prop :=
  ∃ t, (a.scope σ).slots[slot]? = some t ∧ (a.symbol t).ty = ty

/-- Slots for parts of a subject, which may be anything. -/
def Arena.Receives (a : Arena) (σ : ScopeId) (slot : Option Nat) : Prop :=
  ∀ i, slot = some i → a.SlotOf σ i .any

/-- The symbol has a place among those that the function around a scope has captured. -/
def Analysis.CapturedAt (a : Analysis) (σ : ScopeId) (index : Nat) (t : SymbolId) : Prop :=
  ∃ f, a.arena.InFunction σ (some f) ∧ (a.closedOver f)[index]? = some t

namespace Code

/-- The address leads from a scope to a symbol. -/
def Address.Leads (a : Analysis) (σ : ScopeId) (t : SymbolId) : Address → Prop
  | .closure index => a.CapturedAt σ index t
  | .own slot => (a.arena.symbol t).scope = σ ∧ slot = (a.arena.symbol t).slot
  | .parent slot => a.arena.Near σ (a.arena.symbol t).scope 1 ∧ slot = (a.arena.symbol t).slot
  | .frame depth slot => a.arena.Near σ (a.arena.symbol t).scope depth ∧
      slot = (a.arena.symbol t).slot
  | .absolute path => a.arena.SlotPath t path

/-- The reference denotes a variable, seen from a scope. -/
structure CellRef.Leads (a : Analysis) (σ : ScopeId) (t : SymbolId) (ref : CellRef) : Prop where
  known : t < a.arena.symbols.size
  isVariable : a.arena.IsVariable t
  address : ref.address.Leads a σ t
  ty : ref.ty = (a.arena.symbol t).ty
  site : ref.site = none

/-- A function that is created in a scope finds a symbol. -/
def CapturePlan.Ok (a : Analysis) (σ : Option ScopeId) (plan : CapturePlan) (t : SymbolId) : Prop :=
  ∃ creation, σ = some creation ∧
    match plan with
    | .propagate index => a.CapturedAt creation index t
    | .cell ref => ref.Leads a creation t ∧ ∀ index, ref.address ≠ .closure index

/-- A function as a constant is one that is known, with the type of its results. -/
def ConstantOk (K : FunctionId → Ty → Prop) (v : Value) : Prop :=
  ∀ id signature, v = .function id signature → K id signature.returns

mutual

/-- The slots that a pattern names, in the order in which they are bound: parts first, the whole
subject last. -/
def Pattern.slots : Pattern → List Nat
  | ⟨shape, whole⟩ => shape.slots ++ whole.toList

/-- A part without patterns of its own is bound after the parts that have them. -/
def Shape.slots : Shape → List Nat
  | .expr _ | .any | .ofType _ => []
  | .list items => slotsOfAll items
  | .headTail head tail => slotsOfAll head ++ tail.toList
  | .initLast init last => slotsOfAll last ++ init.toList
  | .middle head mid last => slotsOfAll head ++ slotsOfAll last ++ mid.toList
  | .dict entries => slotsOfEntries entries
  | .openDict entries rest => slotsOfEntries entries ++ rest.toList

def slotsOfAll : List Pattern → List Nat
  | [] => []
  | p :: rest => p.slots ++ slotsOfAll rest

def slotsOfEntries : List KeyPattern → List Nat
  | [] => []
  | ⟨_, p⟩ :: rest => p.slots ++ slotsOfEntries rest

end

section Ok

variable (a : Analysis) (K : FunctionId → Ty → Prop)

mutual

/-- All that the operation looks at is there, if it is evaluated in a space of a scope. -/
def Op.Ok (σ : Option ScopeId) : Op → Prop
  | ⟨_, action⟩ => action.Ok σ

def Action.Ok (σ : Option ScopeId) : Action → Prop
  | .constant v => ConstantOk K v
  | .fail fault => fault.code ≠ .internalError
  | .reference ref node =>
    ∃ scope r, σ = some scope ∧ a.references.get? node = some (.ok r) ∧ ref.Leads a scope r.target
  | .list items => itemsOk σ items
  | .patchedList segments => listSegmentsOk σ segments
  | .dict entries => entriesOk σ entries
  | .mergedDict segments => dictSegmentsOk σ segments
  | .function params _ body template captures _ =>
    paramsOk σ params ∧ ∃ n inner, (a.arena.scope inner).kind = .function n ∧ template.Ok inner ∧
      (a.arena.scope inner).slots.map (fun t => (a.arena.symbol t).ty) = params.map (·.ty) ∧
      body.Ok (some inner) ∧ List.Forall₂ (CapturePlan.Ok a σ) captures (a.closedOver n)
  | .call callee args => σ.isSome = true ∧ callee.Ok σ ∧ argumentsOk σ args
  | .fixedCall id signature args => σ.isSome = true ∧ K id signature.returns ∧ opsOk σ args
  | .curry callee args => callee.Ok σ ∧ namedOk σ args
  | .letIn template body =>
    ∃ inner, a.arena.BlockIn σ inner ∧ template.Ok inner ∧ body.Ok (some inner) ∧
      ∀ s ∈ template.slots, s.init.isSome = true
  | .ifElse c t e => c.Ok σ ∧ t.Ok σ ∧ e.Ok σ
  | .matchOn subject lines => subject.Ok σ ∧ linesOk σ lines
  | .forEach template heads body =>
    ∃ inner, a.arena.BlockIn σ inner ∧ template.Ok inner ∧ headsOk inner heads ∧
      body.Ok (some inner) ∧ SlotsInOrder template.slots ∧ HeadsInOrder template.slots 0 heads
  | .binary _ _ l r => l.Ok σ ∧ r.Ok σ
  | .unary _ e => e.Ok σ
  | .cast e _ => e.Ok σ
  | .isOf e _ => e.Ok σ
  | .access container keys => container.Ok σ ∧ opsOk σ keys
  | .keyAccess container _ => container.Ok σ
  | .tryCatch body template error trace handler =>
    body.Ok σ ∧ ∃ inner, a.arena.BlockIn σ inner ∧ template.Ok inner ∧
      a.arena.Receives inner error ∧ a.arena.Receives inner trace ∧ handler.Ok (some inner) ∧
      (error.toList ++ trace.toList).Perm (List.range (a.arena.scope inner).slots.length)
  | .throw e => e.Ok σ

def opsOk (σ : Option ScopeId) : List Op → Prop
  | [] => True
  | op :: rest => op.Ok σ ∧ opsOk σ rest

def optionOk (σ : Option ScopeId) : Option Op → Prop
  | none => True
  | some op => op.Ok σ

def itemsOk (σ : Option ScopeId) : List Item → Prop
  | [] => True
  | .value op :: rest => op.Ok σ ∧ itemsOk σ rest
  | .splat op :: rest => op.Ok σ ∧ itemsOk σ rest

def listSegmentsOk (σ : Option ScopeId) : List ListSegment → Prop
  | [] => True
  | .constant _ :: rest => listSegmentsOk σ rest
  | .value op :: rest => op.Ok σ ∧ listSegmentsOk σ rest
  | .splat op :: rest => op.Ok σ ∧ listSegmentsOk σ rest

def entriesOk (σ : Option ScopeId) : List Entry → Prop
  | [] => True
  | .pair k v :: rest => k.Ok σ ∧ v.Ok σ ∧ entriesOk σ rest
  | .splat op :: rest => op.Ok σ ∧ entriesOk σ rest

def dictSegmentsOk (σ : Option ScopeId) : List DictSegment → Prop
  | [] => True
  | .constant _ :: rest => dictSegmentsOk σ rest
  | .pair _ v :: rest => v.Ok σ ∧ dictSegmentsOk σ rest
  | .dynamic k v :: rest => k.Ok σ ∧ v.Ok σ ∧ dictSegmentsOk σ rest
  | .splat op :: rest => op.Ok σ ∧ dictSegmentsOk σ rest

def paramsOk (σ : Option ScopeId) : List Param → Prop
  | [] => True
  | ⟨_, _, default⟩ :: rest => optionOk σ default ∧ paramsOk σ rest

def argumentsOk (σ : Option ScopeId) : List Argument → Prop
  | [] => True
  | .positional op :: rest => op.Ok σ ∧ argumentsOk σ rest
  | .named _ op :: rest => op.Ok σ ∧ argumentsOk σ rest
  | .splat op :: rest => op.Ok σ ∧ argumentsOk σ rest

def namedOk (σ : Option ScopeId) : List Named → Prop
  | [] => True
  | ⟨_, op⟩ :: rest => op.Ok σ ∧ namedOk σ rest

/-- Patterns are evaluated in the scope of the match, guard and result in one of their own, which
holds what the pattern captures and nothing else. -/
def linesOk (σ : Option ScopeId) : List Line → Prop
  | [] => True
  | ⟨pattern, template, guard, result⟩ :: rest =>
    (∃ inner, a.arena.BlockIn σ inner ∧ template.Ok inner ∧ pattern.Ok σ inner ∧
      pattern.slots.Perm (List.range (a.arena.scope inner).slots.length) ∧
      optionOk (some inner) guard ∧ result.Ok (some inner)) ∧ linesOk σ rest

def headsOk (σ : ScopeId) : List Head → Prop
  | [] => True
  | .generator slot ty source :: rest =>
    a.arena.SlotOf σ slot ty ∧ source.Ok (some σ) ∧ headsOk σ rest
  | .definition slot :: rest => (∃ ty, a.arena.SlotOf σ slot ty) ∧ headsOk σ rest
  | .condition op :: rest => op.Ok (some σ) ∧ headsOk σ rest

/-- The pattern is evaluated in a scope, and what it captures has slots in another one. -/
def Pattern.Ok (σ : Option ScopeId) (inner : ScopeId) : Pattern → Prop
  | ⟨shape, whole⟩ => shape.Ok σ inner ∧ a.arena.Receives inner whole

def Shape.Ok (σ : Option ScopeId) (inner : ScopeId) : Shape → Prop
  | .expr op => op.Ok σ
  | .any => True
  | .ofType _ => True
  | .list items => patternsOk σ inner items
  | .headTail head tail => patternsOk σ inner head ∧ a.arena.Receives inner tail
  | .initLast init last => a.arena.Receives inner init ∧ patternsOk σ inner last
  | .middle head mid last =>
    patternsOk σ inner head ∧ a.arena.Receives inner mid ∧ patternsOk σ inner last
  | .dict entries => keyPatternsOk σ inner entries
  | .openDict entries rest => keyPatternsOk σ inner entries ∧ a.arena.Receives inner rest

def patternsOk (σ : Option ScopeId) (inner : ScopeId) : List Pattern → Prop
  | [] => True
  | p :: rest => p.Ok σ inner ∧ patternsOk σ inner rest

def keyPatternsOk (σ : Option ScopeId) (inner : ScopeId) : List KeyPattern → Prop
  | [] => True
  | ⟨_, p⟩ :: rest => p.Ok σ inner ∧ keyPatternsOk σ inner rest

def slotsOk (σ : ScopeId) : List Slot → Prop
  | [] => True
  | ⟨symbol, name, ty, _, init, members⟩ :: rest =>
    name = (a.arena.symbol symbol).name ∧ ty = (a.arena.symbol symbol).ty ∧
      members = (a.arena.symbol symbol).members ∧ optionOk (some σ) init ∧ slotsOk σ rest

/-- The template lays out the symbols of a scope. -/
def Template.Ok (σ : ScopeId) : Template → Prop
  | ⟨scope, slots⟩ =>
    scope = σ ∧ slots.map (·.symbol) = (a.arena.scope σ).slots ∧ slotsOk σ slots

end

end Ok

/-! ## Slots of templates -/

/-- What is known about a slot of a template. -/
structure Slot.Ok (a : Analysis) (K : FunctionId → Ty → Prop) (σ : ScopeId) (s : Slot) : Prop where
  name : s.name = (a.arena.symbol s.symbol).name
  ty : s.ty = (a.arena.symbol s.symbol).ty
  members : s.members = (a.arena.symbol s.symbol).members
  init : optionOk a K (some σ) s.init

variable {a : Analysis} {K : FunctionId → Ty → Prop} {σ : Option ScopeId}

theorem slotsOk_iff {scope : ScopeId} (slots : List Slot) :
    slotsOk a K scope slots ↔ ∀ s ∈ slots, s.Ok a K scope := by
  induction slots with
  | nil => exact ⟨fun _ s hs => (by cases hs), fun _ => trivial⟩
  | cons s rest ih =>
    obtain ⟨symbol, name, ty, span, init, members⟩ := s
    rw [slotsOk, ih, List.forall_mem_cons]
    constructor
    · rintro ⟨hname, hty, hmembers, hinit, hrest⟩
      exact ⟨⟨hname, hty, hmembers, hinit⟩, hrest⟩
    · rintro ⟨⟨hname, hty, hmembers, hinit⟩, hrest⟩
      exact ⟨hname, hty, hmembers, hinit, hrest⟩

theorem template_ok_iff {scope : ScopeId} (t : Template) : t.Ok a K scope ↔
    t.scope = scope ∧ t.slots.map (·.symbol) = (a.arena.scope scope).slots ∧
      ∀ s ∈ t.slots, s.Ok a K scope := by
  obtain ⟨id, slots⟩ := t
  rw [Template.Ok, slotsOk_iff]

/-! ## Constants may be evaluated anywhere -/

mutual

/-- **A constant operation looks at nothing.** -/
theorem detachOp : ∀ op : Op, op.Ok a K σ → op.isConstant = true → op.Ok a K none
  | ⟨_, action⟩, h, hc => detachAction action h hc

theorem detachAction : ∀ action : Action, action.Ok a K σ → action.isConstant = true →
    action.Ok a K none
  | .constant _, h, _ => h
  | .list items, h, hc => detachItems items h hc
  | .patchedList segments, _, hc => detachListSegments segments hc
  | .dict entries, h, hc => detachEntries entries h hc
  | .mergedDict segments, _, hc => detachDictSegments segments hc
  | .function params _ _ _ captures _, ⟨hp, n, inner, kind, template, types, body, plans⟩, hc => by
    rw [Action.isConstant, Bool.and_eq_true, List.isEmpty_iff] at hc
    obtain ⟨rfl, hc⟩ := hc
    generalize hn : a.closedOver n = closed at plans
    cases plans
    refine ⟨detachParams params hp hc, n, inner, kind, template, types, body, ?_⟩
    rw [hn]
    exact .nil
  | .ifElse c t e, h, hc => by
    simp only [Action.isConstant, Bool.and_eq_true] at hc
    exact ⟨detachOp c h.1 hc.1.1, detachOp t h.2.1 hc.1.2, detachOp e h.2.2 hc.2⟩
  | .binary _ _ l r, h, hc => by
    simp only [Action.isConstant, Bool.and_eq_true] at hc
    exact ⟨detachOp l h.1 hc.1.2, detachOp r h.2 hc.2⟩
  | .unary _ e, h, hc => detachOp e h hc
  | .cast e _, h, hc => detachOp e h hc
  | .isOf e _, h, hc => detachOp e h hc
  | .fail _, _, hc | .reference _ _, _, hc | .call _ _, _, hc | .fixedCall _ _ _, _, hc
  | .curry _ _, _, hc | .letIn _ _, _, hc | .matchOn _ _, _, hc | .forEach _ _ _, _, hc
  | .access _ _, _, hc | .keyAccess _ _, _, hc | .tryCatch _ _ _ _ _, _, hc | .throw _, _, hc => by
    cases hc

theorem detachItems : ∀ items : List Item, itemsOk a K σ items → constantItems items = true →
    itemsOk a K none items
  | [], _, _ => trivial
  | .value op :: rest, h, hc | .splat op :: rest, h, hc => by
    simp only [constantItems, Bool.and_eq_true] at hc
    exact ⟨detachOp op h.1 hc.1, detachItems rest h.2 hc.2⟩

theorem detachListSegments : ∀ segments : List ListSegment, constantListSegments segments = true →
    listSegmentsOk a K none segments
  | [], _ => trivial
  | .constant _ :: rest, hc => detachListSegments rest hc
  | .value _ :: _, hc | .splat _ :: _, hc => by cases hc

theorem detachEntries : ∀ entries : List Entry, entriesOk a K σ entries →
    constantEntries entries = true → entriesOk a K none entries
  | [], _, _ => trivial
  | .pair k v :: rest, h, hc => by
    simp only [constantEntries, Bool.and_eq_true] at hc
    exact ⟨detachOp k h.1 hc.1.1, detachOp v h.2.1 hc.1.2, detachEntries rest h.2.2 hc.2⟩
  | .splat op :: rest, h, hc => by
    simp only [constantEntries, Bool.and_eq_true] at hc
    exact ⟨detachOp op h.1 hc.1, detachEntries rest h.2 hc.2⟩

theorem detachDictSegments : ∀ segments : List DictSegment, constantDictSegments segments = true →
    dictSegmentsOk a K none segments
  | [], _ => trivial
  | .constant _ :: rest, hc => detachDictSegments rest hc
  | .pair _ _ :: _, hc | .dynamic _ _ :: _, hc | .splat _ :: _, hc => by cases hc

theorem detachParams : ∀ params : List Param, paramsOk a K σ params →
    constantDefaults params = true → paramsOk a K none params
  | [], _, _ => trivial
  | ⟨_, _, none⟩ :: rest, h, hc => ⟨trivial, detachParams rest h.2 hc⟩
  | ⟨_, _, some op⟩ :: rest, h, hc => by
    simp only [constantDefaults, Bool.and_eq_true] at hc
    exact ⟨detachOp op h.1 hc.1, detachParams rest h.2 hc.2⟩

end

/-! ## Specialisation -/

theorem constantOk_of_constant? {op : Op} {v : Value} (h : op.Ok a K σ)
    (hv : op.constant? = some v) :
    ConstantOk K v := by
  obtain ⟨span, action⟩ := op
  cases action <;> cases hv
  exact h

theorem listSegmentsOk_append (segments rest : List ListSegment) :
    listSegmentsOk a K σ (segments ++ rest) ↔
      listSegmentsOk a K σ segments ∧ listSegmentsOk a K σ rest := by
  induction segments with
  | nil => exact ⟨fun h => ⟨trivial, h⟩, fun h => h.2⟩
  | cons segment segments ih =>
    cases segment with
    | constant run => exact ih
    | value op | splat op => rw [List.cons_append, listSegmentsOk, listSegmentsOk, ih, and_assoc]

theorem constantRun_ok (run : List Value) : listSegmentsOk a K σ (constantRun run) := by
  unfold constantRun
  split <;> trivial

theorem listSegments_ok (items : List Item) (run : List Value) (h : itemsOk a K σ items) :
    listSegmentsOk a K σ (listSegments run items) := by
  induction items generalizing run with
  | nil => exact constantRun_ok run
  | cons item rest ih =>
    have parts : item.op.Ok a K σ ∧ itemsOk a K σ rest := by
      cases item <;> exact h
    rw [listSegments]
    split
    · exact ih _ parts.2
    · rw [listSegmentsOk_append]
      refine ⟨constantRun_ok run, ?_⟩
      cases item <;> exact ⟨parts.1, ih [] parts.2⟩

theorem dictSegmentsOk_append (segments rest : List DictSegment) :
    dictSegmentsOk a K σ (segments ++ rest) ↔
      dictSegmentsOk a K σ segments ∧ dictSegmentsOk a K σ rest := by
  induction segments with
  | nil => exact ⟨fun h => ⟨trivial, h⟩, fun h => h.2⟩
  | cons segment segments ih =>
    cases segment with
    | constant run => exact ih
    | pair key v | splat op => rw [List.cons_append, dictSegmentsOk, dictSegmentsOk, ih, and_assoc]
    | dynamic k v =>
      rw [List.cons_append, dictSegmentsOk, dictSegmentsOk, ih, and_assoc, and_assoc]

theorem mergedRun_ok (run : Option (Entries Value)) : dictSegmentsOk a K σ (mergedRun run) := by
  cases run <;> trivial

theorem dictSegments_ok (entries : List Entry) (run : Option (Entries Value))
    (h : entriesOk a K σ entries) : dictSegmentsOk a K σ (dictSegments run entries) := by
  induction entries generalizing run with
  | nil => exact mergedRun_ok run
  | cons entry rest ih =>
    have later : entriesOk a K σ rest := by
      cases entry with
      | pair k v => exact h.2.2
      | splat op => exact h.2
    rw [dictSegments]
    split
    · exact ih _ later
    · rw [dictSegmentsOk_append]
      refine ⟨mergedRun_ok run, ?_⟩
      cases entry with
      | splat op => exact ⟨h.1, ih none later⟩
      | pair k v =>
        rw [Entry.segment]
        split
        · exact ⟨h.2.1, ih none later⟩
        · exact ⟨h.1, h.2.1, ih none later⟩

theorem opsOk_of_positionals? (args : List Argument) {ops : List Op} (h : argumentsOk a K σ args)
    (hp : positionals? args = some ops) : opsOk a K σ ops := by
  induction args generalizing ops with
  | nil =>
    cases hp
    trivial
  | cons arg rest ih =>
    cases arg with
    | positional op =>
      rw [positionals?, Option.map_eq_some_iff] at hp
      obtain ⟨ops, hr, rfl⟩ := hp
      exact ⟨h.1, ih h.2 hr⟩
    | named name op | splat op => cases hp

/-- **A specialised operation finds all it looks at.** -/
theorem Op.Ok.specialize {op : Op} (h : op.Ok a K σ) : op.specialize.Ok a K σ := by
  obtain ⟨span, action⟩ := op
  change action.Ok a K σ at h
  show action.specialize.Ok a K σ
  unfold Action.specialize
  split
  · split <;> exact h
  · split
    · next id signature ops known args =>
      exact ⟨h.1, constantOk_of_constant? h.2.1 known id signature rfl,
        opsOk_of_positionals? _ h.2.2 args⟩
    · exact h
  · split
    · exact listSegments_ok _ [] h
    · exact h
  · split
    · exact dictSegments_ok _ none h
    · exact h
  · split
    · exact h.1
    · exact h
  · exact h

end Code

end CellScript
