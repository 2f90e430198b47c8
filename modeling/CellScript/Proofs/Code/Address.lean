import CellScript.Code.Compile
import CellScript.Proofs.Code.Ok
import CellScript.Proofs.Scope.Analyzed

/-!
# Addresses and slots

Compilation gives each reference the address of a cell, and tells each function where to find what
it captures. For a program that analysis has accepted both succeed, and lead to the symbol that was
meant. A pattern names the slots of the space in which its line goes on, one for each part of the
subject that it captures. Whatever a compiled pattern names are the slots of the names that the
source pattern captures. In a scope that holds just these names they are all its slots, each of them
once.

* `Analysis.Rooted.address_leads` — the address of a reference
* `Analysis.Rooted.capturePlan?_ok` — where a captured symbol is found
* `Analysis.templateOf_ok` — the cells of a scope
* `Compiler.pattern_slots` — compilation names the slots of the captures
* `Analysis.Fills.pattern_slots` — they are all slots of the scope of the line
-/

namespace CellScript

open Code (Address CapturePlan CellRef Op)

namespace Arena

variable {a : Arena} {σ : ScopeId} {t : SymbolId}

/-- A path that was found leads to its symbol. -/
theorem slotPath_of_slotPath? (fuel : Nat) {path : List Nat} (h : a.slotPath? fuel t = some path) :
    a.SlotPath t path := by
  induction fuel generalizing t path with
  | zero => cases h
  | succ fuel ih =>
    rw [slotPath?] at h
    split at h
    · next home =>
      cases h
      exact .unit home
    · next owner home =>
      rw [Option.map_eq_some_iff] at h
      obtain ⟨above, found, rfl⟩ := h
      exact .member home (ih found)
    · cases h

theorem Near.scope_eq {τ : ScopeId} (h : a.Near σ τ 0) : τ = σ := by
  cases h
  rfl

end Arena

namespace Analysis

variable {a : Analysis} {σ : ScopeId} {t : SymbolId}

/-- The place of a symbol among those that the function around a scope captures. -/
theorem capturedAt_of_closureIndex? {function : Option NodeId} {index : Nat}
    (inside : a.arena.InFunction σ function) (h : a.closureIndex? function t = some index) :
    a.CapturedAt σ index t := by
  rw [closureIndex?, Option.bind_eq_some_iff] at h
  obtain ⟨f, rfl, h⟩ := h
  rw [List.idxOf?_eq_some_iff] at h
  obtain ⟨lt, here, -⟩ := h
  exact ⟨f, inside, by rw [List.getElem?_eq_getElem lt, here]⟩

/-- A symbol that is not captured and is not laid out once is near. -/
theorem near_of_located {function : Option NodeId} (rooted : a.Rooted)
    (inside : a.arena.InFunction σ function) (known : t < a.arena.symbols.size)
    (located : a.arena.Located a.closedOver σ t) (open' : a.closureIndex? function t = none)
    (anew : a.arena.absolutePath? t = none) :
    ∃ d, a.arena.Near σ (a.arena.symbol t).scope d := by
  rcases located with (static | near) | ⟨f, within, mem⟩
  · obtain ⟨path, found, -⟩ := rooted.ready.absolutePath?_of_static known static
    rw [anew] at found
    cases found
  · exact near
  · rw [inside.unique within, closureIndex?, Option.bind_some, List.idxOf?_eq_none_iff] at open'
    exact absurd mem open'

/-- **The address of a reference that can be reached leads to what it is bound to.** -/
theorem Rooted.address_leads (rooted : a.Rooted) {function : Option NodeId} {node : NodeId}
    (inside : a.arena.InFunction σ function) (h : a.Reaches σ node) :
    ∃ r address, a.references.get? node = some (.ok r) ∧ r.target < a.arena.symbols.size ∧
      a.arena.IsVariable r.target ∧ a.address node function =
      .ok (address, (a.arena.symbol r.target).ty) ∧ address.Leads a σ r.target := by
  obtain ⟨r, found, bound, direct, located⟩ := h
  suffices leads : ∃ address, a.addressOf r function = .ok address ∧ address.Leads a σ r.target by
    obtain ⟨address, has, leads⟩ := leads
    exact ⟨r, address, found, bound.known,
      bound.isVariable, by simp only [Analysis.address, found, has, Except.map], leads⟩
  rw [addressOf]
  generalize hi : (if (r.kind == .closure) = true then a.closureIndex? function r.target else none)
    = index
  cases index with
  | some index =>
    refine ⟨_, rfl, @capturedAt_of_closureIndex? _ _ _ function _ inside ?_⟩
    split at hi
    · exact hi
    · cases hi
  | none =>
    cases hp : a.arena.absolutePath? r.target with
    | some path => exact ⟨_, rfl, Arena.slotPath_of_slotPath? _ hp⟩
    | none =>
      obtain ⟨d, near⟩ : ∃ d, a.arena.Near σ (a.arena.symbol r.target).scope d := by
        rcases direct with closure | direct
        · rw [closure] at hi
          exact near_of_located rooted inside bound.known located hi hp
        · -- What needs no help of a function is near, because it is not laid out once.
          rcases direct with static | near
          · obtain ⟨path, found, -⟩ := rooted.ready.absolutePath?_of_static bound.known static
            rw [hp] at found
            cases found
          · exact near
      have depth := near.depth? rooted.ready
      have own : a.arena.Near σ (a.arena.symbol r.target).scope 0 →
          (Address.own (a.arena.symbol r.target).slot).Leads a σ r.target :=
        fun near => ⟨near.scope_eq, rfl⟩
      simp only [bound.scope, depth]
      cases hk : r.kind with
      | ownScope =>
        have zero := bound.own hk
        rw [depth] at zero
        cases zero
        exact ⟨_, rfl, own near⟩
      | parentScope =>
        have one := bound.parent hk
        rw [depth] at one
        cases one
        exact ⟨_, rfl, near, rfl⟩
      | _ =>
        match d, near with
        | 0, near => exact ⟨_, rfl, own near⟩
        | 1, near => exact ⟨_, rfl, near, rfl⟩
        | d + 2, near => exact ⟨_, rfl, near, rfl⟩

/-- **A function finds what it captures where it is created.** -/
theorem Rooted.capturePlan?_ok (rooted : a.Rooted) {creation : ScopeId} {enclosing : Option NodeId}
    (inside : a.arena.InFunction creation enclosing) (known : t < a.arena.symbols.size)
    (isVariable : a.arena.IsVariable t) (located : a.arena.Located a.closedOver creation t) :
    ∃ plan, a.capturePlan? creation enclosing t = some plan ∧ plan.Ok a (some creation) t := by
  rw [capturePlan?]
  cases hi : a.closureIndex? enclosing t with
  | some index => exact ⟨_, rfl, creation, rfl, capturedAt_of_closureIndex? inside hi⟩
  | none =>
    cases hp : a.arena.absolutePath? t with
    | some path =>
      exact ⟨_, rfl, creation, rfl, ⟨known, isVariable, Arena.slotPath_of_slotPath? _ hp, rfl, rfl⟩,
        fun _ h => (by cases h)⟩
    | none =>
      obtain ⟨d, near⟩ := near_of_located rooted inside known located hi hp
      simp only [near.depth? rooted.ready, Option.map_some]
      match d, near with
      | 0, near =>
        exact ⟨_, rfl, creation, rfl, ⟨known, isVariable, ⟨near.scope_eq, rfl⟩, rfl, rfl⟩,
          fun _ h => (by cases h)⟩
      | d + 1, near =>
        exact ⟨_, rfl, creation, rfl, ⟨known, isVariable, ⟨near, rfl⟩, rfl, rfl⟩,
          fun _ h => (by cases h)⟩

/-- A function finds all that it captures where it is created. -/
theorem Rooted.capturePlans_ok (rooted : a.Rooted) {creation : ScopeId} {enclosing : Option NodeId}
    (inside : a.arena.InFunction creation enclosing) (symbols : List SymbolId)
    (located : ∀ t ∈ symbols, t < a.arena.symbols.size ∧ a.arena.IsVariable t ∧
      a.arena.Located a.closedOver creation t) :
    ∃ plans, symbols.mapM (a.capturePlan? creation enclosing) = some plans ∧
      List.Forall₂ (CapturePlan.Ok a (some creation)) plans symbols := by
  induction symbols with
  | nil => exact ⟨[], rfl, .nil⟩
  | cons t rest ih =>
    rw [List.forall_mem_cons] at located
    obtain ⟨⟨known, isVariable, here⟩, later⟩ := located
    obtain ⟨plan, found, ok⟩ := rooted.capturePlan?_ok inside known isVariable here
    obtain ⟨plans, founds, oks⟩ := ih later
    refine ⟨plan :: plans, ?_, .cons ok oks⟩
    rw [List.mapM_cons, found, founds]
    rfl

/-! ## Slots -/

variable {K : FunctionId → Ty → Prop}

/-- The cells of a scope, if what computes them stands in that scope. -/
theorem templateOf_ok {inits : Table SymbolId Op}
    (h : ∀ id op, inits.get? id = some op → op.Ok a K (some σ)) :
    (a.templateOf σ inits).Ok a K σ := by
  rw [Code.template_ok_iff]
  refine ⟨rfl, ?_, fun s hs => ?_⟩
  · show (((a.arena.scope σ).slots.map _).map _) = _
    rw [List.map_map]
    exact List.map_id _
  · obtain ⟨t, -, rfl⟩ := List.mem_map.mp hs
    refine ⟨rfl, rfl, rfl, ?_⟩
    show Code.optionOk a K (some σ) (inits.get? t)
    cases ht : inits.get? t with
    | none => trivial
    | some op => exact h t op ht

theorem Declares.slotOf (ready : a.arena.Ready) {node : NodeId} {ty : Ty}
    (h : a.Declares node σ ty) : ∃ slot, a.slotOf? node = some slot ∧ a.arena.SlotOf σ slot ty := by
  obtain ⟨t, found, known, rfl, rfl⟩ := h
  exact ⟨_, by rw [slotOf?, found]; rfl, t, ready.placed t known, rfl⟩

theorem Binds.left {first more : List Capture} (h : a.Binds σ (first ++ more)) : a.Binds σ first :=
  fun c hc => h c (List.mem_append_left _ hc)

theorem Binds.right {first more : List Capture} (h : a.Binds σ (first ++ more)) : a.Binds σ more :=
  fun c hc => h c (List.mem_append_right _ hc)

/-- A name that is captured has a slot in the scope that declares it. -/
theorem Binds.receives (ready : a.arena.Ready) {captures : List Capture} {capture : Option Capture}
    (h : a.Binds σ captures) (mem : ∀ c, capture = some c → c ∈ captures) :
    a.arena.Receives σ (a.captureSlot? capture) := by
  intro i hi
  cases capture with
  | none => cases hi
  | some c =>
    obtain ⟨slot, found, ok⟩ := (h c (mem c rfl)).slotOf ready
    rw [captureSlot?, Option.bind_some, found] at hi
    cases hi
    exact ok

end Analysis

/-! ## Compiled patterns -/

/-- The slots of captured names. -/
def Analysis.slotsOf (a : Analysis) (captures : List Capture) : List Nat :=
  captures.filterMap fun capture => a.slotOf? capture.node.id

namespace Analysis

variable (a : Analysis)

theorem slotsOf_append (first more : List Capture) :
    a.slotsOf (first ++ more) = a.slotsOf first ++ a.slotsOf more :=
  List.filterMap_append

theorem slotsOf_toList (capture : Option Capture) :
    a.slotsOf capture.toList = (a.captureSlot? capture).toList := by
  cases capture with
  | none => rfl
  | some capture =>
    rw [Option.toList_some, slotsOf, captureSlot?, Option.bind_some, List.filterMap_cons]
    cases a.slotOf? capture.node.id <;> rfl

end Analysis

namespace Compiler

variable (c : Compiler) (function : Option NodeId)

mutual

/-- **A compiled pattern names the slots of what it captures**, though not in the order of the
source. -/
theorem pattern_slots : ∀ (p : Pattern) (s : Compiling),
    (c.pattern function p s).1.slots.Perm (c.analysis.slotsOf p.captures)
  | ⟨_, shape, whole⟩, s => by
    rw [Pattern.captures, Analysis.slotsOf_append, Analysis.slotsOf_toList]
    exact (shape_slots shape s).append_right _

theorem shape_slots : ∀ (p : PatternShape) (s : Compiling),
    (c.shape function p s).1.slots.Perm (c.analysis.slotsOf p.captures)
  | .expr _, _ | .wildcard, _ | .default, _ | .ofType _, _ => .refl _
  | .list items, s => patterns_slots items s
  | .headTail head tail, s => by
    rw [PatternShape.captures, Analysis.slotsOf_append, Analysis.slotsOf_toList]
    exact (patterns_slots head s).append_right _
  | .initLast init last, s => by
    rw [PatternShape.captures, Analysis.slotsOf_append, Analysis.slotsOf_toList]
    exact ((patterns_slots last s).append_right _).trans List.perm_append_comm
  | .middle head mid last, s => by
    rw [PatternShape.captures, Analysis.slotsOf_append, Analysis.slotsOf_append,
      Analysis.slotsOf_toList, List.append_assoc]
    refine .trans (.of_eq (List.append_assoc ..)) ((patterns_slots head s).append ?_)
    exact ((patterns_slots last _).append_right _).trans List.perm_append_comm
  | .dict entries, s => keyPatterns_slots entries s
  | .openDict entries rest, s => by
    rw [PatternShape.captures, Analysis.slotsOf_append, Analysis.slotsOf_toList]
    exact (keyPatterns_slots entries s).append_right _

theorem patterns_slots : ∀ (ps : List Pattern) (s : Compiling),
    (Code.slotsOfAll (c.patterns function ps s).1).Perm (c.analysis.slotsOf (capturesOfPatterns ps))
  | [], _ => .nil
  | p :: rest, s => by
    rw [capturesOfPatterns, Analysis.slotsOf_append]
    exact (pattern_slots p s).append (patterns_slots rest _)

theorem keyPatterns_slots : ∀ (entries : List KeyPattern) (s : Compiling),
    (Code.slotsOfEntries (c.keyPatterns function entries s).1).Perm
      (c.analysis.slotsOf (capturesOfEntries entries))
  | [], _ => .nil
  | ⟨_, p⟩ :: rest, s => by
    rw [capturesOfEntries, Analysis.slotsOf_append]
    exact (pattern_slots p s).append (keyPatterns_slots rest _)

end

end Compiler

/-! ## The scope of a line -/

namespace Analysis

variable {a : Analysis} {σ : ScopeId}

/-- What fills a scope has its slots, in order. -/
theorem Fills.slotOf? (ready : a.arena.Ready) {nodes : List NodeId} (h : a.Fills nodes σ) {i : Nat}
    {n : NodeId} (here : nodes[i]? = some n) : a.slotOf? n = some i := by
  obtain ⟨lt, rfl⟩ := List.getElem?_eq_some_iff.mp here
  have lt' : i < (a.arena.scope σ).slots.length := h.length_eq ▸ lt
  have found : a.definitions.get? nodes[i] = some (a.arena.scope σ).slots[i] := h.get lt lt'
  rw [Analysis.slotOf?, found, Option.map_some]
  exact congrArg some (ready.slot σ i _ (List.getElem?_eq_getElem lt')).2.2

theorem Fills.slots (ready : a.arena.Ready) {nodes : List NodeId} (h : a.Fills nodes σ) :
    nodes.filterMap a.slotOf? = List.range (a.arena.scope σ).slots.length := by
  have each : nodes.map a.slotOf? = (List.range (a.arena.scope σ).slots.length).map some := by
    refine List.ext_getElem (by simpa using h.length_eq) fun i lt lt' => ?_
    rw [List.length_map] at lt
    rw [List.getElem_map, List.getElem_map, List.getElem_range]
    exact h.slotOf? ready (List.getElem?_eq_getElem lt)
  calc nodes.filterMap a.slotOf?
      = (nodes.map a.slotOf?).filterMap id := by rw [List.filterMap_map, Function.id_comp]
    _ = (List.range (a.arena.scope σ).slots.length).filterMap some := by
        rw [each, List.filterMap_map, Function.id_comp]
    _ = _ := List.filterMap_some

/-- Captured names that fill a scope have its slots, in order. -/
theorem Fills.slotsOf (ready : a.arena.Ready) {captures : List Capture}
    (h : a.Fills (captures.map (·.node.id)) σ) :
    a.slotsOf captures = List.range (a.arena.scope σ).slots.length := by
  rw [← h.slots ready, List.filterMap_map]
  rfl

/-- The names of a catch clause have all slots of its scope. -/
theorem Fills.catch_slots (ready : a.arena.Ready) {error trace : Option Capture}
    (h : a.Fills ((error.toList ++ trace.toList).map (·.node.id)) σ) :
    (a.captureSlot? error).toList ++ (a.captureSlot? trace).toList =
      List.range (a.arena.scope σ).slots.length := by
  rw [← h.slotsOf ready, slotsOf_append, slotsOf_toList, slotsOf_toList]

/-- **A pattern names all slots of the scope of its line, each of them once.** -/
theorem Fills.pattern_slots (ready : a.arena.Ready) {p : Pattern}
    (h : a.Fills (p.captures.map (·.node.id)) σ) (c : Compiler) (same : c.analysis = a)
    (function : Option NodeId) (s : Compiling) :
    (c.pattern function p s).1.slots.Perm (List.range (a.arena.scope σ).slots.length) := by
  subst same
  exact (c.pattern_slots function p s).trans (.of_eq (h.slotsOf ready))

end Analysis

end CellScript
