import CellScript.Proofs.Code.Address
import CellScript.Proofs.Code.Folded
import CellScript.Proofs.Code.Heeds
import CellScript.Proofs.Code.Templates

/-!
# Steps of compilation

The walk over a program carries a memory for folded values and the templates made so far; both agree
with analysis at every step, whatever functions become known later.

* `Compiling.Ok` — the invariant of the walk
* `Compiles` — a step of the walk, with what holds of the result whatever comes later
* `Compiler.finish_compiles`, `Compiler.template_compiles` — completing an operation, making a
  template
* `Compiler.InitsOk`, `Compiler.HeadInitsOk` — definitions of a block and of a comprehension
-/

namespace CellScript

open Code

variable {α β : Type} {a : Analysis} {s s' : Compiling}

/-- Memory and templates agree with analysis, whatever comes later. -/
structure Compiling.Ok (a : Analysis) (s : Compiling) : Prop where
  memory : s.memory.Settles (MemoryGood a · s.memory)
  /-- Nothing that has members is laid out before the program is compiled. -/
  members : ∀ id, s.memory.HasCell id → (s.memory.cell id).shape.members = none
  template : s.memory.Settles fun K => ∀ σ t, s.templates.get? σ = some t → t.Ok a K σ

/-- The node that a scope belongs to. -/
def Arena.ownerNode? (a : Arena) (σ : ScopeId) : Option NodeId :=
  match (a.scope σ).kind with
  | .function n | .block n => some n
  | .members s => some (a.symbol s).node.id
  | _ => none

/-- The nodes are told apart, and no scope that belongs to one of them has a template yet. -/
structure Compiling.Awaits (a : Analysis) (ids : List NodeId) (s : Compiling) : Prop
    extends s.Ok a where
  nodup : ids.Nodup
  fresh : ∀ σ n, a.arena.ownerNode? σ = some n → n ∈ ids → s.templates.get? σ = none

namespace Compiling.Awaits

variable {ids more : List NodeId}

/-- Some of the nodes, in any order. -/
theorem narrow (h : s.Awaits a ids) (sub : more.Subperm ids) : s.Awaits a more := by
  refine ⟨h.toOk, ?_, fun σ n owner mem => h.fresh σ n owner (sub.subset mem)⟩
  obtain ⟨few, perm, within⟩ := sub
  exact perm.nodup_iff.mp (within.nodup h.nodup)

theorem left {l : List NodeId} (h : s.Awaits a (l ++ more)) : s.Awaits a l :=
  h.narrow (List.sublist_append_left ..).subperm

theorem right (h : s.Awaits a (ids ++ more)) : s.Awaits a more :=
  h.narrow (List.sublist_append_right ..).subperm

end Compiling.Awaits

/-- The step keeps everything in agreement with analysis, and makes templates only for scopes that
belong to the nodes; `post` holds of its result, whatever comes later. -/
structure Compiles (a : Analysis) (ids : List NodeId) (s : Compiling) (x : Compile α)
    (post : α → (FunctionId → Ty → Prop) → Prop) : Prop where
  ok : (x s).2.Ok a
  grows : s.memory.Grows (x s).2.memory
  keeps : ∀ σ t, s.templates.get? σ = some t → (x s).2.templates.get? σ = some t
  spares : ∀ σ n, a.arena.ownerNode? σ = some n → n ∉ ids → s.templates.get? σ = none →
    (x s).2.templates.get? σ = none
  post : (x s).2.memory.Settles (post (x s).1)

namespace Compiles

variable {ids more : List NodeId} {x : Compile α} {P : α → (FunctionId → Ty → Prop) → Prop}
  {Q : β → (FunctionId → Ty → Prop) → Prop}

theorem pure {v : α} (ok : s.Ok a) (h : s.memory.Settles (P v)) :
    Compiles a ids s (Pure.pure v) P :=
  ⟨ok, .refl _, fun _ _ h => h, fun _ _ _ _ h => h, h⟩

/-- What does not depend on the functions that are known holds whatever comes later. -/
theorem always {v : α} (ok : s.Ok a) (h : ∀ K, P v K) : Compiles a ids s (Pure.pure v) P :=
  pure ok fun K _ => h K

theorem mono (h : Compiles a ids s x P) (sub : ids ⊆ more) : Compiles a more s x P :=
  ⟨h.ok, h.grows, h.keeps, fun σ n owner out => h.spares σ n owner fun mem => out (sub mem), h.post⟩

theorem imp {P' : α → (FunctionId → Ty → Prop) → Prop} (h : Compiles a ids s x P)
    (imp : ∀ v K, P v K → P' v K) : Compiles a ids s x P' :=
  ⟨h.ok, h.grows, h.keeps, h.spares, fun K known => imp _ K (h.post K known)⟩

/-- The result is the one of the step. -/
theorem result (h : Compiles a ids s x P) : Compiles a ids s x fun v K => v = (x s).1 ∧ P v K :=
  ⟨h.ok, h.grows, h.keeps, h.spares, fun K known => ⟨rfl, h.post K known⟩⟩

/-- The nodes of later steps still wait. -/
theorem awaits {l r : List NodeId} (h : Compiles a l s x P) (ok : s.Awaits a (l ++ r)) :
    (x s).2.Awaits a r := by
  refine ⟨h.ok, ok.right.nodup, fun σ n owner mem => h.spares σ n owner (fun first => ?_)
    (ok.right.fresh σ n owner mem)⟩
  exact (List.nodup_append'.mp ok.nodup).2.2 first mem

/-- One step after another, each for nodes of its own. -/
theorem bind {l r : List NodeId} {f : α → Compile β} (ok : s.Awaits a (l ++ r))
    (h : s.Awaits a l → Compiles a l s x P)
    (rest : ∀ v s', s'.Awaits a r → s.memory.Grows s'.memory → s'.memory.Settles (P v) →
      Compiles a r s' (f v) Q) : Compiles a (l ++ r) s (x >>= f) Q := by
  have first := h ok.left
  have later := rest _ _ (first.awaits ok) first.grows first.post
  refine ⟨later.ok, first.grows.trans later.grows, fun σ t found =>
    later.keeps σ t (first.keeps σ t found),
    fun σ n owner out none => ?_, later.post⟩
  rw [List.mem_append, not_or] at out
  exact later.spares σ n owner out.2 (first.spares σ n owner out.1 none)

/-- A step after which only its result is completed. -/
theorem last {f : α → Compile β} (h : Compiles a ids s x P)
    (rest : ∀ v s', s'.Ok a → s.memory.Grows s'.memory → s'.memory.Settles (P v) →
      Compiles a [] s' (f v) Q) : Compiles a ids s (x >>= f) Q := by
  have later := rest _ _ h.ok h.grows h.post
  exact ⟨later.ok, h.grows.trans later.grows, fun σ t found => later.keeps σ t (h.keeps σ t found),
    fun σ n owner out none => later.spares σ n owner List.not_mem_nil (h.spares σ n owner out none),
    later.post⟩

/-- Only some of the nodes count, in any order. -/
theorem narrow (ok : s.Awaits a ids) (sub : more.Subperm ids)
    (h : s.Awaits a more → Compiles a more s x P) : Compiles a ids s x P :=
  (h (ok.narrow sub)).mono sub.subset

/-- The first of the nodes has no template. -/
theorem tail {node : NodeId} (ok : s.Awaits a (node :: ids))
    (h : s.Awaits a ids → Compiles a ids s x P) : Compiles a (node :: ids) s x P :=
  narrow ok (List.sublist_cons_self ..).subperm h

theorem discard (h : Compiles a ids s x P) : Compiles a ids s (discard x) fun _ _ => True :=
  ⟨h.ok, h.grows, h.keeps, h.spares, fun _ _ => trivial⟩

end Compiles

namespace Compiler

variable {c : Compiler} {σ : ScopeId} {function : Option NodeId} {ids : List NodeId}
  {units : UnitSet}

/-! ## Single steps -/

theorem finish_compiles (rooted : a.Rooted) {es : List Expr} {op : Op} (ok : s.Ok a)
    (h : s.memory.Settles fun K => a.Suits σ es (op.Ok a K (some σ)) (op.Below · ·)) :
    Compiles a ids s (c.finish op) fun op K => a.Suits σ es (op.Ok a K (some σ))
      (op.Below · ·) := by
  have completes := op.finish_completes rooted c.options ok.memory fun K known => (h K known).ok
  have suits := h s.memory.Returns fun _ _ h => h
  refine ⟨⟨completes.memory, fun id has => ?_, ok.template.grows completes.grows⟩, completes.grows,
    fun _ _ h => h, fun _ _ _ _ h => h, fun K known => ⟨completes.op K known,
      (suits.narrow fun _ _ below => below.finish c.options s.memory).heeds⟩⟩
  change (op.finish c.options s.memory).2.HasCell id at has
  show ((op.finish c.options s.memory).2.cell id).shape.members = none
  by_cases old : id.space < s.memory.spaces.size
  · have size := (completes.grows.space _ old).size
    rw [(completes.grows.cell id old).shape]
    exact ok.members id ⟨old, by rw [← size]; exact has.2⟩
  · exact completes.fresh id (Nat.le_of_not_lt old) has

/-- The template of a scope is known once it was made. -/
theorem template_known (inits : Compile (Table SymbolId Op)) (s : Compiling) :
    (c.template σ inits s).2.templates.get? σ = some (c.template σ inits s).1 := by
  cases ht : s.templates.get? σ with
  | some t =>
    rw [template_of_some ht]
    exact ht
  | none =>
    rw [template_of_none ht]
    show Table.get? (Table.insert _ _ _) σ = _
    rw [Table.get?_insert, if_pos rfl]

/-- A template is made with cells whose values stand in its scope. -/
theorem template_compiles_of_none {more : List NodeId} {inits : Compile (Table SymbolId Op)}
    {P : Table SymbolId Op → (FunctionId → Ty → Prop) → Prop} (none : s.templates.get? σ = none)
    (owned : ∀ n, c.analysis.arena.ownerNode? σ = some n → n ∈ more)
    (h : Compiles c.analysis ids s inits P) (sub : ids ⊆ more)
    (imp : ∀ table K, P table K → ∀ id op, table.get? id = some op → op.Ok c.analysis K (some σ)) :
    Compiles c.analysis more s (c.template σ inits)
      fun t K => ∃ table, t = c.analysis.templateOf σ table ∧ P table K := by
  have made := @template_of_none c σ inits s none
  have entry : ∀ {τ : ScopeId}, τ ≠ σ →
      (c.template σ inits s).2.templates.get? τ = (inits s).2.templates.get? τ := by
    intro τ other
    rw [made]
    show Table.get? (Table.insert _ _ _) τ = _
    rw [Table.get?_insert, if_neg fun same => other same.symm]
  refine ⟨?_, ?_, fun τ t found => ?_, fun τ n owner out absent => ?_, ?_⟩
  · rw [made]
    refine ⟨h.ok.memory, h.ok.members, fun K known τ t found => ?_⟩
    change Table.get? (Table.insert _ _ _) τ = _ at found
    rw [Table.get?_insert] at found
    split at found
    · next same =>
      cases found
      rw [← same]
      exact Analysis.templateOf_ok (imp _ K (h.post K known))
    · exact h.ok.template K known τ t found
  · rw [made]
    exact h.grows
  · rw [entry]
    · exact h.keeps τ t found
    · rintro rfl
      rw [none] at found
      cases found
  · rw [entry]
    · exact h.spares τ n owner (fun mem => out (sub mem)) absent
    · rintro rfl
      exact out (owned n owner)
  · rw [made]
    exact fun K known => ⟨_, rfl, h.post K known⟩

/-- The template of a scope that belongs to a node. -/
theorem template_compiles {node : NodeId} {inits : Compile (Table SymbolId Op)}
    {P : Table SymbolId Op → (FunctionId → Ty → Prop) → Prop}
    (owner : c.analysis.arena.ownerNode? σ = some node) (ok : s.Awaits c.analysis (node :: ids))
    (h : s.Awaits c.analysis ids → Compiles c.analysis ids s inits P)
    (imp : ∀ table K, P table K → ∀ id op, table.get? id = some op → op.Ok c.analysis K (some σ)) :
    Compiles c.analysis (node :: ids) s (c.template σ inits)
      fun t K => ∃ table, t = c.analysis.templateOf σ table ∧ P table K := by
  refine template_compiles_of_none (ok.fresh σ node owner (List.mem_cons_self ..)) (fun n hn => ?_)
    (h (ok.narrow (List.sublist_cons_self ..).subperm)) (List.subset_cons_self ..) imp
  rw [owner] at hn
  cases hn
  exact List.mem_cons_self ..

/-- The cells of a scope look no further than what computes them. -/
theorem templateOf_below {table : Table SymbolId Op} {count depth : Nat}
    (h : ∀ id op, table.get? id = some op → op.Below count depth) :
    (a.templateOf σ table).Below count depth := by
  rw [template_below_iff]
  intro s mem
  obtain ⟨t, -, rfl⟩ := List.mem_map.mp mem
  show optionBelow count depth (table.get? t)
  cases ht : table.get? t with
  | none => trivial
  | some op => exact h t op ht

/-- The template of a scope without definitions. -/
theorem template_nil_compiles {node : NodeId} (owner : c.analysis.arena.ownerNode? σ = some node)
    (ok : s.Awaits c.analysis [node]) :
    Compiles c.analysis [node] s (c.template σ (return [])) fun t K =>
      c.analysis.Suits σ [] (t.Ok c.analysis K σ) (t.Below · ·) := by
  refine (template_compiles (P := fun table _ => table = []) owner ok
    (fun ok => .always ok.toOk fun _ => rfl) ?_).imp ?_
  · rintro _ K rfl id op found
    cases found
  · rintro _ K ⟨_, rfl, rfl⟩
    exact .bare (Analysis.templateOf_ok fun id op found => by cases found)
      fun count depth => templateOf_below fun id op found => by cases found

theorem constant_ok (node : Node) (l : Literal) (K : FunctionId → Ty → Prop) :
    a.Suits σ [] ((constant node l).Ok a K (some σ)) ((constant node l).Below · ·) := by
  unfold constant
  split
  · next v hv =>
    refine .bare ?_ fun _ _ => trivial
    rintro id signature rfl
    exact absurd rfl (Value.ofLiteral_ty hv)
  · next e he => exact .bare (Value.ofLiteral_orderly l e he).1 fun _ _ => trivial

/-- **A reference that can be reached becomes one that leads to what it is bound to.** -/
theorem reference_ok (rooted : c.analysis.Rooted) (inside : c.analysis.arena.InFunction σ function)
    (node : Node) (r : Reference) (h : c.analysis.Reaches σ node.id) (K : FunctionId → Ty → Prop) :
    c.analysis.Suits σ [.reference node r] ((c.reference node r function).Ok c.analysis K (some σ))
      ((c.reference node r function).Below · ·) := by
  obtain ⟨found, address, entry, known, isVariable, has, leads⟩ := rooted.address_leads inside h
  rw [reference, has]
  have leads : CellRef.Leads c.analysis σ found.target
      ⟨r.text, address, (c.analysis.arena.symbol found.target).ty, none⟩ :=
    ⟨known, isVariable, leads, rfl, rfl⟩
  exact ⟨⟨σ, found, rfl, entry, leads⟩, fun inner depth count near sees => leads.below near
    ((sees _ (List.mem_singleton.mpr rfl)).reference node r .whole found entry)⟩

theorem insert_ok {K : FunctionId → Ty → Prop} {σ : Option ScopeId} {table : Table SymbolId Op}
    {symbol : SymbolId} {op : Op} (h : op.Ok a K σ)
    (rest : ∀ id op, table.get? id = some op → op.Ok a K σ) :
    ∀ id op', (table.insert symbol op).get? id = some op' → op'.Ok a K σ := by
  intro id op' found
  rw [Table.get?_insert] at found
  split at found
  · cases found
    exact h
  · exact rest id op' found

theorem owner_block {node : NodeId} {inner : ScopeId} (block : a.BlockOf node σ inner) :
    a.arena.ownerNode? inner = some node := by
  rw [Arena.ownerNode?, block.kind]

/-- Parts that all find what they look at, or else an operation that fails wherever it stands and
looks at nothing. -/
def OrFault (a : Analysis) (K : FunctionId → Ty → Prop) (P : List α → Prop) :
    Except Op (List α) → Prop
  | .ok parts => P parts
  | .error op => (∀ σ, op.Ok a K σ) ∧ ∀ count depth, op.Below count depth

theorem OrFault.map {K : FunctionId → Ty → Prop} {P Q : List α → Prop} {r : Except Op (List α)}
    {part : α} (h : OrFault a K P r) (imp : ∀ parts, P parts → Q (part :: parts)) :
    OrFault a K Q (r.map (part :: ·)) := by
  cases r with
  | ok parts => exact imp parts h
  | error op => exact h

/-! ## Nodes in the order of compilation -/

/-- The nodes of the definitions among the heads of a comprehension. -/
def idsOfInits (heads : List ForHead) : List NodeId :=
  heads.flatMap fun
    | .definition _ _ _ e => e.nodeIds
    | .generator _ _ _ _ | .condition _ => []

/-- The nodes of generators and conditions among the heads of a comprehension. -/
def idsOfSources (heads : List ForHead) : List NodeId :=
  heads.flatMap fun
    | .generator _ _ _ e | .condition e => e.nodeIds
    | .definition _ _ _ _ => []

theorem idsOfHeads_subperm (heads : List ForHead) :
    (idsOfInits heads ++ idsOfSources heads).Subperm (idsOfHeads heads) := by
  induction heads with
  | nil => exact List.Subperm.refl _
  | cons head rest ih =>
    rw [List.subperm_ext_iff] at ih ⊢
    intro id _
    have more : (idsOfInits rest ++ idsOfSources rest).count id ≤ (idsOfHeads rest).count id := by
      by_cases mem : id ∈ idsOfInits rest ++ idsOfSources rest
      · exact ih id mem
      · rw [List.count_eq_zero_of_not_mem mem]
        exact Nat.zero_le _
    cases head <;>
      simp only [idsOfInits, idsOfSources, idsOfHeads, List.flatMap_cons, List.count_append,
        List.count_cons, List.count_nil] at more ⊢ <;> omega

/-- The values in a table look at the first slots only. -/
def initsBelow (count depth : Nat) (table : Table SymbolId Op) : Prop :=
  ∀ id op, table.get? id = some op → op.Below count depth

theorem initsBelow_nil (count depth : Nat) : initsBelow count depth [] :=
  fun _ _ found => by cases found

theorem initsBelow_insert {count depth : Nat} {table : Table SymbolId Op} {symbol : SymbolId}
    {op : Op} (h : op.Below count depth ∧ initsBelow count depth table) :
    initsBelow count depth (table.insert symbol op) := by
  intro id op' found
  rw [Table.get?_insert] at found
  split at found
  · cases found
    exact h.1
  · exact h.2 id op' found

/-- A table has values for some definitions, each of which stands in a scope. -/
def InitsOk (a : Analysis) (σ : ScopeId) (nodes : List NodeId) (table : Table SymbolId Op)
    (K : FunctionId → Ty → Prop) : Prop :=
  (∀ id op, table.get? id = some op → op.Ok a K (some σ)) ∧
    ∀ node ∈ nodes, ∀ t, a.definitions.get? node = some t → (table.get? t).isSome = true

theorem InitsOk.nil (σ : ScopeId) (K : FunctionId → Ty → Prop) : InitsOk a σ [] [] K :=
  ⟨fun _ _ h => (by cases h), fun _ h => (by cases h)⟩

theorem InitsOk.insert {K : FunctionId → Ty → Prop} {nodes : List NodeId} {node : NodeId}
    {table : Table SymbolId Op} {symbol : SymbolId} {op : Op} (h : op.Ok a K (some σ))
    (found : a.definitions.get? node = some symbol) (rest : InitsOk a σ nodes table K) :
    InitsOk a σ (node :: nodes) (table.insert symbol op) K := by
  refine ⟨insert_ok h rest.1, fun n mem t ht => ?_⟩
  rw [Table.get?_insert]
  split
  · rfl
  · next other =>
    rcases List.mem_cons.mp mem with rfl | mem
    · rw [found] at ht
      cases ht
      exact absurd rfl other
    · exact rest.2 n mem t ht

theorem InitsOk.undefined {K : FunctionId → Ty → Prop} {nodes : List NodeId} {node : NodeId}
    {table : Table SymbolId Op} (none : a.definitions.get? node = none)
    (rest : InitsOk a σ nodes table K) : InitsOk a σ (node :: nodes) table K := by
  refine ⟨rest.1, fun n mem t ht => ?_⟩
  rcases List.mem_cons.mp mem with rfl | mem
  · rw [none] at ht
    cases ht
  · exact rest.2 n mem t ht

/-- All slots of a scope that definitions fill have a value. -/
theorem InitsOk.furnished {K : FunctionId → Ty → Prop} {nodes : List NodeId}
    {table : Table SymbolId Op} (h : InitsOk a σ nodes table K) (fills : a.Fills nodes σ) :
    ∀ s ∈ (a.templateOf σ table).slots, s.init.isSome = true := by
  intro s mem
  obtain ⟨t, slot, rfl⟩ := List.mem_map.mp mem
  obtain ⟨i, lt, rfl⟩ := List.getElem_of_mem slot
  have lt' : i < nodes.length := fills.length_eq ▸ lt
  exact h.2 _ (List.getElem_mem lt') _ (fills.get lt' lt)

/-- The template of a scope whose values look no further than the expressions ask. -/
theorem InitsOk.template {K : FunctionId → Ty → Prop} {nodes : List NodeId} {t : Template}
    {es : List Expr} (h : ∃ table, t = a.templateOf σ table ∧
      a.Suits σ es (InitsOk a σ nodes table K) (initsBelow · · table)) :
    a.Suits σ es (t.Ok a K σ) (t.Below · ·) := by
  obtain ⟨table, rfl, inits⟩ := h
  exact (inits.imp fun ok => Analysis.templateOf_ok ok.1).narrow fun _ _ => templateOf_below

/-! ## Heads in order -/

/-- The nodes of the definitions among the heads of a comprehension, under which they are
declared. -/
def definitionNodes (heads : List ForHead) : List NodeId :=
  heads.filterMap fun
    | .definition node _ _ _ => some node.id
    | .generator _ _ _ _ | .condition _ => none

/-- The nodes of the generators among the heads of a comprehension, under which they are
declared. -/
def generatorNodes (heads : List ForHead) : List NodeId :=
  heads.filterMap fun
    | .generator node _ _ _ => some node.id
    | .definition _ _ _ _ | .condition _ => none

/-- The values of definitions in a comprehension, each of which looks at itself and at earlier slots
only. -/
structure HeadInitsOk (a : Analysis) (σ : ScopeId) (nodes : List NodeId) (table : Table SymbolId Op)
    (K : FunctionId → Ty → Prop) : Prop where
  inits : InitsOk a σ nodes table K
  awaits : ∀ id op, table.get? id = some op → op.Awaits ((a.arena.symbol id).slot + 1)
  only : ∀ id op, table.get? id = some op → ∃ node ∈ nodes, a.definitions.get? node = some id

/-- The slots of a comprehension, those of its definitions with a value and those of its generators
without. -/
structure Furnished (a : Analysis) (σ : ScopeId) (heads : List ForHead)
    (slots : List Slot) : Prop where
  length : slots.length = (a.arena.scope σ).slots.length
  value : ∀ node ∈ definitionNodes heads, ∀ t, a.definitions.get? node = some t →
    t < a.arena.symbols.size → (a.arena.symbol t).scope = σ →
      ∃ s init, slots[(a.arena.symbol t).slot]? = some s ∧ s.init = some init
  bare : ∀ node ∈ generatorNodes heads, ∀ i, a.slotOf? node = some i →
    ∀ s, slots[i]? = some s → s.init = none

theorem Furnished.tail {head : ForHead} {heads : List ForHead} {slots : List Slot}
    (h : Furnished a σ (head :: heads) slots) : Furnished a σ heads slots := by
  have later : ∀ {node : NodeId} {f : ForHead → Option NodeId}, node ∈ heads.filterMap f →
      node ∈ (head :: heads).filterMap f := by
    intro node f mem
    obtain ⟨other, inside, same⟩ := List.mem_filterMap.mp mem
    exact List.mem_filterMap.mpr ⟨other, List.mem_cons_of_mem _ inside, same⟩
  exact ⟨h.length, fun node mem => h.value node (later mem), fun node mem =>
    h.bare node (later mem)⟩

/-- Heads in order have the slots from a number on. -/
theorem headsOrdered_later {heads : List ForHead} {count : Nat} (h : a.HeadsOrdered σ count heads) :
    ∀ node ∈ headNodes heads, ∃ i, a.slotOf? node = some i ∧ count ≤ i := by
  induction heads generalizing count with
  | nil => exact fun _ mem => (by cases mem)
  | cons head rest ih =>
    cases head with
    | generator node _ _ _ | definition node _ _ _ =>
      refine List.forall_mem_cons.mpr ⟨⟨count, h.1, Nat.le_refl _⟩, fun other mem => ?_⟩
      obtain ⟨i, slot, le⟩ := ih h.2.2 other mem
      exact ⟨i, slot, Nat.le_of_succ_le le⟩
    | condition e => exact ih h.2

theorem generatorNodes_subset (heads : List ForHead) : generatorNodes heads ⊆ headNodes heads := by
  intro node mem
  obtain ⟨head, inside, same⟩ := List.mem_filterMap.mp mem
  refine List.mem_filterMap.mpr ⟨head, inside, ?_⟩
  cases head <;> first | exact same | cases same

theorem definitionNodes_subset (heads : List ForHead) :
    definitionNodes heads ⊆ headNodes heads := by
  intro node mem
  obtain ⟨head, inside, same⟩ := List.mem_filterMap.mp mem
  refine List.mem_filterMap.mpr ⟨head, inside, ?_⟩
  cases head <;> first | exact same | cases same

/-- Generators and definitions have different slots. -/
theorem headsOrdered_apart {heads : List ForHead} {count : Nat} (h : a.HeadsOrdered σ count heads) :
    ∀ node ∈ generatorNodes heads, ∀ other ∈ definitionNodes heads, a.slotOf? node ≠
      a.slotOf? other := by
  induction heads generalizing count with
  | nil => exact fun _ mem => (by cases mem)
  | cons head rest ih =>
    cases head with
    | generator node _ _ _ =>
      refine List.forall_mem_cons.mpr ⟨fun other mem same => ?_, ih h.2.2⟩
      obtain ⟨i, slot, le⟩ := headsOrdered_later h.2.2 other (definitionNodes_subset _ mem)
      rw [h.1, slot, Option.some.injEq] at same
      exact absurd le (same ▸ Nat.not_succ_le_self _)
    | definition node _ _ _ =>
      refine fun other mem => List.forall_mem_cons.mpr ⟨fun same => ?_, ih h.2.2 other mem⟩
      obtain ⟨i, slot, le⟩ := headsOrdered_later h.2.2 other (generatorNodes_subset _ mem)
      rw [h.1, slot, Option.some.injEq] at same
      exact absurd le (same ▸ Nat.not_succ_le_self _)
    | condition e => exact ih h.2

theorem HeadInitsOk.slotsInOrder {K : FunctionId → Ty → Prop} {nodes : List NodeId}
    {table : Table SymbolId Op} (h : HeadInitsOk a σ nodes table K) (ready : a.arena.Ready) :
    SlotsInOrder (a.templateOf σ table).slots := by
  intro i s init found value
  change ((a.arena.scope σ).slots.map _)[i]? = some s at found
  rw [List.getElem?_map, Option.map_eq_some_iff] at found
  obtain ⟨t, ht, rfl⟩ := found
  rw [← (ready.slot σ i t ht).2.2]
  exact h.awaits t init value

theorem HeadInitsOk.furnished {K : FunctionId → Ty → Prop} {heads : List ForHead}
    {table : Table SymbolId Op} (h : HeadInitsOk a σ (definitionNodes heads) table K)
    (ready : a.arena.Ready) {count : Nat} (ordered : a.HeadsOrdered σ count heads) :
    Furnished a σ heads (a.templateOf σ table).slots := by
  refine ⟨List.length_map .., fun node mem t found known home =>
    ?_, fun node mem i slot s there => ?_⟩
  · obtain ⟨init, value⟩ := Option.isSome_iff_exists.mp (h.inits.2 node mem t found)
    have placed := ready.placed t known
    rw [home] at placed
    simp only [Analysis.templateOf, List.getElem?_map, placed, Option.map_some, Option.some.injEq,
      exists_eq_left', exists_and_left]
    exact ⟨init, value⟩
  · change ((a.arena.scope σ).slots.map _)[i]? = some s at there
    rw [List.getElem?_map, Option.map_eq_some_iff] at there
    obtain ⟨t, place, rfl⟩ := there
    refine Option.eq_none_iff_forall_ne_some.mpr fun init value => ?_
    obtain ⟨other, inside, found⟩ := h.only t init value
    refine headsOrdered_apart ordered node mem other inside ?_
    rw [slot, Analysis.slotOf?, found, Option.map_some, (ready.slot σ i t place).2.2]

end Compiler

end CellScript
