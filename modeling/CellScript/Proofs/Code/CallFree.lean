import CellScript.Eval.Lemmas
import CellScript.Proofs.Code.Templates
import CellScript.Proofs.Syntax.Occurs

/-!
# Operations that call no functions

Functions are run by calls and by expressions in patterns, and by nothing else. A program in which
neither occurs is compiled to operations that run no function, specialised and folded or not. Bodies
of functions are left out of account, since nobody runs them.

* `Expr.Runs` — the expressions that run functions
* `Op.CallFree` — the operation runs no function, by recursion
* `Op.CallFree.finish` — specialising and folding add no calls
* `Compiler.program_callFree` — the templates of a program in which no such expression occurs
-/

namespace CellScript

open Code

/-- Evaluating the expression, its parts apart, may run a function: it is a call, or a match in
whose patterns an expression stands. -/
def Expr.Runs : Expr → Prop
  | .call .. => True
  | .matchOn _ _ lines => ∃ line ∈ lines, line.pattern.expressions ≠ []
  | _ => False

/-- Nothing in the expression runs a function. -/
def Expr.CallFree (e : Expr) : Prop := ∀ part, e.Occurs part → ¬part.Runs

theorem Expr.CallFree.child {e part : Expr} (h : e.CallFree) (mem : part ∈ e.children) :
    part.CallFree :=
  fun inner occurs => h inner (occurs.trans (.child mem .whole))

/-- An expression that runs nothing itself is made of parts in which nothing runs a function. -/
theorem Expr.CallFree.of_parts {e : Expr} (h : ¬e.Runs)
    (parts : ∀ part ∈ e.children, part.CallFree) :
    e.CallFree := by
  intro part occurs
  rcases occurs.cases with rfl | ⟨child, there, occurs⟩
  · exact h
  · exact parts child there part occurs

namespace Code

/-! ## Operations -/

/-- The reference remembers no cell. -/
def CapturePlan.Siteless : CapturePlan → Prop
  | .propagate _ => True
  | .cell ref => ref.site = none

mutual

/-- The operation runs no function, and no reference in it remembers a cell. -/
def Op.CallFree : Op → Prop
  | ⟨_, action⟩ => action.CallFree

def Action.CallFree : Action → Prop
  | .constant _ | .fail _ => True
  | .reference ref _ => ref.site = none
  | .list items => itemsCallFree items
  | .patchedList segments => listSegmentsCallFree segments
  | .dict entries => entriesCallFree entries
  | .mergedDict segments => dictSegmentsCallFree segments
  | .function params _ _ _ captures _ =>
    paramsCallFree params ∧ ∀ plan ∈ captures, plan.Siteless
  | .call _ _ | .fixedCall _ _ _ => False
  | .curry callee args => callee.CallFree ∧ namedCallFree args
  | .letIn template body => template.CallFree ∧ body.CallFree
  | .ifElse c t e => c.CallFree ∧ t.CallFree ∧ e.CallFree
  | .matchOn subject lines => subject.CallFree ∧ linesCallFree lines
  | .forEach template heads body => template.CallFree ∧ headsCallFree heads ∧ body.CallFree
  | .binary _ _ l r => l.CallFree ∧ r.CallFree
  | .unary _ e => e.CallFree
  | .cast e _ => e.CallFree
  | .isOf e _ => e.CallFree
  | .access container keys => container.CallFree ∧ opsCallFree keys
  | .keyAccess container _ => container.CallFree
  | .tryCatch body template _ _ handler => body.CallFree ∧ template.CallFree ∧ handler.CallFree
  | .throw e => e.CallFree

def opsCallFree : List Op → Prop
  | [] => True
  | op :: rest => op.CallFree ∧ opsCallFree rest

def optionCallFree : Option Op → Prop
  | none => True
  | some op => op.CallFree

def itemsCallFree : List Item → Prop
  | [] => True
  | .value op :: rest => op.CallFree ∧ itemsCallFree rest
  | .splat op :: rest => op.CallFree ∧ itemsCallFree rest

def listSegmentsCallFree : List ListSegment → Prop
  | [] => True
  | .constant _ :: rest => listSegmentsCallFree rest
  | .value op :: rest => op.CallFree ∧ listSegmentsCallFree rest
  | .splat op :: rest => op.CallFree ∧ listSegmentsCallFree rest

def entriesCallFree : List Entry → Prop
  | [] => True
  | .pair k v :: rest => k.CallFree ∧ v.CallFree ∧ entriesCallFree rest
  | .splat op :: rest => op.CallFree ∧ entriesCallFree rest

def dictSegmentsCallFree : List DictSegment → Prop
  | [] => True
  | .constant _ :: rest => dictSegmentsCallFree rest
  | .pair _ v :: rest => v.CallFree ∧ dictSegmentsCallFree rest
  | .dynamic k v :: rest => k.CallFree ∧ v.CallFree ∧ dictSegmentsCallFree rest
  | .splat op :: rest => op.CallFree ∧ dictSegmentsCallFree rest

def paramsCallFree : List Param → Prop
  | [] => True
  | ⟨_, _, default⟩ :: rest => optionCallFree default ∧ paramsCallFree rest

def namedCallFree : List Named → Prop
  | [] => True
  | ⟨_, op⟩ :: rest => op.CallFree ∧ namedCallFree rest

def linesCallFree : List Line → Prop
  | [] => True
  | ⟨pattern, template, guard, result⟩ :: rest =>
    (pattern.CallFree ∧ template.CallFree ∧ optionCallFree guard ∧ result.CallFree) ∧
      linesCallFree rest

def headsCallFree : List Head → Prop
  | [] => True
  | .generator _ _ source :: rest => source.CallFree ∧ headsCallFree rest
  | .definition _ :: rest => headsCallFree rest
  | .condition op :: rest => op.CallFree ∧ headsCallFree rest

/-- There are no expressions in the pattern. -/
def Pattern.CallFree : Pattern → Prop
  | ⟨shape, _⟩ => shape.CallFree

def Shape.CallFree : Shape → Prop
  | .expr _ => False
  | .any | .ofType _ => True
  | .list items => patternsCallFree items
  | .headTail head _ => patternsCallFree head
  | .initLast _ last => patternsCallFree last
  | .middle head _ last => patternsCallFree head ∧ patternsCallFree last
  | .dict entries => keyPatternsCallFree entries
  | .openDict entries _ => keyPatternsCallFree entries

def patternsCallFree : List Pattern → Prop
  | [] => True
  | p :: rest => p.CallFree ∧ patternsCallFree rest

def keyPatternsCallFree : List KeyPattern → Prop
  | [] => True
  | ⟨_, p⟩ :: rest => p.CallFree ∧ keyPatternsCallFree rest

def slotsCallFree : List Slot → Prop
  | [] => True
  | ⟨_, _, _, _, init, _⟩ :: rest => optionCallFree init ∧ slotsCallFree rest

/-- The values of the slots run no function. -/
def Template.CallFree : Template → Prop
  | ⟨_, slots⟩ => slotsCallFree slots

end

theorem slotsCallFree_iff (slots : List Slot) :
    slotsCallFree slots ↔ ∀ s ∈ slots, optionCallFree s.init := by
  induction slots with
  | nil => exact ⟨fun _ s hs => (by cases hs), fun _ => trivial⟩
  | cons s rest ih =>
    obtain ⟨symbol, name, ty, span, init, members⟩ := s
    rw [slotsCallFree, ih, List.forall_mem_cons]

theorem template_callFree_iff (t : Template) :
    t.CallFree ↔ ∀ s ∈ t.slots, optionCallFree s.init := by
  obtain ⟨scope, slots⟩ := t
  rw [Template.CallFree, slotsCallFree_iff]

/-! ## Completed operations -/

theorem listSegmentsCallFree_append (segments rest : List ListSegment) :
    listSegmentsCallFree (segments ++ rest) ↔
      listSegmentsCallFree segments ∧ listSegmentsCallFree rest := by
  induction segments with
  | nil => exact ⟨fun h => ⟨trivial, h⟩, fun h => h.2⟩
  | cons segment segments ih =>
    cases segment with
    | constant run => exact ih
    | value op | splat op =>
      rw [List.cons_append, listSegmentsCallFree, listSegmentsCallFree, ih, and_assoc]

theorem constantRun_callFree (run : List Value) : listSegmentsCallFree (constantRun run) := by
  unfold constantRun
  split <;> trivial

theorem listSegments_callFree (items : List Item) (run : List Value) (h : itemsCallFree items) :
    listSegmentsCallFree (listSegments run items) := by
  induction items generalizing run with
  | nil => exact constantRun_callFree run
  | cons item rest ih =>
    have parts : item.op.CallFree ∧ itemsCallFree rest := by cases item <;> exact h
    rw [listSegments]
    split
    · exact ih _ parts.2
    · rw [listSegmentsCallFree_append]
      refine ⟨constantRun_callFree run, ?_⟩
      cases item <;> exact ⟨parts.1, ih [] parts.2⟩

theorem mergedRun_callFree_append (run : Option (Entries Value)) (rest : List DictSegment) :
    dictSegmentsCallFree (mergedRun run ++ rest) ↔ dictSegmentsCallFree rest := by
  cases run <;> rfl

theorem dictSegments_callFree (entries : List Entry) (run : Option (Entries Value))
    (h : entriesCallFree entries) : dictSegmentsCallFree (dictSegments run entries) := by
  induction entries generalizing run with
  | nil => cases run <;> trivial
  | cons entry rest ih =>
    have later : entriesCallFree rest := by
      cases entry with
      | pair k v => exact h.2.2
      | splat op => exact h.2
    rw [dictSegments]
    split
    · exact ih _ later
    · rw [mergedRun_callFree_append]
      cases entry with
      | splat op => exact ⟨h.1, ih none later⟩
      | pair k v =>
        rw [Entry.segment]
        split
        · exact ⟨h.2.1, ih none later⟩
        · exact ⟨h.1, h.2.1, ih none later⟩

/-- Specialising adds no calls. -/
theorem Op.CallFree.specialize {op : Op} (h : op.CallFree) : op.specialize.CallFree := by
  obtain ⟨span, action⟩ := op
  change action.CallFree at h
  show action.specialize.CallFree
  unfold Action.specialize
  split
  · split <;> exact h
  · exact h.elim
  · split
    · exact listSegments_callFree _ [] h
    · exact h
  · split
    · exact dictSegments_callFree _ none h
    · exact h
  · split
    · exact h.1
    · exact h
  · exact h

/-- **A completed operation runs no function if it did not before.** -/
theorem Op.CallFree.finish {op : Op} (h : op.CallFree) (options : Options) (m : Memory) :
    (op.finish options m).1.CallFree := by
  have narrow : (if options.specialize = true then op.specialize else op).CallFree := by
    split
    · exact h.specialize
    · exact h
  simp only [Op.finish]
  generalize (if options.specialize = true then op.specialize else op) = op at narrow
  split
  · unfold Op.fold
    split
    · exact narrow
    · split
      · trivial
      · exact narrow
  · exact narrow

end Code

variable {α β : Type}

/-! ## Compilation -/

/-- No template lets a function run, and nothing is laid out yet. -/
structure Compiling.CallFree (s : Compiling) : Prop where
  template : ∀ σ t, s.templates.get? σ = some t → t.CallFree
  spaces : s.memory.spaces = Memory.initial.spaces

/-- The step makes something of which a property holds, and no template that lets a function run. -/
def Compile.Makes (x : Compile α) (P : α → Prop) : Prop :=
  ∀ s : Compiling, s.CallFree → P (x s).1 ∧ (x s).2.CallFree

namespace Compile.Makes

variable {x : Compile α} {P : α → Prop}

theorem pure {v : α} (h : P v) : Makes (Pure.pure v) P := fun _ hs => ⟨h, hs⟩

theorem bind {f : α → Compile β} {Q : β → Prop} (hx : Makes x P) (hf : ∀ v, P v → Makes (f v) Q) :
    Makes (x >>= f) Q := fun s hs =>
  have first := hx s hs
  hf _ first.1 _ first.2

theorem discard (h : Makes x P) : Makes (discard x) fun _ => True :=
  fun s hs => ⟨trivial, (h s hs).2⟩

end Compile.Makes

namespace Compiler

open Compile (Makes)

variable {c : Compiler} {σ : ScopeId}

/-- A completed operation is as good as what it was made from. -/
theorem finish_makes {op : Op} (h : op.CallFree) : Makes (c.finish op) Op.CallFree :=
  fun s hs => ⟨h.finish c.options s.memory, hs.template,
    (Op.finish_spares c.options op s.memory).spaces.trans hs.spaces⟩

/-- Values of symbols that run no function. -/
def InitsCallFree (table : Table SymbolId Op) : Prop :=
  ∀ s op, table.get? s = some op → op.CallFree

theorem initsCallFree_nil : InitsCallFree [] := fun _ _ h => by cases h

theorem InitsCallFree.insert {table : Table SymbolId Op} (h : InitsCallFree table) (s : SymbolId)
    {op : Op} (ok : op.CallFree) : InitsCallFree (table.insert s op) := by
  intro t op' found
  rw [Table.get?_insert] at found
  split at found
  · cases found
    exact ok
  · exact h t op' found

theorem templateOf_callFree {a : Analysis} {table : Table SymbolId Op} (h : InitsCallFree table) :
    (a.templateOf σ table).CallFree := by
  rw [template_callFree_iff]
  intro slot mem
  obtain ⟨s, -, rfl⟩ := List.mem_map.mp mem
  show optionCallFree (table.get? s)
  cases hs : table.get? s with
  | none => trivial
  | some op => exact h s op hs

/-- The template of a scope, made from values that run no function. -/
theorem template_makes {inits : Compile (Table SymbolId Op)} (h : Makes inits InitsCallFree) :
    Makes (c.template σ inits) Template.CallFree := by
  intro s hs
  cases ht : s.templates.get? σ with
  | some t =>
    rw [template_of_some ht]
    exact ⟨hs.template σ t ht, hs⟩
  | none =>
    rw [template_of_none ht]
    obtain ⟨made, kept⟩ := h s hs
    have ok := templateOf_callFree (σ := σ) (a := c.analysis) made
    refine ⟨ok, fun τ t found => ?_, kept.spaces⟩
    rw [Table.get?_insert] at found
    split at found
    · cases found
      exact ok
    · exact kept.template τ t found

theorem template_nil_makes : Makes (c.template σ (return [])) Template.CallFree :=
  template_makes (.pure initsCallFree_nil)

/-- A fault in place of a list of operations runs no function. -/
def OrFaultCallFree (P : List α → Prop) : Except Op (List α) → Prop
  | .ok vs => P vs
  | .error op => op.CallFree

theorem OrFaultCallFree.map {P Q : List α → Prop} {r : Except Op (List α)} {f : List α → List α}
    (h : OrFaultCallFree P r) (hf : ∀ vs, P vs → Q (f vs)) : OrFaultCallFree Q (r.map f) := by
  cases r with
  | ok vs => exact hf vs h
  | error op => exact h

theorem reference_callFree (node : Node) (r : Reference) (function : Option NodeId) :
    (c.reference node r function).CallFree := by
  unfold reference
  split
  · exact rfl
  · trivial

theorem constant_callFree (node : Node) (l : Literal) : (constant node l).CallFree := by
  unfold constant
  split <;> trivial

/-- Captured symbols are found without sites. -/
theorem siteless_of_capturePlan? {a : Analysis} {creation : ScopeId} {enclosing : Option NodeId}
    {s : SymbolId} {plan : CapturePlan} (h : a.capturePlan? creation enclosing s = some plan) :
    plan.Siteless := by
  unfold Analysis.capturePlan? at h
  split at h
  · cases h
    trivial
  · cases h
    rfl
  · rw [Option.map_eq_some_iff] at h
    obtain ⟨depth, -, rfl⟩ := h
    cases depth <;> rfl

/-- No expression stands in the pattern. -/
theorem expressions_eq_nil {node : Node} {subject : Expr} {lines : List MatchLine}
    (h : (Expr.matchOn node subject lines).CallFree) :
    ∀ line ∈ lines, line.pattern.expressions = [] := by
  intro line mem
  by_contra some
  exact h _ .whole ⟨line, mem, some⟩

mutual

/-- **An expression in which nothing runs a function is compiled to an operation that runs
none.** -/
theorem expr_makes (function : Option NodeId) : ∀ e : Expr, e.CallFree →
    Makes (c.expr function e) Op.CallFree
  | .constant _ _, _ => by
    rw [expr]
    exact .pure (constant_callFree _ _)
  | .reference _ _, _ => by
    rw [expr]
    exact .pure (reference_callFree _ _ _)
  | .list _ es, h => by
    rw [expr]
    exact (items_makes function es fun e mem => h.child mem).bind fun _ hs => finish_makes hs
  | .dict _ es, h => by
    rw [expr]
    exact (entries_makes function es fun e mem => h.child mem).bind fun _ hs => finish_makes hs
  | .function node ps _ body, h => by
    rw [expr]
    split
    · refine (params_makes function ps fun e mem => h.child (List.mem_append_left _ mem)).bind
        fun _ hp => template_nil_makes.bind fun _ _ => ?_
      refine (expr_makes (some node.id) body (h.child (List.mem_append_right _
        (List.mem_singleton_self _)))).bind fun _ _ => ?_
      split
      · next plans =>
        refine finish_makes ⟨hp, fun plan mem => ?_⟩
        obtain ⟨_, -, planned⟩ := exists_of_mapM _ plans plan mem
        exact siteless_of_capturePlan? planned
      · exact .pure trivial
    · exact .pure trivial
  | .call _ _ _, h => (h _ .whole trivial).elim
  | .curry _ callee args, h => by
    rw [expr]
    exact (expr_makes function callee (h.child (List.mem_cons_self ..))).bind fun _ hc =>
      (named_makes function args fun e mem => h.child (List.mem_cons_of_mem _ mem)).bind
        fun _ hs => finish_makes ⟨hc, hs⟩
  | .letIn node bindings body, h => by
    rw [expr]
    split
    · exact .pure trivial
    · exact (template_makes (inits_makes function bindings fun e mem =>
        h.child (List.mem_append_left _ mem))).bind fun _ ht =>
          (expr_makes function body (h.child (List.mem_append_right _
            (List.mem_singleton_self _)))).bind fun _ hb => finish_makes ⟨ht, hb⟩
  | .ifElse _ condition thenBranch elseBranch, h => by
    rw [expr]
    exact (expr_makes function condition (h.child (by simp [Expr.children]))).bind fun _ hc =>
      (expr_makes function thenBranch (h.child (by simp [Expr.children]))).bind fun _ ht =>
        (expr_makes function elseBranch (h.child (by simp [Expr.children]))).bind
          fun _ he => finish_makes ⟨hc, ht, he⟩
  | .matchOn _ subject ls, h => by
    rw [expr]
    refine (lines_makes function ls (expressions_eq_nil h) fun e mem =>
      h.child (List.mem_cons_of_mem _ mem)).bind fun r hr => ?_
    split
    · exact .pure hr
    · exact (expr_makes function subject (h.child (List.mem_cons_self ..))).bind
        fun _ hs => finish_makes ⟨hs, hr⟩
  | .forEach _ hs body, h => by
    rw [expr]
    have inHeads : ∀ e ∈ hs.map (·.expr), e.CallFree := fun e mem =>
      h.child (List.mem_append_left _ mem)
    split
    · exact .pure trivial
    · refine (template_makes (headInits_makes function hs inHeads)).bind fun _ ht =>
        (heads_makes function hs inHeads).bind fun r hr => ?_
      split
      · exact .pure hr
      · exact (expr_makes function body (h.child (List.mem_append_right _
          (List.mem_singleton_self _)))).bind fun _ hb => finish_makes ⟨ht, hr, hb⟩
  | .binary _ _ l r, h => by
    rw [expr]
    exact (expr_makes function l (h.child (by simp [Expr.children]))).bind fun _ hl =>
      (expr_makes function r (h.child (by simp [Expr.children]))).bind
        fun _ hr => finish_makes ⟨hl, hr⟩
  | .unary _ _ e, h | .cast _ e _, h | .isOf _ e _, h | .throw _ e, h => by
    rw [expr]
    exact (expr_makes function e (h.child (List.mem_singleton_self _))).bind
      fun _ he => finish_makes he
  | .access _ container keys, h => by
    rw [expr]
    exact (expr_makes function container (h.child (List.mem_cons_self ..))).bind fun _ hc =>
      (exprs_makes function keys fun e mem => h.child (List.mem_cons_of_mem _ mem)).bind
        fun _ hk => finish_makes ⟨hc, hk⟩
  | .tryCatch _ body _ _ _ handler, h => by
    rw [expr]
    split
    · exact .pure trivial
    · exact (expr_makes function body (h.child (by simp [Expr.children]))).bind fun _ hb =>
        template_nil_makes.bind fun _ ht =>
          (expr_makes function handler (h.child (by simp [Expr.children]))).bind
            fun _ hh => finish_makes ⟨hb, ht, hh⟩

theorem exprs_makes (function : Option NodeId) : ∀ es : List Expr, (∀ e ∈ es, e.CallFree) →
    Makes (c.exprs function es) opsCallFree
  | [], _ => by
    rw [exprs]
    exact .pure trivial
  | e :: rest, h => by
    rw [exprs]
    rw [List.forall_mem_cons] at h
    exact (expr_makes function e h.1).bind fun _ he =>
      (exprs_makes function rest h.2).bind fun _ hs => .pure ⟨he, hs⟩

theorem option_makes (function : Option NodeId) :
    ∀ e : Option Expr, (∀ e' ∈ e.toList, e'.CallFree) → Makes (c.option function e) optionCallFree
  | none, _ => by
    rw [option]
    exact .pure trivial
  | some e, h => by
    rw [option]
    exact (expr_makes function e (h e (List.mem_singleton_self _))).bind fun _ he => .pure he

theorem items_makes (function : Option NodeId) : ∀ es : List ListItem,
    (∀ e ∈ es.map (·.expr), e.CallFree) → Makes (c.items function es) itemsCallFree
  | [], _ => by
    rw [items]
    exact .pure trivial
  | .value e :: rest, h | .splat e :: rest, h => by
    rw [items]
    rw [List.map_cons, List.forall_mem_cons] at h
    exact (expr_makes function e h.1).bind fun _ he =>
      (items_makes function rest h.2).bind fun _ hs => .pure ⟨he, hs⟩

theorem entries_makes (function : Option NodeId) : ∀ es : List DictEntry,
    (∀ e ∈ es.flatMap (·.exprs), e.CallFree) → Makes (c.entries function es) entriesCallFree
  | [], _ => by
    rw [entries]
    exact .pure trivial
  | .pair k v :: rest, h => by
    rw [entries]
    rw [List.flatMap_cons, List.forall_mem_append, DictEntry.exprs, List.forall_mem_cons,
      List.forall_mem_singleton] at h
    exact (expr_makes function k h.1.1).bind fun _ hk => (expr_makes function v h.1.2).bind
      fun _ hv => (entries_makes function rest h.2).bind fun _ hs => .pure ⟨hk, hv, hs⟩
  | .splat e :: rest, h => by
    rw [entries]
    rw [List.flatMap_cons, List.forall_mem_append, DictEntry.exprs, List.forall_mem_singleton] at h
    exact (expr_makes function e h.1).bind fun _ he =>
      (entries_makes function rest h.2).bind fun _ hs => .pure ⟨he, hs⟩

theorem params_makes (function : Option NodeId) : ∀ ps : List CellScript.Param,
    (∀ e ∈ ps.filterMap (·.default), e.CallFree) → Makes (c.params function ps) paramsCallFree
  | [], _ => by
    rw [params]
    exact .pure trivial
  | ⟨_, _, _, default⟩ :: rest, h => by
    rw [params]
    refine (option_makes function default fun e mem => h e ?_).bind fun _ hd =>
      (params_makes function rest fun e mem => h e ?_).bind fun _ hs => .pure ⟨hd, hs⟩
    · rw [List.mem_filterMap]
      exact ⟨_, List.mem_cons_self .., Option.mem_toList.mp mem⟩
    · obtain ⟨p, hp, found⟩ := List.mem_filterMap.mp mem
      exact List.mem_filterMap.mpr ⟨p, List.mem_cons_of_mem _ hp, found⟩

theorem named_makes (function : Option NodeId) : ∀ args : List NamedExpr,
    (∀ e ∈ args.map (·.value), e.CallFree) → Makes (c.named function args) namedCallFree
  | [], _ => by
    rw [named]
    exact .pure trivial
  | ⟨_, e⟩ :: rest, h => by
    rw [named]
    rw [List.map_cons, List.forall_mem_cons] at h
    exact (expr_makes function e h.1).bind fun _ he =>
      (named_makes function rest h.2).bind fun _ hs => .pure ⟨he, hs⟩

theorem inits_makes (function : Option NodeId) : ∀ vars : List VarDef,
    (∀ e ∈ vars.map (·.value), e.CallFree) → Makes (c.inits function vars) InitsCallFree
  | [], _ => by
    rw [inits]
    exact .pure initsCallFree_nil
  | ⟨_, _, _, value⟩ :: rest, h => by
    rw [inits]
    rw [List.map_cons, List.forall_mem_cons] at h
    split
    · exact inits_makes function rest h.2
    · exact (expr_makes function value h.1).bind fun _ he =>
        (inits_makes function rest h.2).bind fun _ hs => .pure (hs.insert _ he)

theorem headInits_makes (function : Option NodeId) : ∀ hs : List ForHead,
    (∀ e ∈ hs.map (·.expr), e.CallFree) → Makes (c.headInits function hs) InitsCallFree
  | [], _ => by
    rw [headInits]
    exact .pure initsCallFree_nil
  | .generator _ _ _ _ :: rest, h | .condition _ :: rest, h => by
    rw [headInits]
    exact headInits_makes function rest fun e mem => h e (List.mem_cons_of_mem _ mem)
  | .definition _ _ _ value :: rest, h => by
    rw [headInits]
    rw [List.map_cons, List.forall_mem_cons] at h
    split
    · exact headInits_makes function rest h.2
    · exact (expr_makes function value h.1).bind fun _ he =>
        (headInits_makes function rest h.2).bind fun _ hs => .pure (hs.insert _ he)

theorem heads_makes (function : Option NodeId) : ∀ hs : List ForHead,
    (∀ e ∈ hs.map (·.expr), e.CallFree) →
      Makes (c.heads function hs) (OrFaultCallFree headsCallFree)
  | [], _ => by
    rw [heads]
    exact .pure trivial
  | .generator _ _ _ source :: rest, h => by
    rw [heads]
    rw [List.map_cons, List.forall_mem_cons] at h
    split
    · exact .pure trivial
    · exact (expr_makes function source h.1).bind fun _ he =>
        (heads_makes function rest h.2).bind fun _ hs => .pure (hs.map fun _ hs => ⟨he, hs⟩)
  | .definition _ _ _ _ :: rest, h => by
    rw [heads]
    rw [List.map_cons, List.forall_mem_cons] at h
    split
    · exact .pure trivial
    · exact (heads_makes function rest h.2).bind fun _ hs => .pure (hs.map fun _ hs => hs)
  | .condition e :: rest, h => by
    rw [heads]
    rw [List.map_cons, List.forall_mem_cons] at h
    exact (expr_makes function e h.1).bind fun _ he =>
      (heads_makes function rest h.2).bind fun _ hs => .pure (hs.map fun _ hs => ⟨he, hs⟩)

theorem lines_makes (function : Option NodeId) : ∀ ls : List MatchLine,
    (∀ line ∈ ls, line.pattern.expressions = []) → (∀ e ∈ ls.flatMap (·.exprs), e.CallFree) →
    Makes (c.lines function ls) (OrFaultCallFree linesCallFree)
  | [], _, _ => by
    rw [lines]
    exact .pure trivial
  | ⟨node, p, guard, result⟩ :: rest, hp, h => by
    rw [lines]
    rw [List.forall_mem_cons] at hp
    rw [List.flatMap_cons, List.forall_mem_append, MatchLine.exprs, List.forall_mem_append,
      List.forall_mem_append, List.forall_mem_singleton] at h
    split
    · exact .pure trivial
    · exact (pattern_makes function p hp.1).bind fun _ hp' => template_nil_makes.bind fun _ ht =>
        (option_makes function guard h.1.1.2).bind fun _ hg =>
          (expr_makes function result h.1.2).bind fun _ hr =>
            (lines_makes function rest hp.2 h.2).bind fun _ hs =>
              .pure (hs.map fun _ hs => ⟨⟨hp', ht, hg, hr⟩, hs⟩)

theorem pattern_makes (function : Option NodeId) : ∀ p : CellScript.Pattern, p.expressions = [] →
    Makes (c.pattern function p) Code.Pattern.CallFree
  | ⟨_, s, _⟩, h => by
    rw [pattern]
    exact (shape_makes function s h).bind fun _ hs => .pure hs

theorem shape_makes (function : Option NodeId) : ∀ s : PatternShape, s.expressions = [] →
    Makes (c.shape function s) Code.Shape.CallFree
  | .expr _, h => by cases h
  | .wildcard, _ | .default, _ | .ofType _, _ => by
    rw [shape]
    exact .pure trivial
  | .list ps, h | .headTail ps _, h | .initLast _ ps, h => by
    rw [shape]
    exact (patterns_makes function ps h).bind fun _ hs => .pure hs
  | .middle head _ last, h => by
    rw [shape]
    rw [PatternShape.expressions, List.append_eq_nil_iff] at h
    exact (patterns_makes function head h.1).bind fun _ hh =>
      (patterns_makes function last h.2).bind fun _ hl => .pure ⟨hh, hl⟩
  | .dict es, h | .openDict es _, h => by
    rw [shape]
    exact (keyPatterns_makes function es h).bind fun _ hs => .pure hs

theorem patterns_makes (function : Option NodeId) : ∀ ps : List CellScript.Pattern,
    expressionsOfPatterns ps = [] → Makes (c.patterns function ps) patternsCallFree
  | [], _ => by
    rw [patterns]
    exact .pure trivial
  | p :: rest, h => by
    rw [patterns]
    rw [expressionsOfPatterns, List.append_eq_nil_iff] at h
    exact (pattern_makes function p h.1).bind fun _ hp =>
      (patterns_makes function rest h.2).bind fun _ hs => .pure ⟨hp, hs⟩

theorem keyPatterns_makes (function : Option NodeId) : ∀ ps : List CellScript.KeyPattern,
    expressionsOfEntries ps = [] → Makes (c.keyPatterns function ps) keyPatternsCallFree
  | [], _ => by
    rw [keyPatterns]
    exact .pure trivial
  | ⟨_, p⟩ :: rest, h => by
    rw [keyPatterns]
    rw [expressionsOfEntries, List.append_eq_nil_iff] at h
    exact (pattern_makes function p h.1).bind fun _ hp =>
      (keyPatterns_makes function rest h.2).bind fun _ hs => .pure ⟨hp, hs⟩

end

/-! ## The program -/

theorem groupTemplate_makes {vars : List VarDef} (h : ∀ v ∈ vars, v.value.CallFree) :
    Makes (c.groupTemplate σ vars) Template.CallFree :=
  template_makes (inits_makes none vars (List.forall_mem_map.mpr h))

theorem groups_makes (groups : List (Node × List VarDef))
    (h : ∀ g ∈ groups, ∀ v ∈ g.2, v.value.CallFree) : Makes (c.groups groups) fun _ => True := by
  induction groups with
  | nil => exact .pure trivial
  | cons g rest ih =>
    obtain ⟨node, vars⟩ := g
    rw [List.forall_mem_cons] at h
    rw [Compiler.groups]
    split
    · exact (groupTemplate_makes h.1).discard.bind fun _ _ => ih h.2
    · exact ih h.2

theorem unit_makes {u : SourceUnit} (h : ∀ g ∈ u.groups, ∀ v ∈ g.2, v.value.CallFree) :
    Makes (c.unit u) fun _ => True := by
  unfold Compiler.unit
  split
  · exact (groupTemplate_makes fun _ mem => (by cases mem)).discard.bind
      fun _ _ => groups_makes u.groups h
  · exact .pure trivial

theorem units_makes (units : UnitSet)
    (h : ∀ u ∈ units, ∀ g ∈ u.groups, ∀ v ∈ g.2, v.value.CallFree) :
    Makes (units.forM c.unit) fun _ => True := by
  induction units with
  | nil => exact .pure trivial
  | cons u rest ih =>
    rw [List.forall_mem_cons] at h
    exact (unit_makes h.1).bind fun _ _ => ih h.2

/-- **The templates of a program in which nothing runs a function run none.** -/
theorem program_callFree {units : UnitSet} (h : ∀ e, units.Contains e → ¬e.Runs) :
    (c.program units ⟨.initial, []⟩).2.CallFree := by
  have values : ∀ u ∈ units, ∀ g ∈ u.groups, ∀ v ∈ g.2, v.value.CallFree :=
    fun u hu g hg v hv part occurs => h part ⟨u, hu, g, hg, v, hv, occurs⟩
  have root : Makes (c.groupTemplate Analysis.unitsScope []) Template.CallFree :=
    groupTemplate_makes fun _ mem => by cases mem
  have all : Makes (c.program units) fun _ => True :=
    root.discard.bind fun _ _ => units_makes units values
  exact (all ⟨.initial, []⟩ ⟨fun _ _ found => (by cases found), rfl⟩).2

end Compiler

end CellScript
