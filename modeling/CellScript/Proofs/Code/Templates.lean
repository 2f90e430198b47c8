import CellScript.Proofs.Code.Constants
import CellScript.Proofs.Eval.Grows
import CellScript.Proofs.Scope.Owners
import CellScript.Session.Layout

/-!
# Templates of compiled programs

Whatever a program looks like and whatever faults analysis has found in it, compilation makes the
template of a scope from the scope alone: one slot for each of its symbols, in order. Once made, a
template stays. All units and groups of definitions that have a scope get one.

* `Compiling.Grows` — what any step of compilation does to the templates
* `Compiler.expr_keeps` — expressions, by recursion
* `Compiler.program_templates` — every scope of members has a template
-/

namespace CellScript

open Code

variable {α β : Type} {a : Analysis}

/-- Every result of a step that may fail comes from one of the items. -/
theorem exists_of_mapM {f : α → Option β} (xs : List α) {ys : List β} (h : xs.mapM f = some ys) :
    ∀ y ∈ ys, ∃ x ∈ xs, f x = some y := by
  induction xs generalizing ys with
  | nil =>
    cases h
    exact fun _ mem => by cases mem
  | cons x rest ih =>
    rw [List.mapM_cons] at h
    simp only [Option.bind_eq_bind, Option.bind_eq_some_iff, Option.pure_def,
      Option.some.injEq] at h
    obtain ⟨y, first, more, others, rfl⟩ := h
    refine List.forall_mem_cons.mpr ⟨⟨x, List.mem_cons_self .., first⟩, fun y mem => ?_⟩
    obtain ⟨x', mem', found⟩ := ih others y mem
    exact ⟨x', List.mem_cons_of_mem _ mem', found⟩

/-- The template is made from the scope. -/
def Analysis.Models (a : Analysis) (σ : ScopeId) (t : Template) : Prop :=
  ∃ inits, t = a.templateOf σ inits

/-- The template has one slot for each symbol of the scope, which knows where the members of the
symbol lie. -/
def Analysis.Shows (a : Analysis) (σ : ScopeId) (t : Template) : Prop :=
  t.scope = σ ∧ t.slots.map (·.symbol) = (a.arena.scope σ).slots ∧
    ∀ slot ∈ t.slots, slot.members = (a.arena.symbol slot.symbol).members

/-- A template that is made from a scope shows it. -/
theorem Analysis.Models.shows {σ : ScopeId} {t : Template} (h : a.Models σ t) : a.Shows σ t := by
  obtain ⟨inits, rfl⟩ := h
  refine ⟨rfl, ?_, fun slot mem => ?_⟩
  · simp only [templateOf, List.map_map]
    exact List.map_id _
  · obtain ⟨s, -, rfl⟩ := List.mem_map.mp mem
    rfl

/-- Templates are made from their scopes, and none is lost. -/
structure Compiling.Grows (a : Analysis) (s s' : Compiling) : Prop where
  kept : ∀ σ, (s.templates.get? σ).isSome = true → (s'.templates.get? σ).isSome = true
  models : (∀ σ t, s.templates.get? σ = some t → a.Models σ t) →
    ∀ σ t, s'.templates.get? σ = some t → a.Models σ t
  /-- Nothing is laid out yet. -/
  spares : s.memory.Spares s'.memory
  memory : s.memory.Grows s'.memory

theorem Compiling.Grows.refl (s : Compiling) : Compiling.Grows a s s :=
  ⟨fun _ h => h, fun h => h, .refl _, .refl _⟩

theorem Compiling.Grows.trans {s s' s'' : Compiling} (h : Compiling.Grows a s s')
    (h' : Compiling.Grows a s' s'') : Compiling.Grows a s s'' :=
  ⟨fun σ hs => h'.kept σ (h.kept σ hs), fun hs => h'.models (h.models hs), h.spares.trans h'.spares,
    h.memory.trans h'.memory⟩

/-- The step only adds templates. -/
def Compile.Keeps (a : Analysis) (x : Compile α) : Prop := ∀ s, Compiling.Grows a s (x s).2

namespace Compile.Keeps

theorem pure (v : α) : Keeps a (Pure.pure v) := fun s => .refl s

theorem bind {x : Compile α} {f : α → Compile β} (hx : Keeps a x) (hf : ∀ v, Keeps a (f v)) :
    Keeps a (x >>= f) := fun s => (hx s).trans (hf _ _)

theorem discard {x : Compile α} (h : Keeps a x) : Keeps a (discard x) := h

end Compile.Keeps

namespace Compiler

open Compile (Keeps)

variable {c : Compiler} {σ : ScopeId}

/-- Memory grows when an operation is completed, constants being evaluated where nothing can be
asked. -/
theorem finish_grows (options : Options) (op : Op) (m : Memory) :
    m.Grows (op.finish options m).2 := by
  simp only [Op.finish]
  generalize (if options.specialize = true then op.specialize else op) = op
  split
  · unfold Op.fold
    split
    · exact .refl m
    · split
      · next v machine ran => exact (Op.eval_enlarges Supply.none_enlarges op _).of_ok ran
      · exact .refl m
  · exact .refl m

/-- Completing an operation makes no templates. -/
theorem finish_keeps (op : Op) : Keeps a (c.finish op) := by
  intro s
  have same : (c.finish op s).2.templates = s.templates := rfl
  exact ⟨fun σ h => by rw [same]; exact h, fun h => by rw [same]; exact h,
    Op.finish_spares c.options op s.memory, finish_grows c.options op s.memory⟩

theorem template_of_some {inits : Compile (Table SymbolId Op)} {s : Compiling} {t : Template}
    (h : s.templates.get? σ = some t) : c.template σ inits s = (t, s) := by
  simp only [template, StateT.bind, bind, get, getThe, MonadStateOf.get, StateT.get, pure, h]
  rfl

theorem template_of_none {inits : Compile (Table SymbolId Op)} {s : Compiling}
    (h : s.templates.get? σ = none) : c.template σ inits s = (c.analysis.templateOf σ (inits s).1,
      { (inits s).2 with templates :=
        (inits s).2.templates.insert σ (c.analysis.templateOf σ (inits s).1) }) := by
  simp only [template, StateT.bind, bind, get, getThe, MonadStateOf.get, StateT.get, pure, h]
  rfl

/-- A template is made from its scope, unless it is there already. -/
theorem template_keeps {inits : Compile (Table SymbolId Op)} (h : Keeps c.analysis inits) :
    Keeps c.analysis (c.template σ inits) := by
  intro s
  cases ht : s.templates.get? σ with
  | some t =>
    rw [template_of_some ht]
    exact .refl s
  | none =>
    rw [template_of_none ht]
    refine (h s).trans ⟨fun τ hτ => ?_, fun models τ t found => ?_, .refl _, .refl _⟩
    · rw [Table.get?_insert]
      split
      · rfl
      · exact hτ
    · rw [Table.get?_insert] at found
      split at found
      · next same =>
        cases found
        exact same ▸ ⟨_, rfl⟩
      · exact models τ t found

/-- Once it has been asked for, the template of a scope is there. -/
theorem template_isSome (inits : Compile (Table SymbolId Op)) (s : Compiling) :
    ((c.template σ inits s).2.templates.get? σ).isSome = true := by
  cases ht : s.templates.get? σ with
  | some t =>
    rw [template_of_some ht, ht]
    rfl
  | none =>
    rw [template_of_none ht, Table.get?_insert, if_pos rfl]
    rfl

theorem template_nil_keeps : Keeps c.analysis (c.template σ (return [])) := template_keeps (.pure _)

/-! ## Expressions -/

mutual

/-- **Compiling an expression only adds templates.** -/
theorem expr_keeps (function : Option NodeId) : ∀ e : Expr, Keeps c.analysis (c.expr function e)
  | .constant _ _ => by
    rw [expr]
    exact .pure _
  | .reference _ _ => by
    rw [expr]
    exact .pure _
  | .list _ es => by
    rw [expr]
    exact (items_keeps function es).bind fun _ => finish_keeps _
  | .dict _ es => by
    rw [expr]
    exact (entries_keeps function es).bind fun _ => finish_keeps _
  | .function node ps _ body => by
    rw [expr]
    split
    · refine (params_keeps function ps).bind fun _ => template_nil_keeps.bind fun _ => ?_
      refine (expr_keeps (some node.id) body).bind fun _ => ?_
      split
      · exact finish_keeps _
      · exact .pure _
    · exact .pure _
  | .call _ callee args => by
    rw [expr]
    exact (expr_keeps function callee).bind fun _ =>
      (arguments_keeps function args).bind fun _ => finish_keeps _
  | .curry _ callee args => by
    rw [expr]
    exact (expr_keeps function callee).bind fun _ =>
      (named_keeps function args).bind fun _ => finish_keeps _
  | .letIn node bindings body => by
    rw [expr]
    split
    · exact .pure _
    · exact (template_keeps (inits_keeps function bindings)).bind fun _ =>
        (expr_keeps function body).bind fun _ => finish_keeps _
  | .ifElse _ condition thenBranch elseBranch => by
    rw [expr]
    exact (expr_keeps function condition).bind fun _ =>
      (expr_keeps function thenBranch).bind fun _ =>
        (expr_keeps function elseBranch).bind fun _ => finish_keeps _
  | .matchOn _ subject ls => by
    rw [expr]
    refine (lines_keeps function ls).bind fun r => ?_
    split
    · exact .pure _
    · exact (expr_keeps function subject).bind fun _ => finish_keeps _
  | .forEach _ hs body => by
    rw [expr]
    split
    · exact .pure _
    · refine (template_keeps (headInits_keeps function hs)).bind fun _ =>
        (heads_keeps function hs).bind fun r => ?_
      split
      · exact .pure _
      · exact (expr_keeps function body).bind fun _ => finish_keeps _
  | .binary _ _ l r => by
    rw [expr]
    exact (expr_keeps function l).bind fun _ =>
      (expr_keeps function r).bind fun _ => finish_keeps _
  | .unary _ _ e | .cast _ e _ | .isOf _ e _ | .throw _ e => by
    rw [expr]
    exact (expr_keeps function e).bind fun _ => finish_keeps _
  | .access _ container keys => by
    rw [expr]
    exact (expr_keeps function container).bind fun _ =>
      (exprs_keeps function keys).bind fun _ => finish_keeps _
  | .tryCatch _ body _ _ _ handler => by
    rw [expr]
    split
    · exact .pure _
    · exact (expr_keeps function body).bind fun _ => template_nil_keeps.bind fun _ =>
        (expr_keeps function handler).bind fun _ => finish_keeps _

theorem exprs_keeps (function : Option NodeId) :
    ∀ es : List Expr, Keeps c.analysis (c.exprs function es)
  | [] => by
    rw [exprs]
    exact .pure _
  | e :: rest => by
    rw [exprs]
    exact (expr_keeps function e).bind fun _ => (exprs_keeps function rest).bind fun _ => .pure _

theorem option_keeps (function : Option NodeId) :
    ∀ e : Option Expr, Keeps c.analysis (c.option function e)
  | none => by
    rw [option]
    exact .pure _
  | some e => by
    rw [option]
    exact (expr_keeps function e).bind fun _ => .pure _

theorem items_keeps (function : Option NodeId) :
    ∀ es : List ListItem, Keeps c.analysis (c.items function es)
  | [] => by
    rw [items]
    exact .pure _
  | .value e :: rest | .splat e :: rest => by
    rw [items]
    exact (expr_keeps function e).bind fun _ => (items_keeps function rest).bind fun _ => .pure _

theorem entries_keeps (function : Option NodeId) :
    ∀ es : List DictEntry, Keeps c.analysis (c.entries function es)
  | [] => by
    rw [entries]
    exact .pure _
  | .pair k v :: rest => by
    rw [entries]
    exact (expr_keeps function k).bind fun _ => (expr_keeps function v).bind fun _ =>
      (entries_keeps function rest).bind fun _ => .pure _
  | .splat e :: rest => by
    rw [entries]
    exact (expr_keeps function e).bind fun _ => (entries_keeps function rest).bind fun _ => .pure _

theorem params_keeps (function : Option NodeId) :
    ∀ ps : List CellScript.Param, Keeps c.analysis (c.params function ps)
  | [] => by
    rw [params]
    exact .pure _
  | ⟨_, _, _, default⟩ :: rest => by
    rw [params]
    exact (option_keeps function default).bind fun _ =>
      (params_keeps function rest).bind fun _ => .pure _

theorem arguments_keeps (function : Option NodeId) :
    ∀ args : List CellScript.Argument, Keeps c.analysis (c.arguments function args)
  | [] => by
    rw [arguments]
    exact .pure _
  | .positional e :: rest | .named _ e :: rest | .splat e :: rest => by
    rw [arguments]
    exact (expr_keeps function e).bind fun _ =>
      (arguments_keeps function rest).bind fun _ => .pure _

theorem named_keeps (function : Option NodeId) :
    ∀ args : List NamedExpr, Keeps c.analysis (c.named function args)
  | [] => by
    rw [named]
    exact .pure _
  | ⟨_, e⟩ :: rest => by
    rw [named]
    exact (expr_keeps function e).bind fun _ => (named_keeps function rest).bind fun _ => .pure _

theorem inits_keeps (function : Option NodeId) :
    ∀ vars : List VarDef, Keeps c.analysis (c.inits function vars)
  | [] => by
    rw [inits]
    exact .pure _
  | ⟨_, _, _, value⟩ :: rest => by
    rw [inits]
    split
    · exact inits_keeps function rest
    · exact (expr_keeps function value).bind fun _ =>
        (inits_keeps function rest).bind fun _ => .pure _

theorem headInits_keeps (function : Option NodeId) :
    ∀ hs : List ForHead, Keeps c.analysis (c.headInits function hs)
  | [] => by
    rw [headInits]
    exact .pure _
  | .generator _ _ _ _ :: rest => by
    rw [headInits]
    exact headInits_keeps function rest
  | .condition _ :: rest => by
    rw [headInits]
    exact headInits_keeps function rest
  | .definition _ _ _ value :: rest => by
    rw [headInits]
    split
    · exact headInits_keeps function rest
    · exact (expr_keeps function value).bind fun _ =>
        (headInits_keeps function rest).bind fun _ => .pure _

theorem heads_keeps (function : Option NodeId) :
    ∀ hs : List ForHead, Keeps c.analysis (c.heads function hs)
  | [] => by
    rw [heads]
    exact .pure _
  | .generator _ _ _ source :: rest => by
    rw [heads]
    split
    · exact .pure _
    · exact (expr_keeps function source).bind fun _ =>
        (heads_keeps function rest).bind fun _ => .pure _
  | .definition _ _ _ _ :: rest => by
    rw [heads]
    split
    · exact .pure _
    · exact (heads_keeps function rest).bind fun _ => .pure _
  | .condition e :: rest => by
    rw [heads]
    exact (expr_keeps function e).bind fun _ => (heads_keeps function rest).bind fun _ => .pure _

theorem lines_keeps (function : Option NodeId) :
    ∀ ls : List MatchLine, Keeps c.analysis (c.lines function ls)
  | [] => by
    rw [lines]
    exact .pure _
  | ⟨_, p, guard, result⟩ :: rest => by
    rw [lines]
    split
    · exact .pure _
    · exact (pattern_keeps function p).bind fun _ => template_nil_keeps.bind fun _ =>
        (option_keeps function guard).bind fun _ => (expr_keeps function result).bind fun _ =>
          (lines_keeps function rest).bind fun _ => .pure _

theorem pattern_keeps (function : Option NodeId) :
    ∀ p : CellScript.Pattern, Keeps c.analysis (c.pattern function p)
  | ⟨_, s, _⟩ => by
    rw [pattern]
    exact (shape_keeps function s).bind fun _ => .pure _

theorem shape_keeps (function : Option NodeId) :
    ∀ s : PatternShape, Keeps c.analysis (c.shape function s)
  | .expr e => by
    rw [shape]
    exact (expr_keeps function e).bind fun _ => .pure _
  | .wildcard | .default | .ofType _ => by
    rw [shape]
    exact .pure _
  | .list ps | .headTail ps _ | .initLast _ ps => by
    rw [shape]
    exact (patterns_keeps function ps).bind fun _ => .pure _
  | .middle head _ last => by
    rw [shape]
    exact (patterns_keeps function head).bind fun _ =>
      (patterns_keeps function last).bind fun _ => .pure _
  | .dict es | .openDict es _ => by
    rw [shape]
    exact (keyPatterns_keeps function es).bind fun _ => .pure _

theorem patterns_keeps (function : Option NodeId) :
    ∀ ps : List CellScript.Pattern, Keeps c.analysis (c.patterns function ps)
  | [] => by
    rw [patterns]
    exact .pure _
  | p :: rest => by
    rw [patterns]
    exact (pattern_keeps function p).bind fun _ =>
      (patterns_keeps function rest).bind fun _ => .pure _

theorem keyPatterns_keeps (function : Option NodeId) :
    ∀ ps : List CellScript.KeyPattern, Keeps c.analysis (c.keyPatterns function ps)
  | [] => by
    rw [keyPatterns]
    exact .pure _
  | ⟨_, p⟩ :: rest => by
    rw [keyPatterns]
    exact (pattern_keeps function p).bind fun _ =>
      (keyPatterns_keeps function rest).bind fun _ => .pure _

end

/-! ## The program -/

theorem groupTemplate_keeps (vars : List VarDef) : Keeps c.analysis (c.groupTemplate σ vars) :=
  template_keeps (inits_keeps none vars)

theorem groups_keeps (groups : List (Node × List VarDef)) : Keeps c.analysis (c.groups groups) := by
  induction groups with
  | nil => exact .pure _
  | cons g rest ih =>
    obtain ⟨node, vars⟩ := g
    rw [Compiler.groups]
    split
    · exact (groupTemplate_keeps vars).discard.bind fun _ => ih
    · exact ih

theorem unit_keeps (u : SourceUnit) : Keeps c.analysis (c.unit u) := by
  unfold unit
  split
  · exact (groupTemplate_keeps []).discard.bind fun _ => groups_keeps u.groups
  · exact .pure _

theorem units_keeps (units : UnitSet) : Keeps c.analysis (units.forM c.unit) := by
  induction units with
  | nil => exact .pure _
  | cons u rest ih => exact (unit_keeps u).bind fun _ => ih

theorem program_keeps (units : UnitSet) : Keeps c.analysis (c.program units) :=
  (groupTemplate_keeps []).discard.bind fun _ => units_keeps units

/-- Every group whose node has created a scope has a template for it. -/
theorem groups_isSome {groups : List (Node × List VarDef)} {g : Node × List VarDef}
    (mem : g ∈ groups) (created : c.analysis.createdScopes.get? g.1.id = some σ) (s : Compiling) :
    ((c.groups groups s).2.templates.get? σ).isSome = true := by
  induction groups generalizing s with
  | nil => cases mem
  | cons first rest ih =>
    obtain ⟨node, vars⟩ := first
    rw [Compiler.groups]
    rcases List.mem_cons.mp mem with rfl | mem
    · simp only [created]
      exact (groups_keeps rest _).kept σ (template_isSome _ s)
    · cases c.analysis.createdScopes.get? node.id with
      | some scope => exact ih mem _
      | none => exact ih mem s

/-- The members of a unit and its groups have templates. -/
theorem unit_isSome {u : SourceUnit} {unit : SymbolId} {home : ScopeId}
    (found : c.analysis.unit? u.path = some unit)
    (members : (c.analysis.arena.symbol unit).members = some home)
    (place : σ = home ∨ ∃ g ∈ u.groups, c.analysis.createdScopes.get? g.1.id = some σ)
    (s : Compiling) : ((c.unit u s).2.templates.get? σ).isSome = true := by
  have known : ((c.analysis.unit? u.path).bind fun symbol =>
      (c.analysis.arena.symbol symbol).members) = some home := by
    rw [found]
    exact members
  simp only [Compiler.unit, known]
  rcases place with rfl | ⟨g, mem, created⟩
  · exact (groups_keeps u.groups _).kept _ (template_isSome _ s)
  · exact groups_isSome mem created _

theorem units_isSome {units : UnitSet} {u : SourceUnit} (mem : u ∈ units)
    (h : ∀ s, ((c.unit u s).2.templates.get? σ).isSome = true) (s : Compiling) :
    ((units.forM c.unit s).2.templates.get? σ).isSome = true := by
  induction units generalizing s with
  | nil => cases mem
  | cons first rest ih =>
    rcases List.mem_cons.mp mem with rfl | mem
    · exact (units_keeps rest _).kept σ (h s)
    · exact ih mem _

/-- **Compilation makes a template for the units and for the members of every unit, library and
section**, each from its scope, whether or not analysis has found faults. -/
theorem program_templates {units : UnitSet}
    (owners : ∀ s σ, (c.analysis.arena.symbol s).members = some σ → ∃ u ∈ units, ∃ unit home,
      c.analysis.unit? u.path = some unit ∧ (c.analysis.arena.symbol unit).members = some home ∧
      (unit = s ∨ ∃ g ∈ u.groups, c.analysis.createdScopes.get? g.1.id = some σ)) :
    (∀ σ t, (c.program units ⟨.initial, []⟩).2.templates.get? σ = some t → c.analysis.Models σ t) ∧
      ((c.program units ⟨.initial, []⟩).2.templates.get? Analysis.unitsScope).isSome = true ∧
      ∀ s σ, (c.analysis.arena.symbol s).members = some σ →
        ((c.program units ⟨.initial, []⟩).2.templates.get? σ).isSome = true := by
  refine ⟨(program_keeps units _).models fun _ _ h => (by cases h), ?_, fun s σ members => ?_⟩
  · have first := template_isSome (c := c) (σ := Analysis.unitsScope) (c.inits none [])
      ⟨.initial, []⟩
    exact (units_keeps units (c.groupTemplate Analysis.unitsScope [] ⟨.initial, []⟩).2).kept _ first
  · obtain ⟨u, mem, unit, home, found, hm, place⟩ := owners s σ members
    refine units_isSome mem (unit_isSome found hm ?_) _
    rcases place with rfl | group
    · rw [hm] at members
      exact .inl (Option.some.inj members).symm
    · exact .inr group

end Compiler

end CellScript
