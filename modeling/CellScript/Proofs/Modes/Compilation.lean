import CellScript.Proofs.Code.Templates
import CellScript.Proofs.Modes.Yields
import CellScript.Proofs.Scope.Alike
import CellScript.Proofs.Syntax.Occurs

/-!
# One program compiled twice

Compilation without completion computes nothing. Compiled with any options, the program becomes what
completion makes of it, as long as it compares nothing: the operators that look at identities are
not used, and no match line asks whether its subject equals something.

* `Expr.Compares` — what looks at the identity of lists, dictionaries and functions
* `Compile.Follows` — a step of compilation follows the one that computes nothing
* `Compiler.expr_follows` — every expression becomes what completion makes of it
* `Compiler.program_follows` — and so do all templates of a program
-/

namespace CellScript

open Code

/-! ## Programs that compare nothing -/

/-- The expression compares values, by its operator or by the pattern of a line. -/
def Expr.Compares : Expr → Prop
  | .binary _ op _ _ => op ∈ equalities
  | .matchOn _ _ lines => ∃ l ∈ lines, l.pattern.expressions ≠ []
  | _ => False

/-- Nothing that occurs in the expression compares values. -/
def Expr.Blind (e : Expr) : Prop := ∀ part, e.Occurs part → ¬ part.Compares

theorem Expr.Blind.child {e part : Expr} (h : e.Blind) (mem : part ∈ e.children) : part.Blind :=
  fun inner occurs => h inner (occurs.trans (.child mem .whole))

theorem Expr.Blind.parts {e : Expr} (h : e.Blind) : ∀ part ∈ e.children, part.Blind :=
  fun _ => h.child

/-- An expression that compares nothing itself, made of parts that compare nothing. -/
theorem Expr.Blind.of_parts {e : Expr} (h : ¬e.Compares)
    (parts : ∀ part ∈ e.children, part.Blind) : e.Blind := by
  intro part occurs
  rcases occurs.cases with rfl | ⟨child, there, occurs⟩
  · exact h
  · exact parts child there part occurs

variable {α β γ δ : Type}

/-! ## Steps of compilation -/

/-- The first compilation has computed nothing, and the templates of the second are what completion
makes of those of the first. -/
structure Compiling.Follows (s s' : Compiling) : Prop where
  nothing : s.memory = .initial
  adds : Memory.initial.Adds s'.memory
  templates : ∀ scope, Option.Rel (Template.Becomes s'.memory) (s.templates.get? scope)
    (s'.templates.get? scope)

/-- From memories later than `m` on, the second step follows the first, with results that are
related in the memory it leaves behind. -/
def Compile.Follows (m : Memory) (R : Memory → α → β → Prop) (x : Compile α) (y : Compile β) :
    Prop :=
  ∀ s s', s.Follows s' → m.Retains s'.memory → (x s).2.Follows (y s').2 ∧
    s'.memory.Retains (y s').2.memory ∧ R (y s').2.memory (x s).1 (y s').1

namespace Compile.Follows

variable {m : Memory} {R : Memory → α → β → Prop} {S : Memory → γ → δ → Prop}

theorem pure {v : α} {w : β} (h : ∀ m', m.Retains m' → R m' v w) :
    Follows m R (Pure.pure v) (Pure.pure w) :=
  fun _ _ now later => ⟨now, .refl _, h _ later⟩

theorem bind {x : Compile α} {y : Compile β} {f : α → Compile γ} {g : β → Compile δ}
    (first : Follows m R x y)
    (second : ∀ m' v w, m.Retains m' → R m' v w → Follows m' S (f v) (g w)) :
    Follows m S (x >>= f) (y >>= g) := by
  intro s s' now later
  obtain ⟨now', retains, h⟩ := first s s' now later
  obtain ⟨now'', retains', h'⟩ :=
    second _ _ _ (later.trans retains) h (x s).2 (y s').2 now' (.refl _)
  exact ⟨now'', retains.trans retains', h'⟩

theorem later {x : Compile α} {y : Compile β} {m' : Memory} (h : Follows m R x y)
    (later : m.Retains m') : Follows m' R x y :=
  fun s s' now later' => h s s' now (later.trans later')

end Compile.Follows

namespace Compiler

open Compile (Follows)

variable (a : Analysis) (options : Options) {m : Memory}

/-- The compiler that computes nothing. -/
def plain : Compiler := ⟨a, ⟨false, false⟩⟩

/-- The compiler with the options. -/
def full : Compiler := ⟨a, options⟩

@[simp] theorem plain_analysis : (plain a).analysis = a := rfl

@[simp] theorem full_analysis : (full a options).analysis = a := rfl

theorem finish_follows {op op' : Op} (h : Op.Becomes m op op') :
    Follows m Op.Becomes ((plain a).finish op) ((full a options).finish op') := by
  intro s s' now later
  obtain ⟨adds, becomes⟩ := (h.retains later).finish options
  refine ⟨⟨now.nothing, now.adds.trans adds, fun scope => ?_⟩, adds.retains, becomes⟩
  exact optionRel_mono (now.templates scope) fun _ _ _ t => t.retains adds.retains

/-! ## Templates -/

/-- Tables of operations by the same symbols. -/
def InitsBecome (m : Memory) (inits inits' : Table SymbolId Op) : Prop :=
  ∀ id, OptionBecomes m (inits.get? id) (inits'.get? id)

theorem InitsBecome.retains {inits inits' : Table SymbolId Op} {m' : Memory}
    (h : InitsBecome m inits inits') (later : m.Retains m') : InitsBecome m' inits inits' :=
  fun id => (h id).retains later

theorem InitsBecome.insert {inits inits' : Table SymbolId Op} (h : InitsBecome m inits inits')
    (symbol : SymbolId) {op op' : Op} (becomes : Op.Becomes m op op') :
    InitsBecome m (inits.insert symbol op) (inits'.insert symbol op') := by
  intro id
  rw [Table.get?_insert, Table.get?_insert]
  split
  · exact .some becomes
  · exact h id

theorem templateOf_becomes (scope : ScopeId) {inits inits' : Table SymbolId Op}
    (h : InitsBecome m inits inits') :
    Template.Becomes m (a.templateOf scope inits) (a.templateOf scope inits') := by
  rw [Analysis.templateOf, Analysis.templateOf]
  refine .mk scope ?_
  induction (a.arena.scope scope).slots with
  | nil => exact .nil
  | cons id _ ih => exact .cons (.mk _ _ _ _ (h id) _) ih

/-- The template of a scope is made once, or was made before. -/
theorem template_follows (scope : ScopeId) {inits inits' : Compile (Table SymbolId Op)}
    (h : Follows m InitsBecome inits inits') :
    Follows m Template.Becomes ((plain a).template scope inits)
      ((full a options).template scope inits') := by
  intro s s' now later
  have known := now.templates scope
  cases hx : s.templates.get? scope with
  | some t =>
    obtain ⟨t', hy, becomes⟩ := optionRel_some (hx ▸ known)
    rw [template_of_some hx, template_of_some hy]
    exact ⟨now, .refl _, becomes⟩
  | none =>
    have hy := optionRel_none (hx ▸ known)
    obtain ⟨now', retains, table⟩ := h s s' now later
    have becomes := templateOf_becomes a scope table
    rw [template_of_none hx, template_of_none hy]
    refine ⟨⟨now'.nothing, now'.adds, fun other => ?_⟩, retains, becomes⟩
    rw [Table.get?_insert, Table.get?_insert]
    split
    · exact .some becomes
    · exact now'.templates other

/-! ## Patterns -/

section Patterns

/-- A step that is taken alike by all compilers, and has such a result. -/
def Alike (P : α → Prop) (x : Compiler → Compile α) : Prop :=
  ∃ v, P v ∧ ∀ options, x ⟨a, options⟩ = pure v

variable (function : Option NodeId)

mutual

/-- Patterns without expressions are compiled alike. -/
theorem pattern_alike : ∀ p : Pattern, p.expressions = [] →
    Alike a Code.Pattern.Blind (·.pattern function p)
  | ⟨_, shape, whole⟩, h => by
    obtain ⟨s, blind, same⟩ := shape_alike shape h
    refine ⟨⟨s, a.captureSlot? whole⟩, blind, fun options => ?_⟩
    simp only [pattern, same, pure_bind]

theorem shape_alike : ∀ s : PatternShape, s.expressions = [] →
    Alike a Code.Shape.Blind (·.shape function s)
  | .expr e, h => by cases h
  | .wildcard, _ | .default, _ => ⟨.any, trivial, fun _ => by simp only [shape]⟩
  | .ofType ty, _ => ⟨.ofType ty, trivial, fun _ => by simp only [shape]⟩
  | .list items, h => by
    obtain ⟨ps, blind, same⟩ := patterns_alike items h
    exact ⟨.list ps, blind, fun options => by
      simp only [shape, same, pure_bind]⟩
  | .headTail head tail, h => by
    obtain ⟨ps, blind, same⟩ := patterns_alike head h
    exact ⟨.headTail ps (a.captureSlot? tail), blind, fun options => by
      simp only [shape, same, pure_bind]⟩
  | .initLast init last, h => by
    obtain ⟨ps, blind, same⟩ := patterns_alike last h
    exact ⟨.initLast (a.captureSlot? init) ps, blind, fun options => by
      simp only [shape, same, pure_bind]⟩
  | .middle head mid last, h => by
    obtain ⟨first, rest⟩ := List.append_eq_nil_iff.mp h
    obtain ⟨ps, blind, same⟩ := patterns_alike head first
    obtain ⟨qs, blind', same'⟩ := patterns_alike last rest
    exact ⟨.middle ps (a.captureSlot? mid) qs, ⟨blind, blind'⟩, fun options => by
      simp only [shape, same, same', pure_bind]⟩
  | .dict entries, h => by
    obtain ⟨ps, blind, same⟩ := keyPatterns_alike entries h
    exact ⟨.dict ps, blind, fun options => by
      simp only [shape, same, pure_bind]⟩
  | .openDict entries rest, h => by
    obtain ⟨ps, blind, same⟩ := keyPatterns_alike entries h
    exact ⟨.openDict ps (a.captureSlot? rest), blind, fun options => by
      simp only [shape, same, pure_bind]⟩

theorem patterns_alike : ∀ ps : List Pattern, expressionsOfPatterns ps = [] →
    Alike a BlindPatterns (·.patterns function ps)
  | [], _ => ⟨[], trivial, fun _ => by simp only [patterns]⟩
  | p :: rest, h => by
    obtain ⟨first, others⟩ := List.append_eq_nil_iff.mp h
    obtain ⟨q, blind, same⟩ := pattern_alike p first
    obtain ⟨qs, blind', same'⟩ := patterns_alike rest others
    exact ⟨q :: qs, ⟨blind, blind'⟩, fun options => by
      simp only [patterns, same, same', pure_bind]⟩

theorem keyPatterns_alike : ∀ ps : List KeyPattern, expressionsOfEntries ps = [] →
    Alike a BlindKeyPatterns (·.keyPatterns function ps)
  | [], _ => ⟨[], trivial, fun _ => by simp only [keyPatterns]⟩
  | ⟨key, p⟩ :: rest, h => by
    obtain ⟨first, others⟩ := List.append_eq_nil_iff.mp h
    obtain ⟨q, blind, same⟩ := pattern_alike p first
    obtain ⟨qs, blind', same'⟩ := keyPatterns_alike rest others
    exact ⟨⟨key, q⟩ :: qs, ⟨blind, blind'⟩, fun options => by
      simp only [keyPatterns, same, same', pure_bind]⟩

end

end Patterns

/-! ## Expressions -/

/-- The parts of a node, or both times the same operation that fails. -/
inductive PartsBecome (R : Memory → α → β → Prop) (m : Memory) : Except Op α → Except Op β → Prop
  | ok {v : α} {w : β} (h : R m v w) : PartsBecome R m (.ok v) (.ok w)
  | error (fault : Fault) (span : Span) :
      PartsBecome R m (.error (.ofFault fault span)) (.error (.ofFault fault span))

theorem PartsBecome.map {R : Memory → α → β → Prop} {S : Memory → γ → δ → Prop}
    {x : Except Op α} {y : Except Op β} (h : PartsBecome R m x y) {f : α → γ} {g : β → δ}
    (imp : ∀ v w, R m v w → S m (f v) (g w)) : PartsBecome S m (x.map f) (y.map g) := by
  cases h with
  | ok h => exact .ok (imp _ _ h)
  | error fault span => exact .error fault span

theorem PartsBecome.later {R : Memory → α → β → Prop} {m' : Memory} {x : Except Op α}
    {y : Except Op β} (h : PartsBecome R m x y) (imp : ∀ {v w}, R m v w → R m' v w) :
    PartsBecome R m' x y := by
  cases h with
  | ok h => exact .ok (imp h)
  | error fault span => exact .error fault span

theorem ofFault_becomes (fault : Fault) (span : Span) :
    Op.Becomes m (.ofFault fault span) (.ofFault fault span) := .same span (.fail fault)

theorem constant_becomes (node : Node) (l : Literal) :
    Op.Becomes m (constant node l) (constant node l) := by
  unfold constant
  split
  · next v found =>
    refine .same _ (.constant ?_)
    unfold Value.ofLiteral at found
    split at found
    all_goals first
      | (cases found; trivial)
      | (split at found <;> cases found; trivial)
  · exact ofFault_becomes _ _

theorem reference_becomes (node : Node) (r : Reference) (function : Option NodeId) :
    Op.Becomes m ((plain a).reference node r function)
      ((full a options).reference node r function) := by
  rw [Compiler.reference, Compiler.reference, plain_analysis, full_analysis]
  split
  · exact .same _ (.reference _ _)
  · exact ofFault_becomes _ _

set_option linter.unusedSectionVars false

mutual

/-- **Every expression becomes what completion makes of it.** -/
theorem expr_follows (function : Option NodeId) : ∀ (e : Expr) {m : Memory}, e.Blind →
    Follows m Op.Becomes ((plain a).expr function e) ((full a options).expr function e)
  | .constant node l, m, _ => by
    rw [expr, expr]
    exact .pure fun _ _ => constant_becomes node l
  | .reference node r, m, _ => by
    rw [expr, expr]
    exact .pure fun _ _ => reference_becomes a options node r function
  | .list node es, m, blind => by
    rw [expr, expr]
    exact (items_follows function es fun _ => blind.child).bind fun _ _ _ _ es =>
      finish_follows a options (.same _ (.list es))
  | .dict node es, m, blind => by
    rw [expr, expr]
    exact (entries_follows function es fun _ => blind.child).bind fun _ _ _ _ es =>
      finish_follows a options (.same _ (.dict es))
  | .function node ps returns body, m, blind => by
    rw [expr, expr]
    simp only [plain_analysis, full_analysis]
    split
    · next scope creation _ _ =>
      have parts := List.forall_mem_append.mp blind.parts
      refine (params_follows function ps parts.1).bind fun m₁ ps ps' _ becomes => ?_
      refine (template_follows a options scope
        (.pure fun _ _ _ => .none)).bind fun m₂ t t' later template => ?_
      refine (expr_follows (some node.id) body (parts.2 body (List.mem_singleton.mpr rfl))).bind
        fun m₃ op op' later' body => ?_
      split
      · next captures _ =>
        exact finish_follows a options (.same _ (.function
          ((becomes.retains later).retains later') returns body (template.retains later') captures
          node.span))
      · exact .pure fun _ _ => ofFault_becomes _ _
    · exact .pure fun _ _ => ofFault_becomes _ _
  | .call node callee args, m, blind => by
    rw [expr, expr]
    have parts := List.forall_mem_cons.mp blind.parts
    exact (expr_follows function callee parts.1).bind fun _ _ _ _ callee =>
      (arguments_follows function args parts.2).bind fun _ _ _ later args =>
        finish_follows a options (.same _ (.call (callee.retains later) args))
  | .curry node callee args, m, blind => by
    rw [expr, expr]
    have parts := List.forall_mem_cons.mp blind.parts
    exact (expr_follows function callee parts.1).bind fun _ _ _ _ callee =>
      (named_follows function args parts.2).bind fun _ _ _ later args =>
        finish_follows a options (.same _ (.curry (callee.retains later) args))
  | .letIn node bindings body, m, blind => by
    rw [expr, expr]
    simp only [plain_analysis, full_analysis]
    split
    · exact .pure fun _ _ => ofFault_becomes _ _
    · next scope _ =>
      have parts := List.forall_mem_append.mp blind.parts
      exact (template_follows a options scope (inits_follows function bindings parts.1)).bind
        fun _ _ _ _ template =>
          (expr_follows function body (parts.2 body (List.mem_singleton.mpr rfl))).bind
            fun _ _ _ later body =>
              finish_follows a options (.same _ (.letIn (template.retains later) body))
  | .ifElse node c t e, m, blind => by
    rw [expr, expr]
    exact (expr_follows function c (blind.child (by simp [Expr.children]))).bind fun _ _ _ _ hc =>
      (expr_follows function t (blind.child (by simp [Expr.children]))).bind fun _ _ _ later ht =>
        (expr_follows function e (blind.child (by simp [Expr.children]))).bind
          fun _ _ _ later' he => finish_follows a options
            (.same _ (.ifElse ((hc.retains later).retains later') (ht.retains later') he))
  | .matchOn node subject ls, m, blind => by
    rw [expr, expr]
    have parts := List.forall_mem_cons.mp blind.parts
    -- Since no line compares, its pattern is compiled in the same way by all compilers.
    have compares : ∀ l ∈ ls, l.pattern.expressions = [] := fun l mem => by
      by_cases none : l.pattern.expressions = []
      · exact none
      · exact absurd ⟨l, mem, none⟩ (blind _ .whole)
    refine (lines_follows function ls compares parts.2).bind fun m₁ x y _ found => ?_
    cases found with
    | error fault span => exact .pure fun _ _ => ofFault_becomes _ _
    | ok found =>
      exact (expr_follows function subject parts.1).bind fun _ _ _ later subject =>
        finish_follows a options (.same _ (.matchOn subject (found.retains later)))
  | .forEach node hs body, m, blind => by
    rw [expr, expr]
    simp only [plain_analysis, full_analysis]
    split
    · exact .pure fun _ _ => ofFault_becomes _ _
    · next scope _ =>
      have parts := List.forall_mem_append.mp blind.parts
      refine (template_follows a options scope (headInits_follows function hs parts.1)).bind
        fun m₁ t t' _ template => ?_
      refine (heads_follows function hs parts.1).bind fun m₂ x y later found => ?_
      cases found with
      | error fault span => exact .pure fun _ _ => ofFault_becomes _ _
      | ok found =>
        exact (expr_follows function body (parts.2 body (List.mem_singleton.mpr rfl))).bind
          fun _ _ _ later' body => finish_follows a options (.same _
            (.forEach ((template.retains later).retains later') (found.retains later') body))
  | .binary node op l r, m, blind => by
    rw [expr, expr]
    exact (expr_follows function l (blind.child (by simp [Expr.children]))).bind fun _ _ _ _ hl =>
      (expr_follows function r (blind.child (by simp [Expr.children]))).bind fun _ _ _ later hr =>
        finish_follows a options (.same _
          (.binary (fun mem => blind _ .whole mem) .generic (hl.retains later) hr))
  | .unary node op e, m, blind => by
    rw [expr, expr]
    exact (expr_follows function e (blind.child (by simp [Expr.children]))).bind fun _ _ _ _ h =>
      finish_follows a options (.same _ (.unary op h))
  | .cast node e ty, m, blind => by
    rw [expr, expr]
    exact (expr_follows function e (blind.child (by simp [Expr.children]))).bind fun _ _ _ _ h =>
      finish_follows a options (.same _ (.cast h ty))
  | .isOf node e ty, m, blind => by
    rw [expr, expr]
    exact (expr_follows function e (blind.child (by simp [Expr.children]))).bind fun _ _ _ _ h =>
      finish_follows a options (.same _ (.isOf h ty))
  | .access node container keys, m, blind => by
    rw [expr, expr]
    have parts := List.forall_mem_cons.mp blind.parts
    exact (expr_follows function container parts.1).bind fun _ _ _ _ container =>
      (exprs_follows function keys parts.2).bind fun _ _ _ later keys =>
        finish_follows a options (.same _ (.access (container.retains later) keys))
  | .tryCatch node body clause error trace handler, m, blind => by
    rw [expr, expr]
    simp only [plain_analysis, full_analysis]
    split
    · exact .pure fun _ _ => ofFault_becomes _ _
    · next scope _ =>
      refine (expr_follows function body (blind.child (by simp [Expr.children]))).bind
        fun m₁ _ _ _ body => ?_
      refine (template_follows a options scope
        (.pure fun _ _ _ => .none)).bind fun m₂ t t' later template => ?_
      exact (expr_follows function handler (blind.child (by simp [Expr.children]))).bind
        fun _ _ _ later' handler => finish_follows a options (.same _ (.tryCatch
          ((body.retains later).retains later') (template.retains later') _ _ handler))
  | .throw node e, m, blind => by
    rw [expr, expr]
    exact (expr_follows function e (blind.child (by simp [Expr.children]))).bind fun _ _ _ _ h =>
      finish_follows a options (.same _ (.throw h))

theorem exprs_follows (function : Option NodeId) : ∀ (es : List Expr) {m : Memory},
    (∀ e ∈ es, e.Blind) →
    Follows m OpsBecome ((plain a).exprs function es) ((full a options).exprs function es)
  | [], m, _ => by
    rw [exprs, exprs]
    exact .pure fun _ _ => .nil
  | e :: rest, m, blind => by
    rw [exprs, exprs]
    rw [List.forall_mem_cons] at blind
    exact (expr_follows function e blind.1).bind fun _ _ _ _ first =>
      (exprs_follows function rest blind.2).bind fun _ _ _ later rest =>
        .pure fun _ later' => .cons ((first.retains later).retains later') (rest.retains later')

theorem option_follows (function : Option NodeId) : ∀ (e : Option Expr) {m : Memory},
    (∀ e' ∈ e.toList, e'.Blind) →
    Follows m OptionBecomes ((plain a).option function e) ((full a options).option function e)
  | none, m, _ => by
    rw [option, option]
    exact .pure fun _ _ => .none
  | some e, m, blind => by
    rw [option, option]
    exact (expr_follows function e (blind e (List.mem_singleton.mpr rfl))).bind fun _ _ _ _ first =>
      .pure fun _ later => .some (first.retains later)

theorem items_follows (function : Option NodeId) : ∀ (es : List ListItem) {m : Memory},
    (∀ e ∈ es.map (·.expr), e.Blind) →
    Follows m ItemsBecome ((plain a).items function es) ((full a options).items function es)
  | [], m, _ => by
    rw [items, items]
    exact .pure fun _ _ => .nil
  | .value e :: rest, m, blind => by
    rw [items, items]
    rw [List.map_cons, List.forall_mem_cons] at blind
    exact (expr_follows function e blind.1).bind fun _ _ _ _ first =>
      (items_follows function rest blind.2).bind fun _ _ _ later rest =>
        .pure fun _ later' => .value ((first.retains later).retains later') (rest.retains later')
  | .splat e :: rest, m, blind => by
    rw [items, items]
    rw [List.map_cons, List.forall_mem_cons] at blind
    exact (expr_follows function e blind.1).bind fun _ _ _ _ first =>
      (items_follows function rest blind.2).bind fun _ _ _ later rest =>
        .pure fun _ later' => .splat ((first.retains later).retains later') (rest.retains later')

theorem entries_follows (function : Option NodeId) : ∀ (es : List DictEntry) {m : Memory},
    (∀ e ∈ es.flatMap (·.exprs), e.Blind) →
    Follows m EntriesBecome ((plain a).entries function es) ((full a options).entries function es)
  | [], m, _ => by
    rw [entries, entries]
    exact .pure fun _ _ => .nil
  | .pair k v :: rest, m, blind => by
    rw [entries, entries]
    rw [List.flatMap_cons, List.forall_mem_append] at blind
    exact (expr_follows function k (blind.1 k (by simp [DictEntry.exprs]))).bind fun _ _ _ _ key =>
      (expr_follows function v (blind.1 v (by simp [DictEntry.exprs]))).bind
        fun _ _ _ later value => (entries_follows function rest blind.2).bind
          fun _ _ _ later' rest => .pure fun _ later'' =>
            .pair (((key.retains later).retains later').retains later'')
              ((value.retains later').retains later'') (rest.retains later'')
  | .splat e :: rest, m, blind => by
    rw [entries, entries]
    rw [List.flatMap_cons, List.forall_mem_append] at blind
    exact (expr_follows function e (blind.1 e (by simp [DictEntry.exprs]))).bind
      fun _ _ _ _ first => (entries_follows function rest blind.2).bind fun _ _ _ later rest =>
        .pure fun _ later' => .splat ((first.retains later).retains later') (rest.retains later')

theorem params_follows (function : Option NodeId) : ∀ (ps : List Param) {m : Memory},
    (∀ e ∈ ps.filterMap (·.default), e.Blind) →
    Follows m ParamsBecome ((plain a).params function ps) ((full a options).params function ps)
  | [], m, _ => by
    rw [params, params]
    exact .pure fun _ _ => .nil
  | ⟨_, name, ty, none⟩ :: rest, m, blind => by
    rw [params, params, option, option]
    rw [List.filterMap_cons_none rfl] at blind
    exact (params_follows function rest blind).bind fun _ _ _ _ rest =>
      .pure fun _ later => .required name ty (rest.retains later)
  | ⟨_, name, ty, some e⟩ :: rest, m, blind => by
    rw [params, params, option, option]
    have parts : ∀ e' ∈ e :: rest.filterMap (·.default), e'.Blind := blind
    have blind := List.forall_mem_cons.mp parts
    simp only [bind_assoc, pure_bind]
    exact (expr_follows function e blind.1).bind fun _ _ _ _ first =>
      (params_follows function rest blind.2).bind fun _ _ _ later rest =>
        .pure fun _ later' =>
          .optional name ty ((first.retains later).retains later') (rest.retains later')

theorem arguments_follows (function : Option NodeId) : ∀ (args : List Argument) {m : Memory},
    (∀ e ∈ args.map (·.expr), e.Blind) →
    Follows m ArgumentsBecome ((plain a).arguments function args)
      ((full a options).arguments function args)
  | [], m, _ => by
    rw [arguments, arguments]
    exact .pure fun _ _ => .nil
  | .positional e :: rest, m, blind => by
    rw [arguments, arguments]
    rw [List.map_cons, List.forall_mem_cons] at blind
    exact (expr_follows function e blind.1).bind fun _ _ _ _ first =>
      (arguments_follows function rest blind.2).bind fun _ _ _ later rest => .pure fun _ later' =>
        .positional ((first.retains later).retains later') (rest.retains later')
  | .named name e :: rest, m, blind => by
    rw [arguments, arguments]
    rw [List.map_cons, List.forall_mem_cons] at blind
    exact (expr_follows function e blind.1).bind fun _ _ _ _ first =>
      (arguments_follows function rest blind.2).bind fun _ _ _ later rest => .pure fun _ later' =>
        .named name ((first.retains later).retains later') (rest.retains later')
  | .splat e :: rest, m, blind => by
    rw [arguments, arguments]
    rw [List.map_cons, List.forall_mem_cons] at blind
    exact (expr_follows function e blind.1).bind fun _ _ _ _ first =>
      (arguments_follows function rest blind.2).bind fun _ _ _ later rest => .pure fun _ later' =>
        .splat ((first.retains later).retains later') (rest.retains later')

theorem named_follows (function : Option NodeId) : ∀ (args : List NamedExpr) {m : Memory},
    (∀ e ∈ args.map (·.value), e.Blind) →
    Follows m NamedBecome ((plain a).named function args) ((full a options).named function args)
  | [], m, _ => by
    rw [named, named]
    exact .pure fun _ _ => .nil
  | ⟨name, e⟩ :: rest, m, blind => by
    rw [named, named]
    rw [List.map_cons, List.forall_mem_cons] at blind
    exact (expr_follows function e blind.1).bind fun _ _ _ _ first =>
      (named_follows function rest blind.2).bind fun _ _ _ later rest => .pure fun _ later' =>
        .cons name ((first.retains later).retains later') (rest.retains later')

/-- The values of definitions become what completion makes of them. -/
theorem inits_follows (function : Option NodeId) : ∀ (vars : List VarDef) {m : Memory},
    (∀ e ∈ vars.map (·.value), e.Blind) →
    Follows m InitsBecome ((plain a).inits function vars) ((full a options).inits function vars)
  | [], m, _ => by
    rw [inits, inits]
    exact .pure fun _ _ _ => .none
  | ⟨node, _, _, e⟩ :: rest, m, blind => by
    rw [inits, inits]
    simp only [plain_analysis, full_analysis]
    rw [List.map_cons, List.forall_mem_cons] at blind
    split
    · exact inits_follows function rest blind.2
    · next symbol _ =>
      exact (expr_follows function e blind.1).bind fun _ _ _ _ first =>
        (inits_follows function rest blind.2).bind fun _ _ _ later rest => .pure fun _ later' =>
          (rest.retains later').insert symbol ((first.retains later).retains later')

theorem headInits_follows (function : Option NodeId) : ∀ (hs : List ForHead) {m : Memory},
    (∀ e ∈ hs.map (·.expr), e.Blind) →
    Follows m InitsBecome ((plain a).headInits function hs)
      ((full a options).headInits function hs)
  | [], m, _ => by
    rw [headInits, headInits]
    exact .pure fun _ _ _ => .none
  | .generator _ _ _ _ :: rest, m, blind => by
    rw [headInits, headInits]
    exact headInits_follows function rest (List.forall_mem_cons.mp blind).2
  | .condition _ :: rest, m, blind => by
    rw [headInits, headInits]
    exact headInits_follows function rest (List.forall_mem_cons.mp blind).2
  | .definition node _ _ e :: rest, m, blind => by
    rw [headInits, headInits]
    simp only [plain_analysis, full_analysis]
    rw [List.map_cons, List.forall_mem_cons] at blind
    split
    · exact headInits_follows function rest blind.2
    · next symbol _ =>
      exact (expr_follows function e blind.1).bind fun _ _ _ _ first =>
        (headInits_follows function rest blind.2).bind fun _ _ _ later rest =>
          .pure fun _ later' =>
            (rest.retains later').insert symbol ((first.retains later).retains later')

theorem heads_follows (function : Option NodeId) : ∀ (hs : List ForHead) {m : Memory},
    (∀ e ∈ hs.map (·.expr), e.Blind) →
    Follows m (PartsBecome HeadsBecome) ((plain a).heads function hs)
      ((full a options).heads function hs)
  | [], m, _ => by
    rw [heads, heads]
    exact .pure fun _ _ => .ok .nil
  | .generator node _ ty e :: rest, m, blind => by
    rw [heads, heads]
    simp only [plain_analysis, full_analysis]
    rw [List.map_cons, List.forall_mem_cons] at blind
    split
    · exact .pure fun _ _ => .error _ _
    · next slot _ =>
      exact (expr_follows function e blind.1).bind fun _ _ _ _ first =>
        (heads_follows function rest blind.2).bind fun _ _ _ later rest => .pure fun _ later' =>
          (rest.later (fun h => h.retains later')).map fun _ _ rest =>
            .generator slot ty ((first.retains later).retains later') rest
  | .definition node _ _ e :: rest, m, blind => by
    rw [heads, heads]
    simp only [plain_analysis, full_analysis]
    rw [List.map_cons, List.forall_mem_cons] at blind
    split
    · exact .pure fun _ _ => .error _ _
    · next slot _ =>
      exact (heads_follows function rest blind.2).bind fun _ _ _ _ rest => .pure fun _ later' =>
        (rest.later (fun h => h.retains later')).map fun _ _ rest => .definition slot rest
  | .condition e :: rest, m, blind => by
    rw [heads, heads]
    rw [List.map_cons, List.forall_mem_cons] at blind
    exact (expr_follows function e blind.1).bind fun _ _ _ _ first =>
      (heads_follows function rest blind.2).bind fun _ _ _ later rest => .pure fun _ later' =>
        (rest.later (fun h => h.retains later')).map fun _ _ rest =>
          .condition ((first.retains later).retains later') rest

theorem lines_follows (function : Option NodeId) : ∀ (ls : List MatchLine) {m : Memory},
    (∀ l ∈ ls, l.pattern.expressions = []) → (∀ e ∈ ls.flatMap (·.exprs), e.Blind) →
    Follows m (PartsBecome LinesBecome) ((plain a).lines function ls)
      ((full a options).lines function ls)
  | [], m, _, _ => by
    rw [lines, lines]
    exact .pure fun _ _ => .ok .nil
  | ⟨node, p, guard, result⟩ :: rest, m, compares, blind => by
    rw [lines, lines]
    simp only [plain_analysis, full_analysis]
    rw [List.forall_mem_cons] at compares
    rw [List.flatMap_cons, List.forall_mem_append] at blind
    split
    · exact .pure fun _ _ => .error _ _
    · next scope _ =>
      obtain ⟨q, seesNothing, same⟩ := pattern_alike a function p compares.1
      have parts := List.forall_mem_append.mp blind.1
      have guarded := (List.forall_mem_append.mp parts.1).2
      have plainly : (plain a).pattern function p = pure q := same ⟨false, false⟩
      have fully : (full a options).pattern function p = pure q := same options
      rw [plainly, fully, pure_bind, pure_bind]
      refine (template_follows a options scope
        (.pure fun _ _ _ => .none)).bind fun m₁ t t' _ template => ?_
      refine (option_follows function guard guarded).bind fun m₂ _ _ later guard => ?_
      refine (expr_follows function result (parts.2 result (List.mem_singleton.mpr rfl))).bind
        fun m₃ _ _ later' result => ?_
      refine (lines_follows function rest compares.2 blind.2).bind fun m₄ _ _ later'' rest =>
        .pure fun m₅ last => ?_
      exact (rest.later (fun h => h.retains last)).map fun _ _ rest =>
        .cons seesNothing (template.retains (((later.trans later').trans later'').trans last))
          (guard.retains ((later'.trans later'').trans last)) (result.retains (later''.trans last))
          rest

end

/-! ## Programs -/

theorem groupTemplate_follows (scope : ScopeId) {vars : List VarDef}
    (blind : ∀ v ∈ vars, v.value.Blind) :
    Follows m Template.Becomes ((plain a).groupTemplate scope vars)
      ((full a options).groupTemplate scope vars) :=
  template_follows a options scope (inits_follows a options none vars fun e mem => by
    obtain ⟨v, found, rfl⟩ := List.mem_map.mp mem
    exact blind v found)

/-- A step whose result is not looked at. -/
theorem discard_follows {R : Memory → α → β → Prop} {x : Compile α} {y : Compile β}
    (h : Follows m R x y) :
    Follows m (fun _ _ _ => True) (discard x : Compile PUnit) (discard y : Compile PUnit) := by
  intro s s' now later
  obtain ⟨now', retains, -⟩ := h s s' now later
  exact ⟨now', retains, trivial⟩

theorem groups_follows : ∀ (groups : List (Node × List VarDef)) {m : Memory},
    (∀ g ∈ groups, ∀ v ∈ g.2, v.value.Blind) →
    Follows m (fun _ _ _ => True) ((plain a).groups groups) ((full a options).groups groups)
  | [], _, _ => .pure fun _ _ => trivial
  | (node, vars) :: rest, m, blind => by
    rw [List.forall_mem_cons] at blind
    rw [groups, groups]
    simp only [plain_analysis, full_analysis]
    split
    · exact (discard_follows (groupTemplate_follows a options _ blind.1)).bind fun _ _ _ _ _ =>
        groups_follows rest blind.2
    · exact groups_follows rest blind.2

theorem unit_follows (u : SourceUnit) (blind : ∀ g ∈ u.groups, ∀ v ∈ g.2, v.value.Blind) :
    Follows m (fun _ _ _ => True) ((plain a).unit u) ((full a options).unit u) := by
  rw [unit, unit]
  simp only [plain_analysis, full_analysis]
  split
  · exact (discard_follows (groupTemplate_follows a options _ fun _ h => by cases h)).bind
      fun _ _ _ _ _ => groups_follows a options u.groups blind
  · exact .pure fun _ _ => trivial

/-- **All templates of a program become what completion makes of them.** -/
theorem program_follows {units : UnitSet} (blind : ∀ e, units.Contains e → ¬e.Compares) :
    Follows m (fun _ _ _ => True) ((plain a).program units) ((full a options).program units) := by
  have eachBlind : ∀ u ∈ units, ∀ g ∈ u.groups, ∀ v ∈ g.2, v.value.Blind :=
    fun u hu g hg v hv e occurs => blind e ⟨u, hu, g, hg, v, hv, occurs⟩
  have each : ∀ {us : List SourceUnit} {m : Memory},
      (∀ u ∈ us, ∀ g ∈ u.groups, ∀ v ∈ g.2, v.value.Blind) →
      Follows m (fun _ _ _ => True) (us.forM (plain a).unit) (us.forM (full a options).unit) := by
    intro us m blind
    induction us generalizing m with
    | nil => exact .pure fun _ _ => trivial
    | cons u us ih =>
      rw [List.forall_mem_cons] at blind
      exact (unit_follows a options u blind.1).bind fun _ _ _ _ _ => ih blind.2
  exact (discard_follows (groupTemplate_follows a options _ fun _ h => by cases h)).bind
    fun _ _ _ _ _ => each eachBlind

end Compiler

end CellScript
