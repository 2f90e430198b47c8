import CellScript.Proofs.Scope.Sound

/-!
# The expressions inside an expression

What is said about the expressions of a program is said about each expression that occurs in the
value of a definition, at any depth. What analysis knows about an expression it knows about all that
occurs in it: each stands in a scope from which only functions and blocks lead out to the scope of
the whole.

* `Expr.Occurs`, `UnitSet.Contains` — at any depth in an expression, anywhere in a program
* `Expr.Sound.occurs` — the tables describe every expression that occurs in one they describe
-/

namespace CellScript

/-! ## Occurrences -/

def DictEntry.exprs : DictEntry → List Expr
  | .pair key value => [key, value]
  | .splat e => [e]

def ForHead.expr : ForHead → Expr
  | .generator _ _ _ e | .definition _ _ _ e | .condition e => e

def MatchLine.exprs (l : MatchLine) : List Expr :=
  l.pattern.expressions ++ l.guard.toList ++ [l.result]

namespace Expr

/-- The expressions of which an expression is made. -/
def children : Expr → List Expr
  | constant _ _ | reference _ _ => []
  | list _ items => items.map (·.expr)
  | dict _ entries => entries.flatMap (·.exprs)
  | function _ params _ body => params.filterMap (·.default) ++ [body]
  | call _ callee args => callee :: args.map (·.expr)
  | curry _ callee args => callee :: args.map (·.value)
  | letIn _ bindings body => bindings.map (·.value) ++ [body]
  | ifElse _ c t e => [c, t, e]
  | matchOn _ subject lines => subject :: lines.flatMap (·.exprs)
  | forEach _ heads body => heads.map (·.expr) ++ [body]
  | binary _ _ l r => [l, r]
  | unary _ _ e | cast _ e _ | isOf _ e _ | throw _ e => [e]
  | access _ c keys => c :: keys
  | tryCatch _ body _ _ _ handler => [body, handler]

/-- The expression is the whole, or part of it at any depth. -/
inductive Occurs (whole : Expr) : Expr → Prop where
  | whole : Occurs whole whole
  | child {e part : Expr} (mem : part ∈ e.children) (outer : Occurs whole e) : Occurs whole part

/-- What occurs in a part occurs in the whole. -/
theorem Occurs.trans {whole e part : Expr} (h : e.Occurs part) (outer : whole.Occurs e) :
    whole.Occurs part := by
  induction h with
  | whole => exact outer
  | child mem _ ih => exact .child mem ih

/-- What occurs in an expression is the whole or occurs in one of its parts. -/
theorem Occurs.cases {whole e : Expr} (h : whole.Occurs e) :
    e = whole ∨ ∃ part ∈ whole.children, part.Occurs e := by
  induction h with
  | whole => exact .inl rfl
  | child mem _ ih =>
    rcases ih with rfl | ⟨part, there, occurs⟩
    · exact .inr ⟨_, mem, .whole⟩
    · exact .inr ⟨part, there, .child mem occurs⟩

end Expr

/-- The unit defines something in whose value the expression occurs. -/
def SourceUnit.Contains (u : SourceUnit) (e : Expr) : Prop :=
  ∃ g ∈ u.groups, ∃ v ∈ g.2, v.value.Occurs e

/-- The expression occurs somewhere in the program. -/
def UnitSet.Contains (units : UnitSet) (e : Expr) : Prop :=
  ∃ u ∈ units, u.Contains e

theorem UnitSet.Contains.occurs {units : UnitSet} {e part : Expr} (h : units.Contains e)
    (occurs : e.Occurs part) : units.Contains part := by
  obtain ⟨u, hu, g, hg, v, hv, outer⟩ := h
  exact ⟨u, hu, g, hg, v, hv, occurs.trans outer⟩

/-! ## Where an expression stands -/

namespace Analysis

/-- From the inner scope, functions and blocks lead out to the outer one. -/
def Under (a : Analysis) : ScopeId → ScopeId → Prop :=
  Relation.ReflTransGen fun inner outer =>
    (a.arena.scope inner).kind.isDynamic = true ∧ (a.arena.scope inner).enclosing = some outer

variable {a : Analysis}

theorem BlockOf.under {node : NodeId} {σ inner : ScopeId} (h : a.BlockOf node σ inner) :
    a.Under inner σ :=
  .single ⟨by rw [h.kind]; rfl, h.enclosing⟩

theorem FunctionOf.under {node : NodeId} {σ inner : ScopeId} {types : List Ty}
    (h : a.FunctionOf node σ inner types) : a.Under inner σ :=
  .single ⟨by rw [h.kind]; rfl, h.enclosing⟩

end Analysis

variable {a : Analysis} {R : ScopeId → NodeId → Prop} {σ : ScopeId}

theorem soundExprs_iff (es : List Expr) : soundExprs a R σ es ↔ ∀ e ∈ es, e.Sound a R σ := by
  induction es with
  | nil => simp [soundExprs]
  | cons e rest ih => rw [soundExprs, ih, List.forall_mem_cons]

theorem soundItems_iff (items : List ListItem) :
    soundItems a R σ items ↔ ∀ e ∈ items.map (·.expr), e.Sound a R σ := by
  induction items with
  | nil => simp [soundItems]
  | cons item rest ih =>
    rw [List.map_cons, List.forall_mem_cons, ← ih]
    cases item <;> rfl

theorem soundEntries_iff (entries : List DictEntry) :
    soundEntries a R σ entries ↔ ∀ e ∈ entries.flatMap (·.exprs), e.Sound a R σ := by
  induction entries with
  | nil => simp [soundEntries]
  | cons entry rest ih =>
    rw [List.flatMap_cons, List.forall_mem_append, ← ih]
    cases entry with
    | pair key value => simp [soundEntries, DictEntry.exprs, and_assoc]
    | splat e => simp [soundEntries, DictEntry.exprs]

theorem soundDefaults_iff (params : List Param) :
    soundDefaults a R σ params ↔ ∀ e ∈ params.filterMap (·.default), e.Sound a R σ := by
  induction params with
  | nil => simp [soundDefaults]
  | cons param rest ih =>
    obtain ⟨node, name, ty, default⟩ := param
    cases default with
    | none => simpa [soundDefaults, soundOption] using ih
    | some e => simpa [soundDefaults, soundOption] using fun _ => ih

theorem soundArguments_iff (args : List Argument) :
    soundArguments a R σ args ↔ ∀ e ∈ args.map (·.expr), e.Sound a R σ := by
  induction args with
  | nil => simp [soundArguments]
  | cons arg rest ih =>
    rw [List.map_cons, List.forall_mem_cons, ← ih]
    cases arg <;> rfl

theorem soundNamed_iff (args : List NamedExpr) :
    soundNamed a R σ args ↔ ∀ e ∈ args.map (·.value), e.Sound a R σ := by
  induction args with
  | nil => simp [soundNamed]
  | cons arg rest ih =>
    obtain ⟨name, e⟩ := arg
    rw [List.map_cons, List.forall_mem_cons, ← ih]
    rfl

theorem soundVars_iff (vars : List VarDef) :
    soundVars a R σ vars ↔ ∀ e ∈ vars.map (·.value), e.Sound a R σ := by
  induction vars with
  | nil => simp [soundVars]
  | cons v rest ih =>
    obtain ⟨node, name, ty, e⟩ := v
    rw [List.map_cons, List.forall_mem_cons, ← ih]
    rfl

theorem sound_of_soundHeads {heads : List ForHead} (h : soundHeads a R σ heads) :
    ∀ e ∈ heads.map (·.expr), e.Sound a R σ := by
  induction heads with
  | nil => exact fun e he => by cases he
  | cons head rest ih =>
    rw [List.map_cons, List.forall_mem_cons]
    cases head with
    | generator node name ty source => exact ⟨h.1, ih h.2.2⟩
    | definition node name ty e => exact ⟨h.2.1, ih h.2.2⟩
    | condition e => exact ⟨h.1, ih h.2⟩

mutual

theorem Pattern.Sound.expressions : ∀ p : Pattern, p.Sound a R σ →
    ∀ e ∈ p.expressions, e.Sound a R σ
  | ⟨_, shape, _⟩ => fun h => PatternShape.Sound.expressions shape h

theorem PatternShape.Sound.expressions : ∀ shape : PatternShape, shape.Sound a R σ →
    ∀ e ∈ shape.expressions, e.Sound a R σ
  | .expr e => fun h e' he' => by
    rw [PatternShape.expressions, List.mem_singleton] at he'
    exact he' ▸ h
  | .wildcard | .default | .ofType _ => fun _ e he => by cases he
  | .list items => fun h => soundPatterns_expressions items h
  | .headTail head _ => fun h => soundPatterns_expressions head h
  | .initLast _ last => fun h => soundPatterns_expressions last h
  | .middle head _ last => fun h => by
    rw [PatternShape.expressions, List.forall_mem_append]
    exact ⟨soundPatterns_expressions head h.1, soundPatterns_expressions last h.2⟩
  | .dict entries => fun h => soundKeyPatterns_expressions entries h
  | .openDict entries _ => fun h => soundKeyPatterns_expressions entries h

theorem soundPatterns_expressions : ∀ ps : List Pattern, soundPatterns a R σ ps →
    ∀ e ∈ expressionsOfPatterns ps, e.Sound a R σ
  | [] => fun _ e he => by cases he
  | p :: rest => fun h => by
    rw [expressionsOfPatterns, List.forall_mem_append]
    exact ⟨Pattern.Sound.expressions p h.1, soundPatterns_expressions rest h.2⟩

theorem soundKeyPatterns_expressions : ∀ entries : List KeyPattern, soundKeyPatterns a R σ entries →
    ∀ e ∈ expressionsOfEntries entries, e.Sound a R σ
  | [] => fun _ e he => by cases he
  | ⟨_, p⟩ :: rest => fun h => by
    rw [expressionsOfEntries, List.forall_mem_append]
    exact ⟨Pattern.Sound.expressions p h.1, soundKeyPatterns_expressions rest h.2⟩

end

/-- The tables describe the expression as it stands somewhere under a scope. -/
def Expr.SoundUnder (a : Analysis) (R : ScopeId → NodeId → Prop) (σ : ScopeId) (e : Expr) : Prop :=
  ∃ inner, a.Under inner σ ∧ e.Sound a R inner

theorem Expr.Sound.here {e : Expr} (h : e.Sound a R σ) : e.SoundUnder a R σ := ⟨σ, .refl, h⟩

theorem soundLines_exprs {lines : List MatchLine} (h : soundLines a R σ lines) :
    ∀ e ∈ lines.flatMap (·.exprs), e.SoundUnder a R σ := by
  induction lines with
  | nil => exact fun e he => by cases he
  | cons line rest ih =>
    obtain ⟨node, pattern, guard, result⟩ := line
    obtain ⟨inPattern, ⟨inner, block, -, -, inGuard, inResult⟩, inRest⟩ := h
    rw [List.flatMap_cons, List.forall_mem_append, MatchLine.exprs, List.forall_mem_append,
      List.forall_mem_append]
    refine ⟨⟨⟨fun e he => (inPattern.expressions _ e he).here, fun e he => ?_⟩, fun e he => ?_⟩,
      ih inRest⟩
    · rw [Option.mem_toList] at he
      rw [show guard = some e from he] at inGuard
      exact ⟨inner, block.under, inGuard⟩
    · rw [List.mem_singleton] at he
      exact he ▸ ⟨inner, block.under, inResult⟩

/-- The tables describe the expressions of which a described one is made. -/
theorem Expr.Sound.children {e : Expr} (h : e.Sound a R σ) :
    ∀ part ∈ e.children, part.SoundUnder a R σ := by
  cases e with
  | constant | reference => exact fun part mem => by cases mem
  | list _ items => exact fun part mem => ((soundItems_iff items).mp h part mem).here
  | dict _ entries => exact fun part mem => ((soundEntries_iff entries).mp h part mem).here
  | function _ params _ body =>
    obtain ⟨inDefaults, inner, function, inBody⟩ := h
    rw [Expr.children, List.forall_mem_append, List.forall_mem_singleton]
    exact ⟨fun part mem => ((soundDefaults_iff params).mp inDefaults part mem).here,
      inner, function.under, inBody⟩
  | call _ callee args =>
    rw [Expr.children, List.forall_mem_cons]
    exact ⟨h.1.here, fun part mem => ((soundArguments_iff args).mp h.2 part mem).here⟩
  | curry _ callee args =>
    rw [Expr.children, List.forall_mem_cons]
    exact ⟨h.1.here, fun part mem => ((soundNamed_iff args).mp h.2 part mem).here⟩
  | letIn _ bindings body =>
    obtain ⟨inner, block, -, inBindings, inBody⟩ := h
    rw [Expr.children, List.forall_mem_append, List.forall_mem_singleton]
    exact ⟨fun part mem => ⟨inner, block.under, (soundVars_iff bindings).mp inBindings part mem⟩,
      inner, block.under, inBody⟩
  | ifElse =>
    simp only [Expr.children, List.forall_mem_cons]
    exact ⟨h.1.here, h.2.1.here, h.2.2.here, fun part mem => by cases mem⟩
  | matchOn _ subject lines =>
    rw [Expr.children, List.forall_mem_cons]
    exact ⟨h.1.here, soundLines_exprs h.2⟩
  | forEach _ heads body =>
    obtain ⟨inner, block, -, inHeads, inBody⟩ := h
    rw [Expr.children, List.forall_mem_append, List.forall_mem_singleton]
    exact ⟨fun part mem => ⟨inner, block.under, sound_of_soundHeads inHeads part mem⟩,
      inner, block.under, inBody⟩
  | binary =>
    simp only [Expr.children, List.forall_mem_cons]
    exact ⟨h.1.here, h.2.here, fun part mem => by cases mem⟩
  | unary | cast | isOf | throw =>
    rw [Expr.children, List.forall_mem_singleton]
    exact Expr.Sound.here h
  | access _ c keys =>
    rw [Expr.children, List.forall_mem_cons]
    exact ⟨h.1.here, fun part mem => ((soundExprs_iff keys).mp h.2 part mem).here⟩
  | tryCatch =>
    obtain ⟨inBody, inner, block, -, -, inHandler⟩ := h
    simp only [Expr.children, List.forall_mem_cons]
    exact ⟨inBody.here, ⟨inner, block.under, inHandler⟩, fun part mem => by cases mem⟩

/-- **The tables describe every expression that occurs in one they describe.** -/
theorem Expr.Sound.occurs {whole e : Expr} (h : whole.Sound a R σ) (occurs : whole.Occurs e) :
    e.SoundUnder a R σ := by
  induction occurs with
  | whole => exact h.here
  | child mem _ ih =>
    obtain ⟨outer, under, sound⟩ := ih
    obtain ⟨inner, under', sound'⟩ := sound.children _ mem
    exact ⟨inner, under'.trans under, sound'⟩

end CellScript
