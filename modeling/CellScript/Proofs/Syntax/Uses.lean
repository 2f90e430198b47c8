import CellScript.Proofs.Syntax.Occurs

/-!
# Where references are used

The references of a program in the order in which they stand, each with the functions in whose
bodies it stands. The default of a parameter stands outside the function, in whatever surrounds
that.

* `Expr.sizeOf_lt_of_mem_children` — an expression is larger than those of which it is made
* `Expr.children_induction` — induction over the expressions inside an expression
* `Expr.uses`, `UnitSet.uses` — the references in an expression and in a program
* `Expr.uses_of_children` — only references and functions need to be told apart
-/

namespace CellScript

/-! ## Expressions are made of smaller ones -/

mutual

theorem Pattern.sizeOf_expressions {part : Expr} : ∀ p : Pattern, part ∈ p.expressions →
    sizeOf part < sizeOf p
  | ⟨_, shape, _⟩, mem => by
    have := shape.sizeOf_expressions mem
    simp only [Pattern.mk.sizeOf_spec]
    omega

theorem PatternShape.sizeOf_expressions {part : Expr} : ∀ shape : PatternShape,
    part ∈ shape.expressions → sizeOf part < sizeOf shape
  | .expr e, mem => by
    rw [List.mem_singleton.mp mem, PatternShape.expr.sizeOf_spec]
    omega
  | .wildcard, mem | .default, mem | .ofType _, mem => by cases mem
  | .list items, mem => by
    have := sizeOf_expressionsOfPatterns items mem
    simp only [PatternShape.list.sizeOf_spec]
    omega
  | .headTail head _, mem => by
    have := sizeOf_expressionsOfPatterns head mem
    simp only [PatternShape.headTail.sizeOf_spec]
    omega
  | .initLast _ last, mem => by
    have := sizeOf_expressionsOfPatterns last mem
    simp only [PatternShape.initLast.sizeOf_spec]
    omega
  | .middle head _ last, mem => by
    simp only [PatternShape.middle.sizeOf_spec]
    rcases List.mem_append.mp mem with mem | mem
    · have := sizeOf_expressionsOfPatterns head mem
      omega
    · have := sizeOf_expressionsOfPatterns last mem
      omega
  | .dict entries, mem => by
    have := sizeOf_expressionsOfEntries entries mem
    simp only [PatternShape.dict.sizeOf_spec]
    omega
  | .openDict entries _, mem => by
    have := sizeOf_expressionsOfEntries entries mem
    simp only [PatternShape.openDict.sizeOf_spec]
    omega

theorem sizeOf_expressionsOfPatterns {part : Expr} : ∀ ps : List Pattern,
    part ∈ expressionsOfPatterns ps → sizeOf part < sizeOf ps
  | p :: rest, mem => by
    simp only [List.cons.sizeOf_spec]
    rcases List.mem_append.mp mem with mem | mem
    · have := p.sizeOf_expressions mem
      omega
    · have := sizeOf_expressionsOfPatterns rest mem
      omega

theorem sizeOf_expressionsOfEntries {part : Expr} : ∀ entries : List KeyPattern,
    part ∈ expressionsOfEntries entries → sizeOf part < sizeOf entries
  | ⟨_, p⟩ :: rest, mem => by
    simp only [List.cons.sizeOf_spec, KeyPattern.mk.sizeOf_spec]
    rcases List.mem_append.mp mem with mem | mem
    · have := p.sizeOf_expressions mem
      omega
    · have := sizeOf_expressionsOfEntries rest mem
      omega

end

/-- A part of an item of a list is smaller than the list. -/
theorem sizeOf_lt_of_mem_flatMap {α : Type} [SizeOf α] {parts : α → List Expr} {part : Expr}
    {items : List α} (each : ∀ item, part ∈ parts item → sizeOf part < sizeOf item)
    (mem : part ∈ items.flatMap parts) : sizeOf part < sizeOf items := by
  obtain ⟨item, known, mem⟩ := List.mem_flatMap.mp mem
  exact Nat.lt_trans (each item mem) (List.sizeOf_lt_of_mem known)

/-- The same for items with one part each. -/
theorem sizeOf_lt_of_mem_map {α : Type} [SizeOf α] {part : α → Expr} {e : Expr} {items : List α}
    (each : ∀ item, sizeOf (part item) < sizeOf item) (mem : e ∈ items.map part) :
    sizeOf e < sizeOf items := by
  obtain ⟨item, known, rfl⟩ := List.mem_map.mp mem
  exact Nat.lt_trans (each item) (List.sizeOf_lt_of_mem known)

theorem sizeOf_lt_of_mem_defaults {part : Expr} {params : List Param}
    (mem : part ∈ params.filterMap (·.default)) : sizeOf part < sizeOf params := by
  obtain ⟨⟨node, name, ty, default⟩, known, rfl⟩ := List.mem_filterMap.mp mem
  refine Nat.lt_trans ?_ (List.sizeOf_lt_of_mem known)
  simp only [Param.mk.sizeOf_spec, Option.some.sizeOf_spec]
  omega

theorem MatchLine.sizeOf_exprs {part : Expr} (l : MatchLine) (mem : part ∈ l.exprs) :
    sizeOf part < sizeOf l := by
  obtain ⟨node, pattern, guard, result⟩ := l
  simp only [MatchLine.exprs, List.mem_append, Option.mem_toList, List.mem_singleton] at mem
  simp only [MatchLine.mk.sizeOf_spec]
  rcases mem with (mem | rfl) | rfl
  · have := pattern.sizeOf_expressions mem
    omega
  · simp only [Option.some.sizeOf_spec]
    omega
  · omega

namespace Expr

/-- **An expression is larger than those of which it is made.** -/
theorem sizeOf_lt_of_mem_children {e part : Expr} (mem : part ∈ e.children) :
    sizeOf part < sizeOf e := by
  cases e with
  | constant | reference => cases mem
  | list _ items =>
    have := sizeOf_lt_of_mem_map (fun item => by cases item <;> simp [ListItem.expr]) mem
    simp only [list.sizeOf_spec]
    omega
  | dict _ entries =>
    have := sizeOf_lt_of_mem_flatMap (fun entry h => by
      cases entry with
      | pair k v =>
        simp only [DictEntry.exprs, List.mem_cons, List.not_mem_nil, or_false] at h
        simp only [DictEntry.pair.sizeOf_spec]
        rcases h with rfl | rfl <;> omega
      | splat e =>
        rw [List.mem_singleton.mp h, DictEntry.splat.sizeOf_spec]
        omega) mem
    simp only [dict.sizeOf_spec]
    omega
  | function _ params _ body =>
    simp only [function.sizeOf_spec]
    rcases List.mem_append.mp mem with mem | mem
    · have := sizeOf_lt_of_mem_defaults mem
      omega
    · rw [List.mem_singleton.mp mem]
      omega
  | call _ callee args =>
    simp only [call.sizeOf_spec]
    rcases List.mem_cons.mp mem with rfl | mem
    · omega
    · have := sizeOf_lt_of_mem_map (fun arg => by cases arg <;> grind [Argument.expr]) mem
      omega
  | curry _ callee args =>
    simp only [curry.sizeOf_spec]
    rcases List.mem_cons.mp mem with rfl | mem
    · omega
    · have := sizeOf_lt_of_mem_map (fun arg => by cases arg; grind) mem
      omega
  | letIn _ bindings body =>
    simp only [letIn.sizeOf_spec]
    rcases List.mem_append.mp mem with mem | mem
    · have := sizeOf_lt_of_mem_map (fun v => by cases v; grind) mem
      omega
    · rw [List.mem_singleton.mp mem]
      omega
  | matchOn _ subject lines =>
    simp only [matchOn.sizeOf_spec]
    rcases List.mem_cons.mp mem with rfl | mem
    · omega
    · have := sizeOf_lt_of_mem_flatMap (fun l h => l.sizeOf_exprs h) mem
      omega
  | forEach _ heads body =>
    simp only [forEach.sizeOf_spec]
    rcases List.mem_append.mp mem with mem | mem
    · have :=
        sizeOf_lt_of_mem_map (fun head => by cases head <;> (simp [ForHead.expr]; try omega)) mem
      omega
    · rw [List.mem_singleton.mp mem]
      omega
  | access _ c keys =>
    simp only [access.sizeOf_spec]
    rcases List.mem_cons.mp mem with rfl | mem
    · omega
    · have := List.sizeOf_lt_of_mem mem
      omega
  | ifElse | binary | unary | cast | isOf | tryCatch | throw =>
    simp only [children, List.mem_cons, List.not_mem_nil, or_false] at mem
    rcases mem with rfl | rfl | rfl <;> simp <;> omega

/-- What holds of an expression if it holds of those of which it is made holds of all
expressions. -/
theorem children_induction {P : Expr → Prop}
    (step : ∀ e : Expr, (∀ part ∈ e.children, P part) → P e) (e : Expr) : P e :=
  step e fun part mem =>
    have := sizeOf_lt_of_mem_children mem
    children_induction step part
termination_by sizeOf e

end Expr

/-! ## Uses -/

/-- A reference where it is used, with the functions in whose bodies it stands, innermost first. -/
structure Use where
  node : NodeId
  functions : List NodeId
  deriving DecidableEq, Repr, Inhabited

namespace Expr

/-- The references in an expression that stands in the bodies of the functions `around`, in the
order in which they stand. -/
def uses (around : List NodeId) (e : Expr) : List Use :=
  match e with
  | .reference node _ => [⟨node.id, around⟩]
  | .function node params _ body =>
    (params.filterMap (·.default)).attach.flatMap (fun ⟨e, _⟩ => e.uses around) ++
      body.uses (node.id :: around)
  | e => e.children.attach.flatMap fun ⟨part, _⟩ => part.uses around
termination_by sizeOf e
decreasing_by
  · next mem =>
    have := sizeOf_lt_of_mem_defaults mem
    simp only [function.sizeOf_spec]
    omega
  · simp only [function.sizeOf_spec]
    omega
  · next mem => exact sizeOf_lt_of_mem_children mem

theorem uses_reference (around : List NodeId) (node : Node) (target : Reference) :
    (Expr.reference node target).uses around = [⟨node.id, around⟩] := by
  rw [uses]

theorem uses_function (around : List NodeId) (node : Node) (params : List Param) (returns : Ty)
    (body : Expr) : (Expr.function node params returns body).uses around =
      (params.filterMap (·.default)).flatMap (uses around) ++ body.uses (node.id :: around) := by
  rw [uses]
  congr 1
  conv_rhs => rw [← List.attach_map_subtype_val (params.filterMap (·.default)), List.flatMap_map]

/-- The expression is neither a reference nor a function. -/
def isPlain : Expr → Bool
  | .reference _ _ | .function _ _ _ _ => false
  | _ => true

/-- **Only references and functions need to be told apart**: whatever is used in any other
expression is used in one of those of which it is made. -/
theorem uses_of_children (around : List NodeId) {e : Expr} (plain : e.isPlain = true) :
    e.uses around = e.children.flatMap (uses around) := by
  rw [uses.eq_3 around e (by rintro _ _ rfl; cases plain) (by rintro _ _ _ _ rfl; cases plain)]
  conv_rhs => rw [← List.attach_map_subtype_val e.children, List.flatMap_map]

/-- The functions further out are around everything that is used in an expression. -/
theorem suffix_of_mem_uses {u : Use} (e : Expr) :
    ∀ {around : List NodeId}, u ∈ e.uses around → around <:+ u.functions := by
  induction e using children_induction with
  | step e ih =>
    intro around h
    have parts : ∀ es ⊆ e.children, u ∈ es.flatMap (·.uses around) → around <:+ u.functions := by
      intro es sub mem
      obtain ⟨part, mem, hu⟩ := List.mem_flatMap.mp mem
      exact ih part (sub mem) hu
    cases hp : e.isPlain with
    | true =>
      rw [uses_of_children around hp] at h
      exact parts _ (List.Subset.refl _) h
    | false =>
      cases e with
      | reference node target =>
        rw [uses_reference, List.mem_singleton] at h
        exact h ▸ List.suffix_refl _
      | function node params returns body =>
        rw [uses_function] at h
        rcases List.mem_append.mp h with h | h
        · exact parts _ (List.subset_append_left ..) h
        · exact (List.suffix_cons ..).trans
            (ih body (List.mem_append_right _ (List.mem_singleton.mpr rfl)) h)
      | _ => cases hp

end Expr

/-- The references in a unit. -/
def SourceUnit.uses (u : SourceUnit) : List Use :=
  u.groups.flatMap fun g => g.2.flatMap fun v => v.value.uses []

/-- The references in a program. -/
def UnitSet.uses (units : UnitSet) : List Use := List.flatMap SourceUnit.uses units

end CellScript
