import CellScript.Proofs.Scope.Abreast
import CellScript.Proofs.Scope.Visits
import CellScript.Proofs.Syntax.Uses

/-!
# Visits in lockstep

The first pass visits an expression, a group of definitions or a unit in the same way wherever it
begins: every step that it takes in one run it takes in the other one too.

* `TwinRuns.visitExpr_lockstep` — visits of an expression
* `TwinRuns.visitVars_lockstep`, `TwinRuns.visitLibraries_lockstep`,
  `TwinRuns.visitSections_lockstep` — visits of the parts of units
-/

namespace CellScript

namespace TwinRuns

open Build

variable {T : TwinRuns} {σ σ' τ τ' : ScopeId}

/-! ## Declarations -/

theorem alike_var (name : String) (ty : Ty) (node : Node) :
    (Declaration.var name ty node).Alike T.pairing (.var name ty node) :=
  ⟨rfl, .direct, rfl, rfl, rfl, rfl⟩

theorem declareVar_lockstep (proper : T.Proper) (paired : T.Open σ σ') (name : String) (ty : Ty)
    (node : Node) : T.Lockstep (Option.Rel T.NewSymbol) (declare σ (.var name ty node))
      (declare σ' (.var name ty node)) := declare_lockstep proper paired (alike_var name ty node)

theorem declareCaptures_lockstep (proper : T.Proper) (paired : T.Open σ σ') :
    ∀ cs : List Capture, T.Pass (declareCaptures σ cs) (declareCaptures σ' cs)
  | [] => .pure trivial
  | c :: rest => (declareVar_lockstep proper paired c.name .any c.node).seq
      (declareCaptures_lockstep proper paired rest)

theorem declareParams_lockstep (proper : T.Proper) (paired : T.Open σ σ') :
    ∀ ps : List Param, T.Pass (declareParams σ ps) (declareParams σ' ps)
  | [] => .pure trivial
  | p :: rest => (declareVar_lockstep proper paired p.name p.ty p.node).seq
      (declareParams_lockstep proper paired rest)

theorem declareVars_lockstep (proper : T.Proper) (paired : T.Open σ σ') :
    ∀ vars : List VarDef, T.Pass (declareVars σ vars) (declareVars σ' vars)
  | [] => .pure trivial
  | v :: rest => (declareVar_lockstep proper paired v.name v.ty v.node).seq
      (declareVars_lockstep proper paired rest)

theorem blockScope_lockstep (proper : T.Proper) (node : NodeId) (paired : T.pairing.scope σ σ')
    (ordered : Bool) :
    T.Lockstep T.NewScope (blockScope node σ ordered) (blockScope node σ' ordered) :=
  createScope_lockstep proper node (.block node) paired ordered

/-! ## Expressions -/

/-- Both runs visit the expression in lockstep, from wherever it stands. -/
def Visit (T : TwinRuns) (e : Expr) : Prop :=
  ∀ {σ σ' : ScopeId}, T.pairing.scope σ σ' → T.Pass (visitExpr σ e) (visitExpr σ' e)

theorem visitExprs_lockstep (paired : T.pairing.scope σ σ') (es : List Expr)
    (visit : ∀ e ∈ es, T.Visit e) : T.Pass (visitExprs σ es) (visitExprs σ' es) := by
  induction es with
  | nil => exact .pure trivial
  | cons e rest ih =>
    rw [List.forall_mem_cons] at visit
    exact (visit.1 paired).seq (ih visit.2)

theorem visitBindings_lockstep (proper : T.Proper) (paired : T.Open σ σ') (vars : List VarDef)
    (visit : ∀ e ∈ vars.map (·.value), T.Visit e) :
    T.Pass (visitBindings σ vars) (visitBindings σ' vars) := by
  induction vars with
  | nil => exact .pure trivial
  | cons v rest ih =>
    obtain ⟨node, name, ty, e⟩ := v
    rw [List.map_cons, List.forall_mem_cons] at visit
    exact (declareVar_lockstep proper paired name ty node).seq
      ((visit.1 (paired.paired proper)).seq (ih visit.2))

theorem visitHeads_lockstep (proper : T.Proper) (paired : T.Open σ σ') (heads : List ForHead)
    (visit : ∀ e ∈ heads.map (·.expr), T.Visit e) :
    T.Pass (visitHeads σ heads) (visitHeads σ' heads) := by
  induction heads with
  | nil => exact .pure trivial
  | cons head rest ih =>
    rw [List.map_cons, List.forall_mem_cons] at visit
    have value := visit.1 (paired.paired proper)
    have rest := ih visit.2
    cases head with
    | generator node name ty source =>
      exact value.seq ((declareVar_lockstep proper paired name ty node).seq rest)
    | definition node name ty e =>
      exact (declareVar_lockstep proper paired name ty node).seq (value.seq rest)
    | condition e => exact value.seq rest

theorem visitLines_lockstep (proper : T.Proper) (paired : T.pairing.scope σ σ')
    (lines : List MatchLine) (visit : ∀ e ∈ lines.flatMap (·.exprs), T.Visit e) :
    T.Pass (visitLines σ lines) (visitLines σ' lines) := by
  induction lines with
  | nil => exact .pure trivial
  | cons line rest ih =>
    obtain ⟨node, pattern, guard, result⟩ := line
    rw [List.flatMap_cons, List.forall_mem_append] at visit
    obtain ⟨here, rest⟩ := visit
    have parts : ∀ es : List Expr, es ⊆ pattern.expressions ++ guard.toList ++ [result] →
        ∀ e ∈ es, T.Visit e := fun es sub e mem => here e (sub mem)
    simp only [visitLines, visitPattern_eq, visitOption_eq]
    refine (blockScope_lockstep proper node.id paired false).bind fun inner inner' created => ?_
    have inside : T.pairing.scope inner inner' := .inr created
    exact (recordPosition_lockstep node).seq <| (enter_lockstep pattern.node σ σ').seq <|
      (visitExprs_lockstep paired _ (parts _ (by simp))).seq <|
      (declareCaptures_lockstep proper (.inr created) pattern.captures).seq <|
      (visitExprs_lockstep inside _ (parts _ (by simp))).seq <|
      (here result (by simp [MatchLine.exprs]) inside).seq (ih rest)

/-- **Two runs visit an expression in lockstep.** -/
theorem visitExpr_lockstep (proper : T.Proper) (e : Expr) : T.Visit e := by
  induction e using Expr.children_induction with
  | step e ih =>
    intro σ σ' paired
    have enters := enter_lockstep (T := T) e.node σ σ'
    cases hf : e.isFlat with
    | true =>
      rw [(visitExpr_flat σ hf).1, (visitExpr_flat σ' hf).1]
      exact enters.seq (visitExprs_lockstep paired e.children ih)
    | false =>
      cases e with
      | reference node r => exact enters.seq (await_lockstep node r paired)
      | function node params returns body =>
        simp only [visitExpr, visitDefaults_eq]
        rw [Expr.children, List.forall_mem_append] at ih
        refine enters.seq ((visitExprs_lockstep paired _ ih.1).seq ?_)
        refine (createScope_lockstep proper node.id (.function node.id) paired false).bind
          fun inner inner' created => ?_
        exact (declareParams_lockstep proper (.inr created) params).seq
          (ih.2 body (List.mem_singleton_self body) (.inr created))
      | letIn node bindings body =>
        rw [Expr.children, List.forall_mem_append] at ih
        refine enters.seq ((blockScope_lockstep proper node.id paired true).bind
          fun inner inner' created => ?_)
        exact (visitBindings_lockstep proper (.inr created) bindings ih.1).seq
          (ih.2 body (List.mem_singleton_self body) (.inr created))
      | matchOn node subject lines =>
        rw [Expr.children, List.forall_mem_cons] at ih
        exact enters.seq ((ih.1 paired).seq (visitLines_lockstep proper paired lines ih.2))
      | forEach node heads body =>
        rw [Expr.children, List.forall_mem_append] at ih
        refine enters.seq ((blockScope_lockstep proper node.id paired true).bind
          fun inner inner' created => ?_)
        exact (visitHeads_lockstep proper (.inr created) heads ih.1).seq
          (ih.2 body (List.mem_singleton_self body) (.inr created))
      | tryCatch node body clause error trace handler =>
        rw [Expr.children, List.forall_mem_cons, List.forall_mem_singleton] at ih
        refine enters.seq ((ih.1 paired).seq ?_)
        refine (blockScope_lockstep proper clause.id paired false).bind
          fun inner inner' created => ?_
        exact (recordPosition_lockstep clause).seq <|
          (declareCaptures_lockstep proper (.inr created) _).seq (ih.2 (.inr created))
      | _ => cases hf

/-! ## Units -/

theorem visitValues_lockstep (proper : T.Proper) (paired : T.pairing.scope σ σ') :
    ∀ vars : List VarDef, T.Pass (visitValues σ vars) (visitValues σ' vars)
  | [] => .pure trivial
  | v :: rest => (visitExpr_lockstep proper v.value paired).seq
      (visitValues_lockstep proper paired rest)

theorem visitVars_lockstep (proper : T.Proper) (paired : T.Open σ σ') (vars : List VarDef) :
    T.Pass (visitVars σ vars) (visitVars σ' vars) :=
  (declareVars_lockstep proper paired vars).seq
    (visitValues_lockstep proper (paired.paired proper) vars)

theorem declareMembers_lockstep (proper : T.Proper) (paired : T.Open σ σ') (source : String) :
    ∀ ms : List ImportMember, T.Pass (declareMembers σ source ms) (declareMembers σ' source ms)
  | [] => .pure trivial
  | m :: rest => by
    refine Lockstep.seq (declare_lockstep proper paired ⟨rfl, ?_, rfl, rfl, rfl, rfl⟩)
      (declareMembers_lockstep proper paired source rest)
    cases m.kind with
    | name exported => exact .nameImport source exported
    | module => exact .moduleImport source

theorem declareImports_lockstep (proper : T.Proper) (paired : T.Open σ σ') :
    ∀ is : List Import, T.Pass (declareImports σ is) (declareImports σ' is)
  | [] => .pure trivial
  | i :: rest => (declareMembers_lockstep proper paired i.source i.members).seq
      (declareImports_lockstep proper paired rest)

theorem declareAliases_lockstep (proper : T.Proper) (paired : T.Open σ σ') :
    ∀ rs : List Renaming, T.Pass (declareAliases σ rs) (declareAliases σ' rs)
  | [] => .pure trivial
  | r :: rest => by
    refine Lockstep.seq (declare_lockstep proper paired ⟨rfl, ?_, rfl, rfl, rfl, rfl⟩)
      (declareAliases_lockstep proper paired rest)
    exact .alias r.target (paired.paired proper)

theorem declareExports_lockstep (proper : T.Proper) (paired : T.pairing.scope σ σ')
    (shown : T.Open τ τ') : ∀ rs : List Renaming,
      T.Pass (declareExports σ τ rs) (declareExports σ' τ' rs)
  | [] => .pure trivial
  | r :: rest => by
    refine Lockstep.seq (declare_lockstep proper shown ⟨rfl, ?_, rfl, rfl, rfl, rfl⟩)
      (declareExports_lockstep proper paired shown rest)
    exact .export r.target paired

theorem visitLibraries_lockstep (proper : T.Proper) (paired : T.Open σ σ') (shown : T.Open τ τ') :
    ∀ ls : List Library, T.Pass (visitLibraries σ τ ls) (visitLibraries σ' τ' ls)
  | [] => .pure trivial
  | l :: rest => by
    have others := visitLibraries_lockstep proper paired shown rest
    refine (declare_lockstep proper paired ⟨rfl, .direct, rfl, rfl, rfl, rfl⟩).bind
      fun symbol? symbol?' declared => ?_
    cases declared with
    | none => exact others
    | @some symbol symbol' new =>
      refine (memberScope_lockstep proper l.node.id new (paired.paired proper)).bind
        fun members members' created => ?_
      have visit := (visitVars_lockstep proper (.inr created) l.vars).seq others
      cases l.exported with
      | false => exact visit
      | true => exact (publish_lockstep proper l.name shown (.inr new)).seq visit

theorem visitSections_lockstep (proper : T.Proper) (paired : T.Open σ σ')
    (units : T.pairing.scope Analysis.unitsScope Analysis.unitsScope) :
    ∀ ss : List Section, T.Pass (visitSections σ ss) (visitSections σ' ss)
  | [] => .pure trivial
  | s :: rest => by
    have others := visitSections_lockstep proper paired units rest
    refine (declare_lockstep proper paired ⟨rfl, .direct, rfl, rfl, rfl, rfl⟩).bind
      fun symbol? symbol?' declared => ?_
    cases declared with
    | none => exact others
    | @some symbol symbol' new =>
      exact (memberScope_lockstep proper s.node.id new units).bind
        fun members members' created => (visitVars_lockstep proper (.inr created) s.vars).seq others

end TwinRuns

end CellScript
