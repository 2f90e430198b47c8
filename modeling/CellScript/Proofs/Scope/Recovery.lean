import CellScript.Proofs.Scope.Annotated
import CellScript.Scope.Analyze

/-!
# Analysis with and without recovery

With recovery every pass comes to an end and adds the faults it has found. Without recovery the same
pass, from the same state, ends with the first of them, and if there is none it ends in the same
way. That carries over from one step of a pass to sequences of steps, and from the passes to the
analysis as a whole.

* `strictly` — how a pass ends without recovery
* `Build.Mends` — the two modes of a step of the first pass
* `Analysis.Mends` — the two modes of a later pass
* `analyze_recovery` — the two modes of analysis
-/

namespace CellScript

/-- How a pass that finds these faults ends without recovery: with the first of them, or, if there
is none, with its result. -/
def strictly {α : Type} (faults : List Fault) (result : α) : Except Fault α :=
  match faults with
  | [] => .ok result
  | fault :: _ => .error fault

/-- Faults that are found later count only if there were none before. -/
theorem strictly_append {α β : Type} (first more : List Fault) (v : α) (w : β) :
    (strictly first v).bind (fun _ => strictly more w) = strictly (first ++ more) w := by
  cases first <;> rfl

variable {α β : Type}

/-! ## The first pass -/

/-- The state with the mode set. -/
def Building.inMode (b : Building) (recovery : Bool) : Building := { b with recovery := recovery }

namespace Build

/-- From this state the step comes to an end with recovery, and without recovery it ends as the
faults that it adds demand. -/
def MendsAt (x : Build α) (b : Building) : Prop :=
  ∃ (v : α) (b' : Building) (new : List Fault), x (b.inMode true) = .ok (v, b'.inMode true) ∧
    b'.analysis.faults = b.analysis.faults ++ new ∧
    x (b.inMode false) = strictly new (v, b'.inMode false)

/-- The two modes of the step agree up to the first fault, wherever it begins. -/
def Mends (x : Build α) : Prop := ∀ b, MendsAt x b

theorem Mends.pure (v : α) : Mends (Pure.pure v) :=
  fun b => ⟨v, b, [], rfl, (List.append_nil _).symm, rfl⟩

theorem MendsAt.bind {x : Build α} {f : α → Build β} {b : Building} (h : MendsAt x b)
    (rest : ∀ v, Mends (f v)) : MendsAt (x >>= f) b := by
  obtain ⟨v, b₁, first, ok, faults, strict⟩ := h
  obtain ⟨w, b₂, more, ok', faults', strict'⟩ := rest v b₁
  have run : ∀ s, (x >>= f) s = (x s).bind fun p => f p.1 p.2 := fun _ => rfl
  refine ⟨w, b₂, first ++ more, ?_, ?_, ?_⟩
  · rw [run, ok]
    exact ok'
  · rw [faults', faults, List.append_assoc]
  · rw [run, strict, ← strictly_append first more (v, b₁.inMode false), ← strict']
    cases first <;> rfl

theorem Mends.bind {x : Build α} {f : α → Build β} (h : Mends x) (rest : ∀ v, Mends (f v)) :
    Mends (x >>= f) := fun b => (h b).bind rest

/-- What follows may depend on the state, but not on its mode. -/
theorem Mends.get {f : Building → Build β}
    (blind : ∀ b : Building, f (b.inMode true) = f (b.inMode false)) (h : ∀ b, Mends (f b)) :
    Mends (MonadState.get >>= f) := by
  intro b
  have same : ∀ r, (MonadState.get >>= f) (b.inMode r) = f (b.inMode true) (b.inMode r) := by
    intro r
    change f (b.inMode r) (b.inMode r) = _
    cases r
    · rw [← blind]
    · rfl
  obtain ⟨v, b', new, ok, faults, strict⟩ := h (b.inMode true) b
  exact ⟨v, b', new, (same true).trans ok, faults, (same false).trans strict⟩

theorem report_mends (fault : Fault) : Mends (report fault) := fun b =>
  ⟨⟨⟩, { b with analysis := { b.analysis with faults := b.analysis.faults ++ [fault] } }, [fault],
    rfl, rfl, rfl⟩

/-- A change of the state that leaves the faults alone. -/
theorem modify_mends {f : Building → Building} (blind : ∀ b r, f (b.inMode r) = (f b).inMode r)
    (faults : ∀ b, (f b).analysis.faults = b.analysis.faults) :
    Mends (modify f : Build PUnit) := by
  intro b
  have run : ∀ r, (modify f : Build PUnit) (b.inMode r) = .ok (⟨⟩, (f b).inMode r) :=
    fun r => congrArg (fun s => Except.ok (PUnit.unit, s)) (blind b r)
  exact ⟨⟨⟩, f b, [], run true, by rw [faults, List.append_nil], run false⟩

theorem modifyAnalysis_mends {f : Analysis → Analysis}
    (faults : ∀ a, (f a).faults = a.faults := by intro _; rfl) :
    Mends (modifyAnalysis f) := modify_mends (fun _ _ => rfl) fun _ => faults _

/-! ## Its steps -/

theorem recordPosition_mends (node : Node) : Mends (recordPosition node) := by
  unfold recordPosition
  split
  · exact modifyAnalysis_mends
  · exact .pure _

theorem enter_mends (node : Node) (scope : ScopeId) : Mends (enter node scope) :=
  Mends.bind modifyAnalysis_mends fun _ => recordPosition_mends node

theorem await_mends (node : Node) (scope : ScopeId) (r : Reference) : Mends (await node scope r) :=
  modify_mends (fun _ _ => rfl) fun _ => rfl

theorem declare_mends (scope : ScopeId) (d : Declaration) : Mends (declare scope d) := by
  refine .get (fun _ => rfl) fun b => ?_
  dsimp only
  split
  · exact .bind modifyAnalysis_mends fun _ =>
      (recordPosition_mends _).bind fun _ => .pure _
  · exact (report_mends _).bind fun _ => .pure _

/-- A declaration whose symbol is not asked for. -/
theorem declare_then {scope : ScopeId} {d : Declaration} {x : Build β} (h : Mends x) :
    Mends (declare scope d >>= fun _ => x) := (declare_mends scope d).bind fun _ => h

theorem createScope_mends (node : NodeId) (kind : ScopeKind) (enclosing : ScopeId)
    (ordered : Bool) :
    Mends (createScope node kind enclosing ordered) :=
  .get (fun _ => rfl) fun _ => Mends.bind modifyAnalysis_mends fun _ => .pure _

theorem memberScope_mends (owner : SymbolId) (enclosing : ScopeId) (node : NodeId) :
    Mends (memberScope owner enclosing node) :=
  (createScope_mends _ _ _ _).bind fun _ => Mends.bind modifyAnalysis_mends fun _ => .pure _

theorem declareCaptures_mends (scope : ScopeId) :
    ∀ cs : List Capture, Mends (declareCaptures scope cs)
  | [] => .pure _
  | _ :: rest => declare_then (declareCaptures_mends scope rest)

theorem declareParams_mends (scope : ScopeId) : ∀ ps : List Param, Mends (declareParams scope ps)
  | [] => .pure _
  | _ :: rest => declare_then (declareParams_mends scope rest)

/-! ## Expressions -/

mutual

theorem visitExpr_mends (scope : ScopeId) : ∀ e : Expr, Mends (visitExpr scope e)
  | .constant node _ => enter_mends node scope
  | .reference node r => (enter_mends node scope).bind fun _ => await_mends node scope r
  | .list node items => (enter_mends node scope).bind fun _ => visitItems_mends scope items
  | .dict node entries => (enter_mends node scope).bind fun _ => visitEntries_mends scope entries
  | .function node params _ body =>
    (enter_mends node scope).bind fun _ => (visitDefaults_mends scope params).bind fun _ =>
      (createScope_mends _ _ _ _).bind fun inner => (declareParams_mends inner params).bind fun _ =>
        visitExpr_mends inner body
  | .call node callee args =>
    (enter_mends node scope).bind fun _ => (visitExpr_mends scope callee).bind fun _ =>
      visitArguments_mends scope args
  | .curry node callee args =>
    (enter_mends node scope).bind fun _ => (visitExpr_mends scope callee).bind fun _ =>
      visitNamed_mends scope args
  | .letIn node bindings body =>
    (enter_mends node scope).bind fun _ => (createScope_mends _ _ _ _).bind fun inner =>
      (visitBindings_mends inner bindings).bind fun _ => visitExpr_mends inner body
  | .ifElse node c t e =>
    (enter_mends node scope).bind fun _ => (visitExpr_mends scope c).bind fun _ =>
      (visitExpr_mends scope t).bind fun _ => visitExpr_mends scope e
  | .matchOn node subject lines =>
    (enter_mends node scope).bind fun _ => (visitExpr_mends scope subject).bind fun _ =>
      visitLines_mends scope lines
  | .forEach node heads body =>
    (enter_mends node scope).bind fun _ => (createScope_mends _ _ _ _).bind fun inner =>
      (visitHeads_mends inner heads).bind fun _ => visitExpr_mends inner body
  | .binary node _ l r =>
    (enter_mends node scope).bind fun _ => (visitExpr_mends scope l).bind fun _ =>
      visitExpr_mends scope r
  | .unary node _ e => (enter_mends node scope).bind fun _ => visitExpr_mends scope e
  | .cast node e _ => (enter_mends node scope).bind fun _ => visitExpr_mends scope e
  | .isOf node e _ => (enter_mends node scope).bind fun _ => visitExpr_mends scope e
  | .access node c keys =>
    (enter_mends node scope).bind fun _ => (visitExpr_mends scope c).bind fun _ =>
      visitExprs_mends scope keys
  | .tryCatch node body clause _ _ handler =>
    (enter_mends node scope).bind fun _ => (visitExpr_mends scope body).bind fun _ =>
      (createScope_mends _ _ _ _).bind fun inner => (recordPosition_mends clause).bind fun _ =>
        (declareCaptures_mends inner _).bind fun _ => visitExpr_mends inner handler
  | .throw node e => (enter_mends node scope).bind fun _ => visitExpr_mends scope e

theorem visitExprs_mends (scope : ScopeId) : ∀ es : List Expr, Mends (visitExprs scope es)
  | [] => .pure _
  | e :: rest => (visitExpr_mends scope e).bind fun _ => visitExprs_mends scope rest

theorem visitOption_mends (scope : ScopeId) : ∀ e : Option Expr, Mends (visitOption scope e)
  | none => .pure _
  | some e => visitExpr_mends scope e

theorem visitItems_mends (scope : ScopeId) : ∀ items : List ListItem, Mends (visitItems scope items)
  | [] => .pure _
  | .value e :: rest => (visitExpr_mends scope e).bind fun _ => visitItems_mends scope rest
  | .splat e :: rest => (visitExpr_mends scope e).bind fun _ => visitItems_mends scope rest

theorem visitEntries_mends (scope : ScopeId) :
    ∀ entries : List DictEntry, Mends (visitEntries scope entries)
  | [] => .pure _
  | .pair k v :: rest =>
    (visitExpr_mends scope k).bind fun _ => (visitExpr_mends scope v).bind fun _ =>
      visitEntries_mends scope rest
  | .splat e :: rest => (visitExpr_mends scope e).bind fun _ => visitEntries_mends scope rest

theorem visitDefaults_mends (scope : ScopeId) :
    ∀ params : List Param, Mends (visitDefaults scope params)
  | [] => .pure _
  | ⟨_, _, _, default⟩ :: rest =>
    (visitOption_mends scope default).bind fun _ => visitDefaults_mends scope rest

theorem visitArguments_mends (scope : ScopeId) :
    ∀ args : List Argument, Mends (visitArguments scope args)
  | [] => .pure _
  | .positional e :: rest => (visitExpr_mends scope e).bind fun _ => visitArguments_mends scope rest
  | .named _ e :: rest => (visitExpr_mends scope e).bind fun _ => visitArguments_mends scope rest
  | .splat e :: rest => (visitExpr_mends scope e).bind fun _ => visitArguments_mends scope rest

theorem visitNamed_mends (scope : ScopeId) : ∀ args : List NamedExpr, Mends (visitNamed scope args)
  | [] => .pure _
  | ⟨_, e⟩ :: rest => (visitExpr_mends scope e).bind fun _ => visitNamed_mends scope rest

theorem visitBindings_mends (scope : ScopeId) :
    ∀ bindings : List VarDef, Mends (visitBindings scope bindings)
  | [] => .pure _
  | ⟨_, _, _, e⟩ :: rest =>
    declare_then ((visitExpr_mends scope e).bind fun _ => visitBindings_mends scope rest)

theorem visitLines_mends (scope : ScopeId) :
    ∀ lines : List MatchLine, Mends (visitLines scope lines)
  | [] => .pure _
  | ⟨_, pattern, guard, result⟩ :: rest =>
    (createScope_mends _ _ _ _).bind fun inner => (recordPosition_mends _).bind fun _ =>
      (enter_mends pattern.node scope).bind fun _ =>
        (visitPattern_mends scope pattern).bind fun _ =>
        (declareCaptures_mends inner _).bind fun _ => (visitOption_mends inner guard).bind fun _ =>
          (visitExpr_mends inner result).bind fun _ => visitLines_mends scope rest

theorem visitHeads_mends (scope : ScopeId) : ∀ heads : List ForHead, Mends (visitHeads scope heads)
  | [] => .pure _
  | .generator _ _ _ source :: rest =>
    (visitExpr_mends scope source).bind fun _ => declare_then (visitHeads_mends scope rest)
  | .definition _ _ _ e :: rest =>
    declare_then ((visitExpr_mends scope e).bind fun _ => visitHeads_mends scope rest)
  | .condition e :: rest => (visitExpr_mends scope e).bind fun _ => visitHeads_mends scope rest

theorem visitPattern_mends (scope : ScopeId) : ∀ p : Pattern, Mends (visitPattern scope p)
  | ⟨_, shape, _⟩ => visitShape_mends scope shape

theorem visitShape_mends (scope : ScopeId) : ∀ shape : PatternShape, Mends (visitShape scope shape)
  | .expr e => visitExpr_mends scope e
  | .wildcard | .default | .ofType _ => .pure _
  | .list items => visitPatterns_mends scope items
  | .headTail head _ => visitPatterns_mends scope head
  | .initLast _ last => visitPatterns_mends scope last
  | .middle head _ last =>
    (visitPatterns_mends scope head).bind fun _ => visitPatterns_mends scope last
  | .dict entries => visitKeyPatterns_mends scope entries
  | .openDict entries _ => visitKeyPatterns_mends scope entries

theorem visitPatterns_mends (scope : ScopeId) :
    ∀ ps : List Pattern, Mends (visitPatterns scope ps)
  | [] => .pure _
  | p :: rest => (visitPattern_mends scope p).bind fun _ => visitPatterns_mends scope rest

theorem visitKeyPatterns_mends (scope : ScopeId) :
    ∀ entries : List KeyPattern, Mends (visitKeyPatterns scope entries)
  | [] => .pure _
  | ⟨_, p⟩ :: rest => (visitPattern_mends scope p).bind fun _ => visitKeyPatterns_mends scope rest

end

/-! ## Units -/

theorem declareVars_mends (scope : ScopeId) : ∀ vars : List VarDef, Mends (declareVars scope vars)
  | [] => .pure _
  | _ :: rest => declare_then (declareVars_mends scope rest)

theorem visitValues_mends (scope : ScopeId) : ∀ vars : List VarDef, Mends (visitValues scope vars)
  | [] => .pure _
  | v :: rest => (visitExpr_mends scope v.value).bind fun _ => visitValues_mends scope rest

theorem visitVars_mends (scope : ScopeId) (vars : List VarDef) : Mends (visitVars scope vars) :=
  (declareVars_mends scope vars).bind fun _ => visitValues_mends scope vars

theorem declareUnit_mends (u : SourceUnit) : Mends (declareUnit u) := by
  refine (declare_mends _ _).bind fun symbol => ?_
  cases symbol with
  | none => exact .pure _
  | some symbol =>
    refine .bind modifyAnalysis_mends fun _ => (memberScope_mends _ _ _).bind fun _ => ?_
    split
    · exact .pure _
    · refine .bind modifyAnalysis_mends fun _ => ?_
      split
      · exact .pure _
      · exact declare_then (.pure _)

theorem declareMembers_mends (scope : ScopeId) (source : String) :
    ∀ ms : List ImportMember, Mends (declareMembers scope source ms)
  | [] => .pure _
  | _ :: rest => declare_then (declareMembers_mends scope source rest)

theorem declareImports_mends (scope : ScopeId) :
    ∀ is : List Import, Mends (declareImports scope is)
  | [] => .pure _
  | _ :: rest => (declareMembers_mends scope _ _).bind fun _ => declareImports_mends scope rest

theorem declareAliases_mends (scope : ScopeId) :
    ∀ rs : List Renaming, Mends (declareAliases scope rs)
  | [] => .pure _
  | _ :: rest => declare_then (declareAliases_mends scope rest)

theorem declareExports_mends (scope exports : ScopeId) :
    ∀ rs : List Renaming, Mends (declareExports scope exports rs)
  | [] => .pure _
  | _ :: rest => declare_then (declareExports_mends scope exports rest)

theorem publish_mends (exports : ScopeId) (name : String) (symbol : SymbolId) :
    Mends (publish exports name symbol) := by
  refine .get (fun _ => rfl) fun b => ?_
  split
  · exact modifyAnalysis_mends
  · exact report_mends _

theorem visitLibraries_mends (scope exports : ScopeId) :
    ∀ ls : List Library, Mends (visitLibraries scope exports ls)
  | [] => .pure _
  | l :: rest => by
    refine (declare_mends _ _).bind fun symbol => ?_
    cases symbol with
    | none => exact visitLibraries_mends scope exports rest
    | some symbol =>
      refine (memberScope_mends _ _ _).bind fun members => ?_
      have visited := (visitVars_mends members l.vars).bind fun _ =>
        visitLibraries_mends scope exports rest
      split
      · exact (publish_mends _ _ _).bind fun _ => visited
      · exact visited

theorem visitModule_mends (m : Module) (symbol : SymbolId) : Mends (visitModule m symbol) := by
  refine .get (fun _ => rfl) fun b => ?_
  dsimp only
  split
  · exact (declareImports_mends _ _).bind fun _ => (declareAliases_mends _ _).bind fun _ =>
      (visitLibraries_mends _ _ _).bind fun _ => declareExports_mends _ _ _
  · exact .pure _

theorem visitSections_mends (scope : ScopeId) : ∀ ss : List Section, Mends (visitSections scope ss)
  | [] => .pure _
  | s :: rest => by
    refine (declare_mends _ _).bind fun symbol => ?_
    cases symbol with
    | none => exact visitSections_mends scope rest
    | some symbol =>
      exact (memberScope_mends _ _ _).bind fun members =>
        (visitVars_mends members s.vars).bind fun _ =>
        visitSections_mends scope rest

theorem visitInteractive_mends (sections : List Section) (symbol : SymbolId) :
    Mends (visitInteractive sections symbol) := by
  refine .get (fun _ => rfl) fun b => ?_
  split
  · exact visitSections_mends _ sections
  · exact .pure _

theorem declareUnits_mends : ∀ units : List SourceUnit, Mends (declareUnits units)
  | [] => .pure _
  | u :: rest => by
    refine (declareUnit_mends u).bind fun symbol => ?_
    cases symbol with
    | none => exact declareUnits_mends rest
    | some symbol => exact (declareUnits_mends rest).bind fun _ => .pure _

theorem visitUnits_mends : ∀ units : List (SourceUnit × SymbolId), Mends (visitUnits units)
  | [] => .pure _
  | (u, symbol) :: rest => by
    have rest := visitUnits_mends rest
    unfold visitUnits
    dsimp only
    split
    · exact (visitModule_mends _ _).bind fun _ => rest
    · exact (visitInteractive_mends _ _).bind fun _ => rest

end Build

/-- The two modes of the first pass. -/
theorem buildScopes_recovery (units : UnitSet) : ∃ built pending,
    buildScopes true units = .ok (built, pending) ∧
      buildScopes false units = strictly built.faults (built, pending) := by
  let pass : Build PUnit := Build.declareUnits units >>= Build.visitUnits
  have mends : Build.Mends pass := (Build.declareUnits_mends units).bind Build.visitUnits_mends
  obtain ⟨_, b, new, ok, faults, strict⟩ := mends ⟨.initial, [], true⟩
  have run : ∀ r, buildScopes r units = (pass ⟨.initial, [], r⟩).bind fun p => .ok
      ({ p.2.analysis with positions := p.2.analysis.positions.reverse }, p.2.pending.reverse) :=
    fun _ => rfl
  refine ⟨_, _, by rw [run]; exact congrArg (Except.bind · _) ok, ?_⟩
  change _ = strictly b.analysis.faults _
  rw [run, show b.analysis.faults = new from faults]
  refine (congrArg (Except.bind · _) strict).trans ?_
  cases new <;> rfl

/-! ## The later passes -/

/-- The pass comes to an end with recovery, adding faults to those of the analysis it began with,
and without recovery it ends as they demand. -/
def Analysis.Mends (a : Analysis) (pass : Bool → Except Fault Analysis) : Prop :=
  ∃ a' new, pass true = .ok a' ∧ a'.faults = a.faults ++ new ∧ pass false = strictly new a'

theorem Arena.linkAll_recovery (units : Entries SymbolId) (ids : List SymbolId) (a : Arena) :
    ∃ faults a', linkAll true units ids a = .ok (faults, a') ∧
      linkAll false units ids a = strictly faults ([], a') := by
  induction ids generalizing a with
  | nil => exact ⟨[], a, rfl, rfl⟩
  | cons id rest ih =>
    unfold linkAll
    obtain ⟨outcome, after⟩ := a.link units id
    obtain ⟨faults, a', ok, strict⟩ := ih after
    cases outcome with
    | ok _ => exact ⟨faults, a', ok, strict⟩
    | error fault =>
      refine ⟨fault :: faults, a', ?_, rfl⟩
      simp only [if_true, ok]
      rfl

namespace Analysis

theorem placeSection_faults {a a' : Analysis} {id : SymbolId} (h : a.placeSection id = .ok a') :
    a'.faults = a.faults := by
  unfold placeSection at h
  dsimp only at h
  split at h
  · cases h
    rfl
  · cases h

theorem placeSections_recovery (ids : List SymbolId) (a : Analysis) :
    ∃ faults a', placeSections true ids a = .ok (faults, a') ∧ a'.faults = a.faults ∧
      placeSections false ids a = strictly faults ([], a') := by
  induction ids generalizing a with
  | nil => exact ⟨[], a, rfl, rfl, rfl⟩
  | cons id rest ih =>
    unfold placeSections
    cases h : a.placeSection id with
    | ok a₁ =>
      obtain ⟨faults, a', ok, same, strict⟩ := ih a₁
      exact ⟨faults, a', ok, same.trans (placeSection_faults h), strict⟩
    | error fault =>
      obtain ⟨faults, a', ok, same, -⟩ := ih a
      refine ⟨fault :: faults, a', ?_, same, rfl⟩
      simp only [if_true, ok]
      rfl

theorem linkUnits_mends (a : Analysis) : a.Mends a.linkUnits := by
  obtain ⟨linkFaults, arena, ok, strict⟩ := Arena.linkAll_recovery a.units a.linkOrder a.arena
  obtain ⟨sectionFaults, a', ok', same, strict'⟩ := placeSections_recovery
    (Analysis.sectionSymbols { a with arena := arena }) { a with arena := arena }
  refine ⟨{ a' with faults := a'.faults ++ linkFaults ++ sectionFaults }, linkFaults ++
    sectionFaults, ?_, ?_, ?_⟩
  · simp only [linkUnits, bind, Except.bind, ok, ok', pure, Except.pure]
  · change a'.faults ++ linkFaults ++ sectionFaults = _
    rw [same, List.append_assoc]
  · cases linkFaults with
    | cons fault _ => simp only [linkUnits, bind, Except.bind, strict, strictly, List.cons_append]
    | nil =>
      simp only [linkUnits, bind, Except.bind, strict, strict', strictly, List.nil_append]
      cases sectionFaults with
      | cons fault _ => rfl
      | nil => simp only [pure, Except.pure, List.append_nil]

theorem resolveAll_mends (pending : List PendingReference) (a : Analysis) :
    a.Mends fun r => resolveAll r pending a := by
  induction pending generalizing a with
  | nil => exact ⟨a, [], rfl, (List.append_nil _).symm, rfl⟩
  | cons p rest ih =>
    simp only [resolveAll]
    cases h : a.arena.resolve p with
    | ok r => exact ih { a with references := a.references.insert p.node.id (.ok r) }
    | error fault =>
      obtain ⟨a', new, ok, faults, -⟩ := ih { a with
        references := a.references.insert p.node.id (.error fault)
        faults := a.faults ++ [fault] }
      exact ⟨a', fault :: new, ok, faults.trans (List.append_assoc ..), rfl⟩

end Analysis

/-! ## The analysis as a whole -/

/-- Without recovery analysis ends as the faults demand that are found with recovery. -/
theorem analyze_strictly (units : UnitSet) :
    ∃ a, analyze true units = .ok a ∧ analyze false units = strictly a.faults a := by
  obtain ⟨built, pending, ok₁, strict₁⟩ := buildScopes_recovery units
  obtain ⟨linked, new₂, ok₂, faults₂, strict₂⟩ := built.linkUnits_mends
  obtain ⟨resolved, new₃, ok₃, faults₃, strict₃⟩ := Analysis.resolveAll_mends pending linked
  have all : (resolved.captureAll units).faults = built.faults ++ (new₂ ++ new₃) := by
    rw [(resolved.captureAll_annotated units).faults, faults₃, faults₂, List.append_assoc]
  refine ⟨resolved.captureAll units, ?_, ?_⟩
  · simp only [analyze, bind, Except.bind, ok₁, ok₂, ok₃, pure, Except.pure]
  · rw [all]
    -- The first pass that finds a fault settles the outcome.
    cases hb : built.faults with
    | cons fault _ => simp only [analyze, bind, Except.bind, strict₁, hb, strictly,
        List.cons_append]
    | nil =>
      rw [hb] at strict₁
      cases new₂ with
      | cons fault _ =>
        simp only [analyze, bind, Except.bind, strict₁, strict₂, strictly, List.nil_append,
          List.cons_append]
      | nil =>
        simp only [analyze, bind, Except.bind, strict₁, strict₂, strict₃, strictly, List.nil_append]
        cases new₃ <;> rfl

/-- **Analysis with and without recovery agree.** With recovery analysis always comes to an end.
Without recovery it succeeds exactly if that has found no faults, with the same result, and
otherwise it ends with the first of them. -/
theorem analyze_recovery (units : UnitSet) : ∃ a, analyze true units = .ok a ∧
    (∀ a', analyze false units = .ok a' ↔ a.faults = [] ∧ a' = a) ∧
    ∀ fault, analyze false units = .error fault ↔ a.faults.head? = some fault := by
  obtain ⟨a, ok, strict⟩ := analyze_strictly units
  refine ⟨a, ok, fun a' => ?_, fun fault => ?_⟩
  · rw [strict]
    cases a.faults with
    | nil => simp [strictly, eq_comm]
    | cons first rest => simp [strictly]
  · rw [strict]
    cases a.faults with
    | nil => simp [strictly]
    | cons first rest => simp [strictly]

end CellScript
