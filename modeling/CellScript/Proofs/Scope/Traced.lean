import CellScript.Proofs.Scope.Captures
import CellScript.Proofs.Scope.Owners
import CellScript.Proofs.Syntax.Uses

/-!
# Where references wait

Every reference that the first pass leaves waiting is a use in the program, and it waits in a scope
that lies in the bodies of the same functions, each of which has created its scope. Libraries and
sections whose name is taken are passed over with all that is in them, so that not every use has a
reference that waits.

* `Analysis.Stands` — a scope lies in the bodies of functions
* `Build.Traces` — a step visits uses and leaves nothing else waiting
* `Build.visitExpr_traces`, `Build.visitUnits_traces` — visiting expressions and units
* `buildScopes_stands` — the first pass
-/

namespace CellScript

/-! ## Functions around a scope -/

/-- Scopes of functions and blocks are carried over with what encloses them. -/
theorem Arena.Frames.transfer {a a' : Arena} {σ : ScopeId} {fs : List FunctionFrame}
    (h : a.Frames σ fs)
    (kind : ∀ σ, (a.scope σ).kind ≠ .global → (a'.scope σ).kind = (a.scope σ).kind)
    (enclosing : ∀ σ, (a.scope σ).kind.isDynamic = true →
      (a'.scope σ).enclosing = (a.scope σ).enclosing) : a'.Frames σ fs := by
  induction h with
  | members hk => exact .members ((kind _ (by rw [hk]; exact fun h => by cases h)).trans hk)
  | function hk he _ ih =>
    refine .function ((kind _ ?_).trans hk) ((enclosing _ ?_).trans he) ih
    · rw [hk]
      exact fun h => by cases h
    · rw [hk]
      rfl
  | block hk he _ ih =>
    refine .block ((kind _ ?_).trans hk) ((enclosing _ ?_).trans he) ih
    · rw [hk]
      exact fun h => by cases h
    · rw [hk]
      rfl

/-- The scope lies in the bodies of these functions, innermost first, each with the scope it has
created. -/
def Analysis.Stands (a : Analysis) (σ : ScopeId) (around : List NodeId) : Prop :=
  ∃ fs, a.arena.Frames σ fs ∧ (∀ f ∈ fs, a.createdScopes.get? f.node = some f.scope) ∧
    fs.map (·.node) = around

/-! ## Uses of what is read -/

/-- The uses are told apart by nodes among `ids`; the functions around them are among these as well,
or further out. -/
structure Uses (ids around : List NodeId) (uses : List Use) : Prop where
  node : ∀ u ∈ uses, u.node ∈ ids
  nodup : (uses.map (·.node)).Nodup
  functions : ∀ u ∈ uses, ∀ f ∈ u.functions, f ∈ ids ∨ f ∈ around

namespace Uses

variable {ids few more around : List NodeId} {uses others : List Use}

theorem nil (ids around : List NodeId) : Uses ids around [] :=
  ⟨fun _ h => (by cases h), List.nodup_nil, fun _ h => (by cases h)⟩

theorem mono (h : Uses few around uses) (sub : few ⊆ ids) : Uses ids around uses :=
  ⟨fun u hu => sub (h.node u hu), h.nodup, fun u hu f hf =>
    (h.functions u hu f hf).imp_left (@sub f)⟩

theorem append (h : Uses few around uses) (h' : Uses more around others)
    (apart : few.Disjoint more) :
    Uses (few ++ more) around (uses ++ others) := by
  refine ⟨fun u hu => ?_, ?_, fun u hu f hf => ?_⟩
  · rcases List.mem_append.mp hu with hu | hu
    · exact List.mem_append_left _ (h.node u hu)
    · exact List.mem_append_right _ (h'.node u hu)
  · rw [List.map_append, List.nodup_append']
    refine ⟨h.nodup, h'.nodup, fun n hn hn' => ?_⟩
    obtain ⟨u, hu, rfl⟩ := List.mem_map.mp hn
    obtain ⟨v, hv, same⟩ := List.mem_map.mp hn'
    exact apart (h.node u hu) (same ▸ h'.node v hv)
  · rcases List.mem_append.mp hu with hu | hu
    · exact (h.functions u hu f hf).imp_left (List.mem_append_left _)
    · exact (h'.functions u hu f hf).imp_left (List.mem_append_right _)

end Uses

namespace Build

variable {α β : Type} {ids few more around : List NodeId} {b b' b'' : Building}

/-! ## Steps that leave nothing waiting -/

/-- Scopes stay what they were created as, and so do the entries of all but some nodes. -/
structure Extends (ids : List NodeId) (b b' : Building) : Prop where
  scope : ∀ σ, b.HasScope σ → SameScope (b.arena.scope σ) (b'.arena.scope σ)
  size : b.arena.scopes.size ≤ b'.arena.scopes.size
  created : ∀ n, n ∉ ids → b'.analysis.createdScopes.get? n = b.analysis.createdScopes.get? n

namespace Extends

theorem refl (ids : List NodeId) (b : Building) : Extends ids b b :=
  ⟨fun _ _ => .refl _, Nat.le_refl _, fun _ _ => rfl⟩

/-- Nothing was created. -/
theorem of_same (arena : b'.arena.scopes = b.arena.scopes)
    (created : b'.analysis.createdScopes = b.analysis.createdScopes) : Extends ids b b' := by
  refine ⟨fun σ _ => ?_, Nat.le_of_eq (by rw [arena]), fun n _ => by rw [created]⟩
  rw [Arena.scope, Arena.scope, arena]
  exact .refl _

theorem trans (h : Extends ids b b') (h' : Extends ids b' b'') : Extends ids b b'' :=
  ⟨fun σ hσ => (h.scope σ hσ).trans (h'.scope σ (Nat.lt_of_lt_of_le hσ h.size)),
    Nat.le_trans h.size h'.size, fun n hn => (h'.created n hn).trans (h.created n hn)⟩

theorem mono (h : Extends few b b') (sub : few ⊆ ids) : Extends ids b b' :=
  ⟨h.scope, h.size, fun n hn => h.created n fun mem => hn (sub mem)⟩

theorem stands (h : Extends ids b b') {σ : ScopeId} (stands : b.analysis.Stands σ around)
    (apart : ∀ f ∈ around, f ∉ ids) : b'.analysis.Stands σ around := by
  obtain ⟨fs, frames, created, rfl⟩ := stands
  refine ⟨fs, frames.transfer (fun σ hk => (h.scope σ (Arena.lt_size_of_kind hk)).kind)
    (fun σ hd => (h.scope σ (Arena.lt_size_of_kind ?_)).enclosing), fun f hf => ?_, rfl⟩
  · rintro hk
    rw [hk] at hd
    cases hd
  · rw [h.created _ (apart _ (List.mem_map_of_mem hf))]
    exact created f hf

end Extends

/-- The step leaves nothing waiting, and enters scopes under some nodes only. -/
def Silent (ids : List NodeId) (x : Build α) : Prop :=
  ∀ ⦃b b' : Building⦄ ⦃v : α⦄, x b = .ok (v, b') → Extends ids b b' ∧ b'.pending = b.pending

namespace Silent

theorem pure (v : α) : Silent ids (Pure.pure v) := by
  intro b b' w h
  rw [pure_eq_ok] at h
  obtain ⟨-, rfl⟩ := h
  exact ⟨.refl ids b, rfl⟩

theorem bind {x : Build α} {f : α → Build β} (hx : Silent ids x) (hf : ∀ v, Silent ids (f v)) :
    Silent ids (x >>= f) := by
  intro b b' w h
  rw [bind_eq_ok] at h
  obtain ⟨v, b₁, h₁, h⟩ := h
  exact ⟨(hx h₁).1.trans (hf v h).1, (hf v h).2.trans (hx h₁).2⟩

theorem get : Silent ids (MonadState.get : Build Building) := by
  intro b b' s h
  obtain ⟨-, rfl⟩ := get_eq_ok.mp h
  exact ⟨.refl ids b, rfl⟩

theorem modifyAnalysis {f : Analysis → Analysis}
    (h : ∀ b : Building, Extends ids b (b.mapAnalysis f)) :
    Silent ids (modifyAnalysis f) := by
  intro b b' w hf
  rw [modifyAnalysis_eq_ok] at hf
  exact hf ▸ ⟨h b, rfl⟩

theorem recordPosition (node : Node) : Silent ids (recordPosition node) := by
  unfold Build.recordPosition
  split
  · exact modifyAnalysis fun b => .of_same rfl rfl
  · exact pure _

theorem enter (node : Node) (σ : ScopeId) : Silent ids (enter node σ) :=
  (modifyAnalysis fun _ => .of_same rfl rfl).bind fun _ => recordPosition node

/-- A fault ends the pass, or else it is noted. -/
theorem report (fault : Fault) : Silent ids (report fault) := by
  intro b b' w h
  simp only [Build.report, bind_eq_ok, get_eq_ok] at h
  obtain ⟨_, _, ⟨rfl, rfl⟩, h⟩ := h
  split at h
  · cases h
    exact ⟨.of_same rfl rfl, rfl⟩
  · cases h

theorem extends_modifyScope (σ : ScopeId) (f : Scope → Scope) (same : ∀ s, SameScope s (f s))
    (arena : b'.arena.scopes = (b.arena.modifyScope σ f).scopes)
    (created : b'.analysis.createdScopes = b.analysis.createdScopes) : Extends ids b b' := by
  refine ⟨fun τ _ => ?_, ?_, fun n _ => by rw [created]⟩
  · have : b'.arena.scope τ = (b.arena.modifyScope σ f).scope τ := by
      rw [Arena.scope, Arena.scope, arena]
    rw [this]
    exact sameScope_modifyScope same
  · exact Nat.le_of_eq (by rw [arena, Arena.size_scopes_modifyScope])

theorem declare (σ : ScopeId) (d : Declaration) : Silent ids (declare σ d) := by
  intro b b' w h
  simp only [Build.declare, bind_eq_ok, get_eq_ok] at h
  obtain ⟨_, _, ⟨rfl, rfl⟩, h⟩ := h
  cases hd : b.analysis.arena.declare σ d with
  | error fault =>
    simp only [hd] at h
    exact (report fault).bind (fun _ => pure _) h
  | ok p =>
    obtain ⟨id, arena⟩ := p
    simp only [hd] at h
    rw [Arena.declare_eq_ok_iff] at hd
    obtain ⟨-, rfl, rfl⟩ := hd
    rw [bind_eq_ok] at h
    obtain ⟨u, b₁, h₁, h⟩ := h
    rw [modifyAnalysis_eq_ok] at h₁
    subst h₁
    have noted : Silent ids (Build.recordPosition d.node) := recordPosition d.node
    obtain ⟨rest, pending⟩ := noted.bind (fun _ => pure _) h
    refine ⟨.trans (extends_modifyScope σ (fun s => { s with
      names := s.names.insert d.name b.arena.symbols.size
      slots := s.slots ++ [b.arena.symbols.size] }) (fun _ => ⟨rfl, rfl, rfl⟩) ?_ ?_) rest, pending⟩
    · rfl
    · rfl

theorem publish (exports : ScopeId) (name : String) (symbol : SymbolId) :
    Silent ids (publish exports name symbol) := by
  intro b b' w h
  simp only [Build.publish, bind_eq_ok, get_eq_ok] at h
  obtain ⟨_, _, ⟨rfl, rfl⟩, h⟩ := h
  cases hp : b.analysis.arena.publish exports name symbol with
  | ok arena =>
    simp only [hp, modifyAnalysis_eq_ok] at h
    rw [Arena.publish_eq_ok_iff] at hp
    obtain ⟨-, rfl⟩ := hp
    subst h
    exact ⟨extends_modifyScope exports (fun s => { s with names := s.names.insert name symbol })
      (fun _ => ⟨rfl, rfl, rfl⟩) rfl rfl, rfl⟩
  | error fault =>
    simp only [hp] at h
    exact report fault h

theorem extends_newScope (kind : ScopeKind) (enclosing : Option ScopeId) (ordered : Bool)
    (arena : b'.arena.scopes = (b.arena.newScope kind enclosing ordered).2.scopes)
    (created : ∀ n, n ∉ ids →
      b'.analysis.createdScopes.get? n = b.analysis.createdScopes.get? n) : Extends ids b b' := by
  refine ⟨fun τ hτ => ?_, ?_, created⟩
  · have : b'.arena.scope τ = (b.arena.newScope kind enclosing ordered).2.scope τ := by
      rw [Arena.scope, Arena.scope, arena]
    rw [this]
    exact sameScope_newScope hτ
  · rw [arena, Arena.newScope, Array.size_push]
    exact Nat.le_succ _

theorem createScope {node : NodeId} (mem : node ∈ ids) (kind : ScopeKind) (enclosing : ScopeId)
    (ordered : Bool) : Silent ids (createScope node kind enclosing ordered) := by
  intro b b' σ h
  obtain ⟨-, rfl⟩ := createScope_eq_ok.mp h
  refine ⟨extends_newScope kind (some enclosing) ordered rfl fun n hn => ?_, rfl⟩
  show (Table.insert _ node _).get? n = _
  have other : node ≠ n := fun same => hn (same ▸ mem)
  rw [Table.get?_insert, if_neg other]

theorem memberScope (owner : SymbolId) (enclosing : ScopeId) {node : NodeId} (mem : node ∈ ids) :
    Silent ids (memberScope owner enclosing node) :=
  (createScope mem _ _ _).bind fun _ => (modifyAnalysis fun _ => .of_same rfl rfl).bind
    fun _ => pure _

theorem declareCaptures (σ : ScopeId) (captures : List Capture) :
    Silent ids (declareCaptures σ captures) := by
  induction captures with
  | nil => exact pure _
  | cons c rest ih => exact (declare _ _).bind fun _ => ih

theorem declareParams (σ : ScopeId) (params : List Param) :
    Silent ids (declareParams σ params) := by
  induction params with
  | nil => exact pure _
  | cons p rest ih => exact (declare _ _).bind fun _ => ih

theorem declareVars (σ : ScopeId) (vars : List VarDef) : Silent ids (declareVars σ vars) := by
  induction vars with
  | nil => exact pure _
  | cons v rest ih => exact (declare _ _).bind fun _ => ih

theorem declareMembers (σ : ScopeId) (source : String) (members : List ImportMember) :
    Silent ids (declareMembers σ source members) := by
  induction members with
  | nil => exact pure _
  | cons m rest ih => exact (declare _ _).bind fun _ => ih

theorem declareImports (σ : ScopeId) (imports : List Import) :
    Silent ids (declareImports σ imports) := by
  induction imports with
  | nil => exact pure _
  | cons i rest ih => exact (declareMembers _ _ _).bind fun _ => ih

theorem declareAliases (σ : ScopeId) (aliases : List Renaming) :
    Silent ids (declareAliases σ aliases) := by
  induction aliases with
  | nil => exact pure _
  | cons r rest ih => exact (declare _ _).bind fun _ => ih

theorem declareExports (σ exports : ScopeId) (renamings : List Renaming) :
    Silent ids (declareExports σ exports renamings) := by
  induction renamings with
  | nil => exact pure _
  | cons r rest ih => exact (declare _ _).bind fun _ => ih

theorem declareUnit {u : SourceUnit} (mem : u.node.id ∈ ids) : Silent ids (declareUnit u) := by
  unfold Build.declareUnit
  refine (declare _ _).bind fun declared? => ?_
  split
  · exact pure _
  · refine (modifyAnalysis fun _ => .of_same rfl rfl).bind fun _ =>
      (memberScope _ _ mem).bind fun _ => ?_
    split
    · exact pure _
    · refine (modifyAnalysis fun _ => extends_newScope (.exports _) (some Analysis.unitsScope) false
        rfl fun _ _ => rfl).bind fun _ => ?_
      split
      · exact pure _
      · exact (declare _ _).bind fun _ => pure _

theorem declareUnits (units : List SourceUnit) (sub : units.map (·.node.id) ⊆ ids) :
    Silent ids (declareUnits units) := by
  induction units with
  | nil => exact pure _
  | cons u rest ih =>
    rw [List.map_cons, List.cons_subset] at sub
    refine (declareUnit sub.1).bind fun declared? => ?_
    split
    · exact (ih sub.2).bind fun _ => pure _
    · exact ih sub.2

end Silent

/-! ## Steps that visit uses -/

instance : Nonempty Building := ⟨.start false⟩

/-- The references that came to wait stand where the uses do. -/
def Visited (uses : List Use) (b b' : Building) : Prop :=
  ∀ p ∈ b'.pending, p ∈ b.pending ∨ ∃ u ∈ uses, u.node = p.node.id ∧
    b'.analysis.Stands p.scope u.functions

/-- Inside scopes that lie in the bodies of `around`, the step visits the uses and leaves nothing
else waiting, provided that the nodes it reads are told apart. -/
def Traces (ids : List NodeId) (scopes : List ScopeId) (around : List NodeId) (uses : List Use)
    (x : Build α) : Prop :=
  ids.Nodup → (∀ f ∈ around, f ∉ ids) → Uses ids around uses ∧
    ∀ ⦃b b' : Building⦄ ⦃v : α⦄, (∀ σ ∈ scopes, b.analysis.Stands σ around) → x b = .ok (v, b') →
      Extends ids b b' ∧ Visited uses b b'

namespace Traces

variable {scopes places : List ScopeId} {uses others : List Use}

theorem of_silent {x : Build α} (h : Silent ids x) : Traces ids scopes around [] x :=
  fun _ _ => ⟨.nil ids around, fun _ _ _ _ hx => ⟨(h hx).1, fun _ hp => .inl ((h hx).2 ▸ hp)⟩⟩

/-- More may be read. -/
theorem widen {x : Build α} (h : Traces few scopes around uses x)
    (le : ∀ id, few.count id ≤ ids.count id) : Traces ids scopes around uses x := by
  have sub : few ⊆ ids := fun id hid =>
    List.count_pos_iff.mp (Nat.lt_of_lt_of_le (List.count_pos_iff.mpr hid) (le id))
  intro nodup apart
  obtain ⟨static, run⟩ := h
    (List.nodup_iff_count.mpr fun id => Nat.le_trans (le id) (List.nodup_iff_count.mp nodup id))
    fun f hf mem => apart f hf (sub mem)
  exact ⟨static.mono sub, fun b b' v stands hx => (run stands hx).imp_left (·.mono sub)⟩

/-- A node is read that plays no part. -/
theorem cons {x : Build α} (node : NodeId) (h : Traces ids scopes around uses x) :
    Traces (node :: ids) scopes around uses x :=
  h.widen fun id => by
    rw [List.count_cons]
    omega

/-- One step after the other. -/
theorem bind [nonempty : Nonempty α] {x : Build α} {f : α → Build β}
    (hx : Traces few scopes around uses x) (hf : ∀ v, Traces more scopes around others (f v)) :
    Traces (few ++ more) scopes around (uses ++ others) (x >>= f) := by
  intro nodup apart
  obtain ⟨nodup₁, nodup₂, disjoint⟩ := List.nodup_append'.mp nodup
  obtain ⟨static₁, run₁⟩ := hx nodup₁ fun f hf mem => apart f hf (List.mem_append_left _ mem)
  have apart₂ : ∀ f ∈ around, f ∉ more := fun f hf mem => apart f hf (List.mem_append_right _ mem)
  refine ⟨static₁.append (hf nonempty.some nodup₂ apart₂).1 disjoint, fun b b' w stands h => ?_⟩
  rw [bind_eq_ok] at h
  obtain ⟨v, c, h₁, h₂⟩ := h
  obtain ⟨first, visited₁⟩ := run₁ stands h₁
  obtain ⟨last, visited₂⟩ := (hf v nodup₂ apart₂).2
    (fun σ hσ => first.stands (stands σ hσ) fun f hf mem =>
      apart f hf (List.mem_append_left _ mem)) h₂
  refine ⟨(first.mono (List.subset_append_left ..)).trans (last.mono (List.subset_append_right ..)),
    fun p hp => ?_⟩
  rcases visited₂ p hp with hp | ⟨u, hu, same, place⟩
  · rcases visited₁ p hp with hp | ⟨u, hu, same, place⟩
    · exact .inl hp
    · -- No function around a use is visited again.
      refine .inr ⟨u, List.mem_append_left _ hu, same, last.stands place fun f hf mem => ?_⟩
      rcases static₁.functions u hu f hf with inside | outside
      · exact disjoint inside mem
      · exact apart₂ f outside mem
  · exact .inr ⟨u, List.mem_append_right _ hu, same, place⟩

theorem seq {x : Build PUnit} {y : Build β} (hx : Traces few scopes around uses x)
    (hy : Traces more scopes around others y) :
    Traces (few ++ more) scopes around (uses ++ others) (x >>= fun _ => y) :=
  hx.bind fun _ => hy

/-- One expression alone is a list of expressions. -/
theorem single {x : Build α} {e : Expr} (h : Traces ids scopes around (e.uses around) x) :
    Traces ids scopes around ([e].flatMap (·.uses around)) x := by
  rwa [List.flatMap_singleton]

/-- A step that leaves nothing waiting comes first. -/
theorem after [Nonempty α] {x : Build α} {f : α → Build β} (hx : Silent [] x)
    (hf : ∀ v, Traces ids scopes around uses (f v)) : Traces ids scopes around uses (x >>= f) :=
  (of_silent hx).bind hf

theorem before {x : Build PUnit} {y : Build β} (hx : Traces ids scopes around uses x)
    (hy : Silent [] y) : Traces ids scopes around uses (x >>= fun _ => y) := by
  have last : Traces [] scopes around [] y := of_silent hy
  have := hx.seq last
  rwa [List.append_nil, List.append_nil] at this

/-- What could have been visited is passed over. -/
theorem pass {x : Build α} {y : Build β} (hx : Traces few places around uses x)
    (hy : Traces more scopes around others y) :
    Traces (few ++ more) scopes around (uses ++ others) y := by
  intro nodup apart
  obtain ⟨nodup₁, nodup₂, disjoint⟩ := List.nodup_append'.mp nodup
  obtain ⟨static, run⟩ := hy nodup₂ fun f hf mem => apart f hf (List.mem_append_right _ mem)
  refine ⟨(hx nodup₁ fun f hf mem => apart f hf (List.mem_append_left _ mem)).1.append static
    disjoint, fun _ _ _ stands h => ?_⟩
  obtain ⟨last, visited⟩ := run stands h
  exact ⟨last.mono (List.subset_append_right ..), fun _ hp => (visited _ hp).imp_right
    fun ⟨u, hu, found⟩ => ⟨u, List.mem_append_right _ hu, found⟩⟩

/-- Nothing is visited instead. -/
theorem skip {x : Build α} {y : Build β} (hx : Traces ids places around uses x) (hy : Silent [] y) :
    Traces ids scopes around uses y := by
  have last : Traces [] scopes around [] y := of_silent hy
  have := hx.pass last
  rwa [List.append_nil, List.append_nil] at this

/-- A scope is created, and the rest takes place inside `inner`. -/
theorem inside {node : NodeId} {x : Build ScopeId} {y : ScopeId → Build β} {inner : List NodeId}
    {places : ScopeId → List ScopeId} (silent : Silent [node] x)
    (sub : ∀ f ∈ inner, f = node ∨ f ∈ around)
    (opens : ∀ ⦃b b' : Building⦄ ⦃τ : ScopeId⦄, (∀ f ∈ around, f ≠ node) →
      (∀ σ ∈ scopes, b.analysis.Stands σ around) → x b = .ok (τ, b') →
      ∀ σ ∈ places τ, b'.analysis.Stands σ inner)
    (hy : ∀ τ, Traces ids (places τ) inner uses (y τ)) :
    Traces (node :: ids) scopes around uses (x >>= y) := by
  intro nodup apart
  obtain ⟨fresh, nodup⟩ := List.nodup_cons.mp nodup
  have apart' : ∀ f ∈ inner, f ∉ ids := by
    intro f hf mem
    rcases sub f hf with rfl | hf
    · exact fresh mem
    · exact apart f hf (List.mem_cons_of_mem _ mem)
  obtain ⟨node_mem, told, functions⟩ := (hy 0 nodup apart').1
  refine ⟨⟨fun u hu => List.mem_cons_of_mem _ (node_mem u hu), told, fun u hu f hf => ?_⟩,
    fun b b' v stands h => ?_⟩
  · rcases functions u hu f hf with inside | outside
    · exact .inl (List.mem_cons_of_mem _ inside)
    · rcases sub f outside with rfl | outside
      · exact .inl (List.mem_cons_self ..)
      · exact .inr outside
  · rw [bind_eq_ok] at h
    obtain ⟨τ, c, h₁, h₂⟩ := h
    obtain ⟨first, pending⟩ := silent h₁
    have opened := opens (fun f hf same => apart f hf (same ▸ List.mem_cons_self ..)) stands h₁
    obtain ⟨last, visited⟩ := (hy τ nodup apart').2 opened h₂
    refine ⟨(first.mono (List.cons_subset_cons _ (List.nil_subset _))).trans
      (last.mono (List.subset_cons_self ..)), fun p hp => ?_⟩
    rw [← pending]
    exact visited p hp

/-- Inside a block, which lies in the same functions. -/
theorem block {node : NodeId} {σ : ScopeId} {ordered : Bool} {y : ScopeId → Build β}
    (mem : σ ∈ scopes) (hy : ∀ τ, Traces ids (τ :: scopes) around uses (y τ)) :
    Traces (node :: ids) scopes around uses (blockScope node σ ordered >>= y) := by
  refine inside (.createScope (List.mem_singleton.mpr rfl) _ _ _) (fun _ => .inr)
    (fun b b' τ fresh stands h => ?_) hy
  have created := created_createScope h
  obtain ⟨goes, -⟩ := Silent.createScope (List.mem_singleton_self node) _ _ _ h
  have kept : ∀ σ ∈ scopes, b'.analysis.Stands σ around := fun σ hσ =>
    goes.stands (stands σ hσ) fun f hf mem => fresh f hf (List.mem_singleton.mp mem)
  rw [List.forall_mem_cons]
  obtain ⟨fs, frames, entries, names⟩ := kept σ mem
  exact ⟨⟨fs, .block created.kind created.enclosing frames, entries, names⟩, kept⟩

/-- Inside the body of a function. -/
theorem function {node : NodeId} {σ : ScopeId} {y : ScopeId → Build β} (mem : σ ∈ scopes)
    (hy : ∀ τ, Traces ids [τ] (node :: around) uses (y τ)) :
    Traces (node :: ids) scopes around uses (createScope node (.function node) σ false >>= y) := by
  refine inside (.createScope (List.mem_singleton.mpr rfl) _ _ _)
    (fun _ hf => List.mem_cons.mp hf) (fun b b' τ fresh stands h => ?_) hy
  have created := created_createScope h
  obtain ⟨goes, -⟩ := Silent.createScope (List.mem_singleton_self node) _ _ _ h
  rw [List.forall_mem_singleton]
  obtain ⟨fs, frames, entries, names⟩ := goes.stands (stands σ mem) fun f hf mem =>
    fresh f hf (List.mem_singleton.mp mem)
  refine ⟨⟨node, τ⟩ :: fs, .function created.kind created.enclosing frames, ?_, ?_⟩
  · rw [List.forall_mem_cons]
    exact ⟨created.created, entries⟩
  · rw [List.map_cons, names]

/-- Among the members of a symbol, outside all functions. -/
theorem members {owner : SymbolId} {node : NodeId} {σ : ScopeId} {y : ScopeId → Build β}
    (hy : ∀ τ, Traces ids [τ] [] uses (y τ)) :
    Traces (node :: ids) scopes [] uses (memberScope owner σ node >>= y) := by
  refine inside (.memberScope _ _ (List.mem_singleton.mpr rfl)) (fun _ => .inr)
    (fun b b' τ _ _ h => ?_) hy
  rw [List.forall_mem_singleton]
  exact ⟨[], .members (kind_memberScope h), fun _ hf => (by cases hf), rfl⟩

end Traces

/-! ## Visiting expressions -/

section Visit

variable {scopes : List ScopeId} {σ : ScopeId}

/-- A reference is used where it waits. -/
theorem await_traces (mem : σ ∈ scopes) (node : Node) (r : Reference) :
    Traces [node.id] scopes around [⟨node.id, around⟩] (await node σ r) := by
  intro _ _
  refine ⟨⟨fun u hu => ?_, List.nodup_singleton _, fun u hu f hf => .inr ?_⟩,
    fun b b' v stands h => ?_⟩
  · rw [List.mem_singleton.mp hu]
    exact List.mem_singleton.mpr rfl
  · rw [List.mem_singleton.mp hu] at hf
    exact hf
  · cases h
    refine ⟨.of_same rfl rfl, fun p hp => ?_⟩
    rcases List.mem_cons.mp hp with rfl | hp
    · exact .inr ⟨_, List.mem_singleton.mpr rfl, rfl, stands σ mem⟩
    · exact .inl hp

/-- The step begins at a node of its own. -/
theorem entered {uses : List Use} {node : Node} (σ : ScopeId) {y : Build PUnit}
    (h : Traces ids scopes around uses y) :
    Traces (node.id :: ids) scopes around uses (enter node σ >>= fun _ => y) :=
  .cons node.id (.after (.enter node σ) fun _ => h)

mutual

/-- **Visiting an expression visits its uses.** -/
theorem visitExpr_traces {scopes : List ScopeId} {around : List NodeId} {σ : ScopeId}
    (mem : σ ∈ scopes) : ∀ e : Expr,
      Traces e.nodeIds scopes around (e.uses around) (visitExpr σ e)
  | .constant node _ => by
    rw [visitExpr, Expr.uses_of_children around rfl]
    exact .of_silent (.enter node σ)
  | .reference node r => by
    rw [visitExpr, Expr.uses_reference]
    exact .after (.enter node σ) fun _ => await_traces mem node r
  | .list node items => by
    rw [visitExpr, Expr.uses_of_children around rfl]
    exact entered σ (visitItems_traces mem items)
  | .dict node entries => by
    rw [visitExpr, Expr.uses_of_children around rfl]
    exact entered σ (visitEntries_traces mem entries)
  | .function node params _ body => by
    rw [visitExpr, Expr.uses_function]
    have inBody := fun τ : ScopeId => show Traces _ [τ] (node.id :: around) _ _ from
      visitExpr_traces (List.mem_singleton_self τ) body
    have inner := fun τ => Traces.after (.declareParams τ params) fun _ => inBody τ
    refine (Traces.after (.enter node σ) fun _ =>
      (visitDefaults_traces mem params).seq (Traces.function mem inner)).widen fun id => ?_
    simp only [Expr.nodeIds, List.count_append, List.count_cons]
    omega
  | .call node callee args => by
    rw [visitExpr, Expr.uses_of_children around rfl]
    exact entered σ ((visitExpr_traces mem callee).seq (visitArguments_traces mem args))
  | .curry node callee args => by
    rw [visitExpr, Expr.uses_of_children around rfl]
    exact entered σ ((visitExpr_traces mem callee).seq (visitNamed_traces mem args))
  | .letIn node bindings body => by
    rw [visitExpr, Expr.uses_of_children around rfl, Expr.children, List.flatMap_append,
      List.flatMap_singleton]
    exact .after (.enter node σ) fun _ => .block mem fun τ =>
      (visitBindings_traces (List.mem_cons_self ..) bindings).seq
        (visitExpr_traces (List.mem_cons_self ..) body)
  | .ifElse node c t e => by
    rw [visitExpr, Expr.uses_of_children around rfl]
    exact entered σ ((visitExpr_traces mem c).seq
      ((visitExpr_traces mem t).seq (.single (visitExpr_traces mem e))))
  | .matchOn node subject lines => by
    rw [visitExpr, Expr.uses_of_children around rfl]
    exact entered σ ((visitExpr_traces mem subject).seq (visitLines_traces mem lines))
  | .forEach node heads body => by
    rw [visitExpr, Expr.uses_of_children around rfl, Expr.children, List.flatMap_append,
      List.flatMap_singleton]
    exact .after (.enter node σ) fun _ => .block mem fun τ =>
      (visitHeads_traces (List.mem_cons_self ..) heads).seq
        (visitExpr_traces (List.mem_cons_self ..) body)
  | .binary node _ l r => by
    rw [visitExpr, Expr.uses_of_children around rfl]
    exact entered σ ((visitExpr_traces mem l).seq (.single (visitExpr_traces mem r)))
  | .unary node _ e | .cast node e _ | .isOf node e _ | .throw node e => by
    rw [visitExpr, Expr.uses_of_children around rfl]
    exact entered σ (.single (visitExpr_traces mem e))
  | .access node c keys => by
    rw [visitExpr, Expr.uses_of_children around rfl]
    exact entered σ ((visitExpr_traces mem c).seq (visitExprs_traces mem keys))
  | .tryCatch node body clause error trace handler => by
    rw [visitExpr, Expr.uses_of_children around rfl]
    have inHandler := fun τ : ScopeId => show Traces _ (τ :: scopes) around _ _ from
      visitExpr_traces List.mem_cons_self handler
    have inner := fun τ => Traces.after (.recordPosition clause) fun _ =>
      Traces.after (.declareCaptures τ (error.toList ++ trace.toList)) fun _ =>
        Traces.single (inHandler τ)
    refine (Traces.after (.enter node σ) fun _ =>
      (visitExpr_traces mem body).seq (Traces.block mem inner)).widen fun id => ?_
    simp only [Expr.nodeIds, List.count_append, List.count_cons]
    omega

theorem visitExprs_traces {scopes : List ScopeId} {around : List NodeId} {σ : ScopeId}
    (mem : σ ∈ scopes) : ∀ es : List Expr,
      Traces (idsOfExprs es) scopes around (es.flatMap (·.uses around)) (visitExprs σ es)
  | [] => .of_silent (.pure _)
  | e :: rest => (visitExpr_traces mem e).seq (visitExprs_traces mem rest)

theorem visitOption_traces {scopes : List ScopeId} {around : List NodeId} {σ : ScopeId}
    (mem : σ ∈ scopes) : ∀ e : Option Expr,
      Traces (idsOfOption e) scopes around (e.toList.flatMap (·.uses around)) (visitOption σ e)
  | none => .of_silent (.pure _)
  | some e => .single (visitExpr_traces mem e)

theorem visitItems_traces {scopes : List ScopeId} {around : List NodeId} {σ : ScopeId}
    (mem : σ ∈ scopes) : ∀ items : List ListItem,
      Traces (idsOfItems items) scopes around ((items.map (·.expr)).flatMap (·.uses around))
        (visitItems σ items)
  | [] => .of_silent (.pure _)
  | .value e :: rest | .splat e :: rest =>
    (visitExpr_traces mem e).seq (visitItems_traces mem rest)

theorem visitEntries_traces {scopes : List ScopeId} {around : List NodeId} {σ : ScopeId}
    (mem : σ ∈ scopes) : ∀ entries : List DictEntry,
      Traces (idsOfEntries entries) scopes around ((entries.flatMap (·.exprs)).flatMap
        (·.uses around))
        (visitEntries σ entries)
  | [] => .of_silent (.pure _)
  | .pair k v :: rest =>
    (visitExpr_traces mem k).seq ((visitExpr_traces mem v).seq (visitEntries_traces mem rest))
  | .splat e :: rest => (visitExpr_traces mem e).seq (visitEntries_traces mem rest)

theorem visitDefaults_traces {scopes : List ScopeId} {around : List NodeId} {σ : ScopeId}
    (mem : σ ∈ scopes) : ∀ params : List Param,
      Traces (idsOfParams params) scopes around ((params.filterMap (·.default)).flatMap
        (·.uses around))
        (visitDefaults σ params)
  | [] => .of_silent (.pure _)
  | ⟨node, _, _, none⟩ :: rest => (visitDefaults_traces mem rest).cons node.id
  | ⟨node, _, _, some e⟩ :: rest =>
    ((visitExpr_traces mem e).seq (visitDefaults_traces mem rest)).cons node.id

theorem visitArguments_traces {scopes : List ScopeId} {around : List NodeId} {σ : ScopeId}
    (mem : σ ∈ scopes) : ∀ args : List Argument,
      Traces (idsOfArguments args) scopes around ((args.map (·.expr)).flatMap (·.uses around))
        (visitArguments σ args)
  | [] => .of_silent (.pure _)
  | .positional e :: rest | .named _ e :: rest | .splat e :: rest =>
    (visitExpr_traces mem e).seq (visitArguments_traces mem rest)

theorem visitNamed_traces {scopes : List ScopeId} {around : List NodeId} {σ : ScopeId}
    (mem : σ ∈ scopes) : ∀ args : List NamedExpr,
      Traces (idsOfNamed args) scopes around ((args.map (·.value)).flatMap (·.uses around))
        (visitNamed σ args)
  | [] => .of_silent (.pure _)
  | ⟨_, e⟩ :: rest => (visitExpr_traces mem e).seq (visitNamed_traces mem rest)

theorem visitBindings_traces {scopes : List ScopeId} {around : List NodeId} {σ : ScopeId}
    (mem : σ ∈ scopes) : ∀ vars : List VarDef,
      Traces (idsOfVars vars) scopes around ((vars.map (·.value)).flatMap (·.uses around))
        (visitBindings σ vars)
  | [] => .of_silent (.pure _)
  | ⟨node, _, _, e⟩ :: rest => .cons node.id <| .after (.declare _ _) fun _ =>
    (visitExpr_traces mem e).seq (visitBindings_traces mem rest)

theorem visitLines_traces {scopes : List ScopeId} {around : List NodeId} {σ : ScopeId}
    (mem : σ ∈ scopes) : ∀ lines : List MatchLine,
      Traces (idsOfLines lines) scopes around ((lines.flatMap (·.exprs)).flatMap (·.uses around))
        (visitLines σ lines)
  | [] => .of_silent (.pure _)
  | ⟨node, pattern, guard, result⟩ :: rest => by
    rw [visitLines, List.flatMap_cons, MatchLine.exprs, List.flatMap_append, List.flatMap_append,
      List.flatMap_append, List.flatMap_singleton, List.append_assoc, List.append_assoc]
    have outer : ∀ τ, σ ∈ τ :: scopes := fun τ => List.mem_cons_of_mem _ mem
    exact .block mem fun τ => .after (.recordPosition node) fun _ =>
      .after (.enter pattern.node σ) fun _ => (visitPattern_traces (outer τ) pattern).seq
        (.after (.declareCaptures τ pattern.captures) fun _ =>
          (visitOption_traces (List.mem_cons_self ..) guard).seq
            ((visitExpr_traces (List.mem_cons_self ..) result).seq
              (visitLines_traces (outer τ) rest)))

theorem visitHeads_traces {scopes : List ScopeId} {around : List NodeId} {σ : ScopeId}
    (mem : σ ∈ scopes) : ∀ heads : List ForHead,
      Traces (idsOfHeads heads) scopes around ((heads.map (·.expr)).flatMap (·.uses around))
        (visitHeads σ heads)
  | [] => .of_silent (.pure _)
  | .generator node _ _ source :: rest => .cons node.id <| (visitExpr_traces mem source).seq <|
    .after (.declare _ _) fun _ => visitHeads_traces mem rest
  | .definition node _ _ e :: rest => .cons node.id <| .after (.declare _ _) fun _ =>
    (visitExpr_traces mem e).seq (visitHeads_traces mem rest)
  | .condition e :: rest => (visitExpr_traces mem e).seq (visitHeads_traces mem rest)

theorem visitPattern_traces {scopes : List ScopeId} {around : List NodeId} {σ : ScopeId}
    (mem : σ ∈ scopes) : ∀ p : Pattern,
      Traces p.nodeIds scopes around (p.expressions.flatMap (·.uses around)) (visitPattern σ p)
  | ⟨node, shape, whole⟩ => by
    refine (visitShape_traces mem shape).widen fun id => ?_
    simp only [Pattern.nodeIds, List.count_cons, List.count_append]
    omega

theorem visitShape_traces {scopes : List ScopeId} {around : List NodeId} {σ : ScopeId}
    (mem : σ ∈ scopes) : ∀ shape : PatternShape,
      Traces shape.nodeIds scopes around (shape.expressions.flatMap (·.uses around))
        (visitShape σ shape)
  | .expr e => .single (visitExpr_traces mem e)
  | .wildcard | .default | .ofType _ => .of_silent (.pure _)
  | .list items => visitPatterns_traces mem items
  | .headTail head tail => (visitPatterns_traces mem head).widen fun id => by
    simp only [PatternShape.nodeIds, List.count_append]
    omega
  | .initLast init last => (visitPatterns_traces mem last).widen fun id => by
    simp only [PatternShape.nodeIds, List.count_append]
    omega
  | .middle head mid last => by
    rw [visitShape, PatternShape.expressions, List.flatMap_append]
    refine ((visitPatterns_traces mem head).seq (visitPatterns_traces mem last)).widen fun id => ?_
    simp only [PatternShape.nodeIds, List.count_append]
    omega
  | .dict entries => visitKeyPatterns_traces mem entries
  | .openDict entries rest => (visitKeyPatterns_traces mem entries).widen fun id => by
    simp only [PatternShape.nodeIds, List.count_append]
    omega

theorem visitPatterns_traces {scopes : List ScopeId} {around : List NodeId} {σ : ScopeId}
    (mem : σ ∈ scopes) : ∀ ps : List Pattern,
      Traces (idsOfPatterns ps) scopes around ((expressionsOfPatterns ps).flatMap (·.uses around))
        (visitPatterns σ ps)
  | [] => .of_silent (.pure _)
  | p :: rest => by
    rw [expressionsOfPatterns, List.flatMap_append]
    exact (visitPattern_traces mem p).seq (visitPatterns_traces mem rest)

theorem visitKeyPatterns_traces {scopes : List ScopeId} {around : List NodeId} {σ : ScopeId}
    (mem : σ ∈ scopes) : ∀ entries : List KeyPattern,
      Traces (idsOfKeyPatterns entries) scopes around
        ((expressionsOfEntries entries).flatMap (·.uses around)) (visitKeyPatterns σ entries)
  | [] => .of_silent (.pure _)
  | ⟨_, p⟩ :: rest => by
    rw [expressionsOfEntries, List.flatMap_append]
    exact (visitPattern_traces mem p).seq (visitKeyPatterns_traces mem rest)

end

/-! ## Visiting units -/

theorem visitValues_traces (mem : σ ∈ scopes) (vars : List VarDef) :
    Traces (idsOfVars vars) scopes around (vars.flatMap (·.value.uses around))
      (visitValues σ vars) := by
  induction vars with
  | nil => exact .of_silent (.pure _)
  | cons v rest ih =>
    obtain ⟨node, name, ty, e⟩ := v
    exact .cons node.id ((visitExpr_traces mem e).seq ih)

theorem visitVars_traces (mem : σ ∈ scopes) (vars : List VarDef) :
    Traces (idsOfVars vars) scopes around (vars.flatMap (·.value.uses around)) (visitVars σ vars) :=
  .after (.declareVars σ vars) fun _ => visitValues_traces mem vars

/-- A group that is passed over. -/
theorem passGroup_traces {node : NodeId} {vars : List VarDef} {rest : Build PUnit}
    (more : Traces ids scopes [] uses rest) :
    Traces ((node :: idsOfVars vars) ++ ids) scopes
    [] (vars.flatMap (·.value.uses []) ++ uses) rest :=
  .pass (.cons node (visitVars_traces (List.mem_singleton.mpr (rfl : 0 = 0)) vars)) more

theorem visitLibraries_traces (σ exports : ScopeId) (scopes : List ScopeId)
    (libraries : List Library) :
    Traces (libraries.flatMap Library.nodeIds) scopes []
      (libraries.flatMap fun l => l.vars.flatMap (·.value.uses []))
        (visitLibraries σ exports libraries) := by
  induction libraries generalizing scopes with
  | nil => exact .of_silent (.pure _)
  | cons l rest ih =>
    rw [visitLibraries, List.flatMap_cons, List.flatMap_cons]
    refine .after (.declare _ _) fun declared? => ?_
    cases declared? with
    | none => exact passGroup_traces (ih scopes)
    | some symbol =>
      refine .members fun τ => ?_
      have rest := (visitVars_traces (List.mem_singleton.mpr rfl) l.vars).seq (ih [τ])
      split
      · exact .after (.publish _ _ _) fun _ => rest
      · exact rest

theorem visitSections_traces (σ : ScopeId) (scopes : List ScopeId) (sections : List Section) :
    Traces (sections.flatMap Section.nodeIds) scopes []
      (sections.flatMap fun s => s.vars.flatMap (·.value.uses [])) (visitSections σ sections) := by
  induction sections generalizing scopes with
  | nil => exact .of_silent (.pure _)
  | cons s rest ih =>
    rw [visitSections, List.flatMap_cons, List.flatMap_cons]
    refine .after (.declare _ _) fun declared? => ?_
    cases declared? with
    | none => exact passGroup_traces (ih scopes)
    | some symbol =>
      exact .members fun τ => (visitVars_traces (List.mem_singleton.mpr rfl) s.vars).seq (ih [τ])

theorem visitModule_traces (m : Module) (symbol : SymbolId) :
    Traces m.nodeIds scopes [] (m.libraries.flatMap fun l => l.vars.flatMap (·.value.uses []))
      (visitModule m symbol) := by
  have libraries :
      ∀ σ exports, Traces m.nodeIds scopes [] _ (visitLibraries σ exports m.libraries) :=
    fun σ exports => (visitLibraries_traces σ exports scopes m.libraries).widen fun id => by
      simp only [Module.nodeIds, List.count_append]
      omega
  refine .after .get fun b => ?_
  dsimp only
  split
  · next σ exports _ _ =>
    exact .after (.declareImports _ _) fun _ => .after (.declareAliases _ _) fun _ =>
      (libraries σ exports).before (.declareExports _ _ _)
  · exact .skip (libraries 0 0) (.pure _)

theorem visitInteractive_traces (sections : List Section) (symbol : SymbolId) :
    Traces (sections.flatMap Section.nodeIds) scopes []
      (sections.flatMap fun s => s.vars.flatMap (·.value.uses []))
        (visitInteractive sections symbol) := by
  refine .after .get fun b => ?_
  split
  · exact visitSections_traces _ scopes sections
  · exact .skip (visitSections_traces 0 scopes sections) (.pure _)

/-- **Visiting units visits their uses.** -/
theorem visitUnits_traces (pairs : List (SourceUnit × SymbolId)) :
    Traces (pairs.flatMap (·.1.kind.nodeIds)) scopes [] (pairs.flatMap (·.1.uses))
      (visitUnits pairs) := by
  induction pairs with
  | nil => exact .of_silent (.pure _)
  | cons pair rest ih =>
    obtain ⟨unit, symbol⟩ := pair
    rw [visitUnits, List.flatMap_cons, List.flatMap_cons]
    cases hk : unit.kind with
    | module m =>
      have uses : unit.uses = m.libraries.flatMap fun l => l.vars.flatMap (·.value.uses []) := by
        rw [SourceUnit.uses, SourceUnit.groups, hk, List.flatMap_map]
      rw [uses]
      exact (visitModule_traces m symbol).seq ih
    | interactive sections =>
      have uses : unit.uses = sections.flatMap fun s => s.vars.flatMap (·.value.uses []) := by
        rw [SourceUnit.uses, SourceUnit.groups, hk, List.flatMap_map]
      rw [uses]
      exact (visitInteractive_traces sections symbol).seq ih

end Visit

end Build

/-! ## The first pass -/

theorem UnitSet.Numbered.inner {units : UnitSet} (numbered : units.Numbered) :
    (units.flatMap (·.kind.nodeIds)).Nodup :=
  (List.Sublist.flatMap_right units fun _ _ => List.sublist_cons_self ..).nodup numbered.nodup

/-- The uses in a program are told apart by their nodes. -/
theorem UnitSet.Numbered.uses_nodup {units : UnitSet} (numbered : units.Numbered) :
    (units.uses.map (·.node)).Nodup := by
  -- What is read does not depend on the symbols of the units.
  have traces : Build.Traces _ [] [] _ _ := Build.visitUnits_traces (units.map (·, 0))
  rw [List.flatMap_map, List.flatMap_map] at traces
  exact (traces numbered.inner fun _ hf => by cases hf).1.nodup

/-- **Every reference that waits is a use in the program, and stands in the same functions.** -/
theorem buildScopes_stands {recovery : Bool} {units : UnitSet} {a : Analysis}
    {pending : List PendingReference} (numbered : units.Numbered)
    (h : buildScopes recovery units = .ok (a, pending)) {p : PendingReference} (mem : p ∈ pending) :
    ∃ u ∈ units.uses, u.node = p.node.id ∧ a.Stands p.scope u.functions := by
  obtain ⟨pairs, b₁, b, v, h₁, h₂, rfl, rfl⟩ := Build.pass_eq_ok h
  obtain ⟨few, -, -⟩ := Build.declareUnits_owners units h₁
  have nodup : (pairs.flatMap (·.1.kind.nodeIds)).Nodup := by
    have sub := few.flatMap (·.kind.nodeIds)
    rw [List.flatMap_map] at sub
    exact sub.nodup numbered.inner
  have start : b₁.pending = [] := (Build.Silent.declareUnits units (List.Subset.refl _) h₁).2
  have traces : Build.Traces _ [] [] _ _ := Build.visitUnits_traces pairs
  obtain ⟨-, visited⟩ := (traces nodup fun _ hf => by cases hf).2 (fun _ hσ => by cases hσ) h₂
  rcases visited p (List.mem_reverse.mp mem) with old | ⟨u, hu, same, stands⟩
  · rw [start] at old
    cases old
  · obtain ⟨pair, hp, hu⟩ := List.mem_flatMap.mp hu
    exact ⟨u, List.mem_flatMap.mpr ⟨pair.1, few.subset (List.mem_map_of_mem hp), hu⟩, same, stands⟩

end CellScript
