import CellScript.Proofs.Scope.Outlined
import CellScript.Proofs.Session.Requests

/-!
# Sessions mirror the arena

Whatever faults analysis has found, its result can be laid out. The slots that lead from the units
to a symbol in the arena then lead to the cell of that symbol in memory, also later on. A definition
that is asked for through imports, aliases and exports is evaluated in this very cell.

* `Compiler.program_plans` — compilation gives the templates that laying out needs
* `Session.Mirrors` — cells are found where the arena says
* `Session.start_mirrors` — a session of any analysis begins, and mirrors it
-/

namespace CellScript

variable {a : Analysis} {units : UnitSet} {s : Session} {S : SpaceId → Prop} {i t : SymbolId}

namespace Analysis

/-- Only what was declared is laid out once. -/
theorem Rooted.lt_size_of_absolutePath? (rooted : a.Rooted) {slots : List Nat}
    (h : a.arena.absolutePath? t = some slots) : t < a.arena.symbols.size := by
  refine Classical.byContradiction fun out => ?_
  -- Any other number denotes a symbol of the global scope.
  have none : a.arena.symbol t = default := by
    rw [Arena.symbol, Array.getD_eq_getD_getElem?, Array.getElem?_eq_none (Nat.le_of_not_lt out)]
    rfl
  have kind : (a.arena.scope (a.arena.symbol t).scope).kind = .global := by
    rw [none]
    exact rooted.global
  simp only [Arena.absolutePath?, Arena.slotPath?, kind] at h
  cases h

/-- What a step along a path of names leads to is laid out once. -/
theorem Rooted.laidOnce_of_step? (rooted : a.Rooted) {name : String} (h : a.step? i name = some t) :
    a.arena.LaidOnce t := by
  have named : ∀ {σ : ScopeId}, (a.arena.scope σ).kind.isDynamic = false →
      (a.arena.scope σ).get? name = some t → a.arena.LaidOnce t := by
    intro σ static found
    obtain ⟨known, home | ⟨s, home⟩⟩ := rooted.ready.name σ name t found
    · exact ⟨known, by rw [home]; exact static⟩
    · exact ⟨known, by rw [home]; rfl⟩
  simp only [step?, Option.bind_eq_bind, Option.bind_eq_some_iff, Option.or_eq_some_iff] at h
  obtain ⟨target, -, ⟨σ, members, found⟩ | ⟨-, σ, shown, found⟩⟩ := h
  · exact named (by rw [rooted.ready.members target σ members]; rfl) found
  · refine named ?_ found
    rcases Arena.kind_of_publicScope? shown with hs | hs
    · rw [rooted.ready.exports _ _ hs]
      rfl
    · rw [rooted.ready.members _ _ hs]
      rfl

/-- What a path of names denotes in a unit is the unit, or laid out once. -/
theorem Rooted.laidOnce_of_member? (rooted : a.Rooted) {path : String} {names : List String}
    (h : a.member? path names = some i) : a.unit? path = some i ∨ a.arena.LaidOnce i := by
  simp only [member?, Option.bind_eq_bind, Option.bind_eq_some_iff] at h
  obtain ⟨unit, found, walk⟩ := h
  have ends : i = unit ∨ a.arena.LaidOnce i := by
    clear found
    induction names generalizing unit with
    | nil =>
      cases walk
      exact .inl rfl
    | cons name rest ih =>
      rw [List.foldlM_cons, Option.bind_eq_bind, Option.bind_eq_some_iff] at walk
      obtain ⟨next, first, walk⟩ := walk
      rcases ih next walk with rfl | laid
      · exact .inr (rooted.laidOnce_of_step? first)
      · exact .inr laid
  rcases ends with rfl | laid
  · exact .inl found
  · exact .inr laid

/-- A variable that is found through a path of names is laid out once, among the members of an
owner. -/
theorem Outlined.static_of_member? (h : a.Outlined units) {path : String} {names : List String}
    (found : a.member? path names = some i) (target : a.arena.targetOf? i = some t)
    (var : (a.arena.symbol t).target = .var) : t < a.arena.symbols.size ∧ a.arena.Static t := by
  have laid : a.arena.LaidOnce i := by
    rcases h.laidOnce_of_member? found with unit | laid
    · exact ⟨h.unit path i unit
        |>.1, by rw [(h.unit path i unit).2, (h.ready.units _).mpr rfl]; rfl⟩
    · exact laid
  simp only [Arena.targetOf?] at target
  cases hb : (a.arena.symbol i).binding with
  | direct =>
    rw [hb] at target
    cases target
    exact ⟨laid.1, laid.static h.ready hb var⟩
  | _ =>
    rw [hb] at target
    obtain ⟨known, direct, static⟩ := h.ready.resolved i t target
    exact ⟨known, Arena.LaidOnce.static h.ready ⟨known, static⟩ direct var⟩

end Analysis

/-- **Compilation gives the templates that laying out needs**, also where analysis has found
faults. -/
theorem Compiler.program_plans (options : Code.Options) (h : a.Outlined units) :
    Layout.Plans a (Compiler.program ⟨a, options⟩ units ⟨.initial, []⟩).2.templates ∧
      ∃ t, (Compiler.program ⟨a, options⟩ units ⟨.initial, []⟩).2.templates.get?
        Analysis.unitsScope = some t := by
  obtain ⟨models, root, made⟩ := program_templates (c := ⟨a, options⟩) h.owners
  exact ⟨⟨h.toRooted, fun σ t found => (models σ t found).shows,
    fun s σ members => Option.isSome_iff_exists.mp (made s σ members)⟩,
      Option.isSome_iff_exists.mp root⟩

/-- Cells are found where the arena says: at the end of its path, each declared symbol that is laid
out once has a cell of its own, and a definition that a path of names leads to, through whatever
stands for it, is evaluated in its cell. -/
structure Session.Mirrors (a : Analysis) (s : Session) : Prop where
  cell : ∀ t slots, a.arena.absolutePath? t = some slots → ∃ id,
    (∀ missing, cellAt s.memory missing s.units slots = .ok id) ∧
      (s.memory.cell id).shape.symbol = t
  apart : ∀ t t' slots slots' id missing, a.arena.absolutePath? t = some slots →
    a.arena.absolutePath? t' = some slots' → cellAt s.memory missing s.units slots = .ok id →
    cellAt s.memory missing s.units slots' = .ok id → t = t'
  linked : ∀ path names i t, a.member? path names = some i → a.arena.targetOf? i = some t →
    (a.arena.symbol t).target = .var → ∃ slots id, a.arena.absolutePath? t = some slots ∧
      (∀ missing, cellAt s.memory missing s.units slots = .ok id) ∧
      (s.memory.cell id).shape.symbol = t ∧ s.memory.HasCell id ∧
      ∀ supply, s.varBy supply path names = report (s.run (supply (.force id)))

namespace Session

/-- A session whose memory mirrors the arena does so. -/
theorem mirrors_of_memory (h : a.Outlined units) (analysis : s.analysis = a)
    {root : SpaceId} (place : s.units = root) (memory : s.memory.Mirrors a S root) :
    s.Mirrors a := by
  subst place
  have cell : ∀ t slots, a.arena.absolutePath? t = some slots → ∃ id,
      (∀ missing, cellAt s.memory missing s.units slots = .ok id) ∧
        (s.memory.cell id).shape.symbol = t ∧ s.memory.HasCell id := by
    intro t slots path
    obtain ⟨id, leads, -, -, symbol, has, -⟩ :=
      memory.path h.ready (h.lt_size_of_absolutePath? path) (Arena.slotPath_of_slotPath? _ path)
    exact ⟨id, fun missing => cellAt_of_path leads, symbol, has⟩
  refine ⟨fun t slots path => ?_, fun t t' slots slots' id missing path path' found found' => ?_,
    fun path names i t named target var => ?_⟩
  · obtain ⟨id, found, symbol, -⟩ := cell t slots path
    exact ⟨id, found, symbol⟩
  · obtain ⟨first, there, rfl, -⟩ := cell t slots path
    obtain ⟨second, there', rfl, -⟩ := cell t' slots' path'
    rw [there missing] at found
    rw [there' missing] at found'
    cases found
    cases found'
    rfl
  · obtain ⟨known, static⟩ := h.static_of_member? named target var
    obtain ⟨slots, place, -⟩ := h.ready.absolutePath?_of_static known static
    obtain ⟨id, found, symbol, has⟩ := cell t slots place
    refine ⟨slots, id, place, found, symbol, has, fun supply => ?_⟩
    have definition : s.find path names = .ok id := by
      simp only [find, analysis, named, Option.bind_some, target, var, bne_self_eq_false, place,
        Bool.false_eq_true, if_false]
      exact found _
    rw [varBy, definition]
    rfl

/-- **A session of any analysis begins, whatever faults were found, and mirrors the arena from then
on.** -/
theorem start_mirrors {recovery : Bool} {units : UnitSet} (numbered : units.Numbered)
    (analyzed : analyze recovery units = .ok a) (options : Code.Options) :
    ∃ s, start options units a = .ok s ∧ s.Mirrors a ∧ ∀ s' : Session, s'.analysis = s.analysis →
      s'.units = s.units → s.memory.Grows s'.memory → s'.Mirrors a := by
  have outlined := analyze_outlined numbered analyzed
  obtain ⟨plans, root⟩ := Compiler.program_plans options outlined
  obtain ⟨space, l, laid, lays, new, known, scope⟩ := Layout.program_lays (I := fun _ => True) plans
    ⟨fun _ _ _ _ _ _ => trivial, fun _ _ _ _ _ => trivial⟩ root trivial
  have mirrors := lays.mirrors plans new known scope
  refine ⟨_, start_of_program laid, mirrors_of_memory outlined rfl rfl mirrors,
    fun s' analysis place grows => mirrors_of_memory outlined analysis place (mirrors.grows grows)⟩

/-- Two modules with faults: the first one declares a definition twice and imports from a module
that is not there, the second one imports what the first one exports. -/
def faultyModules : UnitSet :=
  let node (index : Nat) : Node := ⟨.tree index, default⟩
  let definition (index : Nat) (value : Expr) : VarDef := ⟨node index, "x", .any, value⟩
  [⟨node 0, "a", 0, .module
      { globalName := none, imports := [⟨node 1, "missing", [⟨node 2, .name "e", "e"⟩]⟩],
        aliases := []
        libraries := [⟨node 3, "l", false,
          [definition 4 (.constant (node 5) .nil), definition 6 (.constant (node 7) .nil)]⟩]
        exports := [⟨node 8, ⟨.here, ["l", "x"]⟩, "g"⟩] }⟩,
   ⟨node 9, "b", 0, .module
      { globalName := none, imports := [⟨node 10, "a", [⟨node 11, .name "g", "f"⟩]⟩], aliases := []
        libraries := [], exports := [] }⟩]

/-- The theorem at these modules: what the second one imports is evaluated in the cell of the first
of the two definitions, the fifth symbol. -/
theorem start_mirrors_faulty : ∃ a s, analyze true faultyModules = .ok a ∧ a.faults.length = 2 ∧
    start ⟨true, true⟩ faultyModules a = .ok s ∧ s.Mirrors a ∧
      ∃ id, (s.memory.cell id).shape.symbol = 4 ∧ ∀ supply, s.varBy supply "b"
      ["f"] = report (s.run (supply (.force id))) := by
  have numbered : UnitSet.Numbered faultyModules := by decide +kernel
  have facts : ((analyze true faultyModules).toOption.map fun a => (a.faults.length,
      a.member? "b" ["f"], a.arena.targetOf? 6, (a.arena.symbol 4).target)) =
      some (2, some 6, some 4, .var) := by decide +kernel
  cases h : analyze true faultyModules with
  | error fault =>
    rw [h] at facts
    cases facts
  | ok a =>
    rw [h] at facts
    simp only [Except.toOption, Option.map_some, Option.some.injEq, Prod.mk.injEq] at facts
    obtain ⟨faults, named, target, var⟩ := facts
    obtain ⟨s, started, mirrors, -⟩ := start_mirrors numbered h ⟨true, true⟩
    obtain ⟨-, id, -, -, symbol, -, evaluates⟩ := mirrors.linked "b" ["f"] 6 4 named target var
    exact ⟨a, s, rfl, faults, started, mirrors, id, symbol, evaluates⟩

end Session

end CellScript
