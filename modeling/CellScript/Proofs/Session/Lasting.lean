import CellScript.Proofs.Session.Safety
import CellScript.Proofs.Session.Shown

/-!
# Answers last

What was answered once is answered again, whatever is asked in between: cells keep their value or
the exception with which they failed, and a path of names keeps denoting the same cell. Once a unit
has been evaluated, all its definitions have values, and these are what is shown of its space.

* `Eval.force_lasts_value`, `Eval.force_lasts_failure` — cells keep what they ended with
* `Session.Ok.var_lasts` — the answer to a request for a definition
* `Session.Defines.value_of_unit` — all definitions of a unit have values once it was evaluated
* `Session.answers_last` — all of it, for any sequence of requests
-/

namespace CellScript

variable {a : Analysis} {K : FunctionId → Ty → Prop} {s s' : Session} {supply supply' : Supply}
  {M M' : Machine} {m : Memory}

/-! ## Single definitions -/

namespace Eval

/-- **A cell that has given a value gives it ever after.** -/
theorem force_lasts_value (serves : supply.Serves a K supply') (rooted : a.Rooted)
    (good : M.Good a K) (attached : M.context.units.isSome = true) {id : CellId}
    (answers : M.memory.Answers id) {v : Value} {M₁ : Machine} (h : force supply' id M = .ok v M₁)
    (later : M₁.memory.Grows M'.memory) (other : Supply) : force other id M' = .ok v M' := by
  obtain ⟨-, forced⟩ := force_forced serves rooted good attached answers
  rw [h] at forced
  obtain ⟨passes, value⟩ := forced
  exact force_of_value ((later.cell id (answers.has.grows passes.grows.memory).1).value v value)

/-- **A cell that has failed fails ever after with the same exception**, also if it failed because
it was being computed and still is. -/
theorem force_lasts_failure (serves : supply.Serves a K supply') (rooted : a.Rooted)
    (good : M.Good a K) (attached : M.context.units.isSome = true) {id : CellId}
    (answers : M.memory.Answers id) {e : Exception} {M₁ : Machine}
    (h : force supply' id M = .error (.raised e) M₁) (later : M₁.memory.Grows M'.memory)
    (good' : M'.Good a K) (trace : M'.context.trace = M.context.trace)
    (busy : (M₁.memory.cell id).evaluating = true → (M'.memory.cell id).evaluating = true)
    (other : Supply) : force other id M' = .error (.raised e) M' := by
  obtain ⟨-, forced⟩ := force_forced serves rooted good attached answers
  rw [h] at forced
  obtain ⟨-, grows, -, kept⟩ := forced
  have cell := later.cell id (answers.has.grows grows.memory).1
  rcases kept e rfl with failure | ⟨computed, rfl, rfl⟩
  · have failure' := cell.failure e failure
    refine force_of_failure ?_ failure'
    cases hv : (M'.memory.cell id).value with
    | none => rfl
    | some v =>
      rw [(good'.memory.consistent id).single v hv] at failure'
      cases failure'
  · have same : cyclic M' id = cyclic M₁ id := by
      simp only [cyclic, Cell.name, cell.shape, trace]
    rw [force_of_busy good' (busy computed), same]

end Eval

namespace Session

/-- A definition that is found is asked for. -/
theorem var_of_find {path : String} {names : List String} {id : CellId}
    (found : s.find path names = .ok id) (fuel : Nat) :
    s.var fuel path names = report (s.run ((Supply.ofFuel fuel) (.force id))) := by
  rw [var, varBy, found]
  rfl

/-- **A definition that was asked for is answered alike ever after.** -/
theorem Ok.var_lasts (ok : s.Ok a K) {units : UnitSet} (accepts : a.Accepts units) {fuel : Nat}
    {path : String} {names : List String} (answered : (s.var fuel path names).1 ≠ .error .exhausted)
    (later : (s.var fuel path names).2.Later s') (ok' : s'.Ok a K) (fuel' : Nat) :
    (s'.var (fuel' + 1) path names).1 = (s.var fuel path names).1 := by
  have ends := ((Request.var path names).answerBy_ok
    (Supply.serves accepts.toRooted Watch.idle_allows fuel) accepts ok).2.2
  have between : s.Later s' := ends.2.trans later
  rcases ok.find_eq accepts path names with ⟨e, -, eq⟩ | ⟨id, answers, eq⟩
  · simp only [var, varBy, eq s (.refl s), eq s' between]
    rfl
  have first := var_of_find (eq s (.refl s)) fuel
  have second := var_of_find (eq s' between) (fuel' + 1)
  obtain ⟨answer, diagnostics, left⟩ := report_eq (s.run ((Supply.ofFuel fuel) (.force id)))
  rw [second, (report_eq _).1]
  rw [first, answer] at answered
  rw [first, left] at later
  rw [first, answer]
  cases fuel with
  | zero =>
    exact absurd rfl answered
  | succ fuel =>
    have serves := Supply.serves (a := a) (K := K) accepts.toRooted Watch.idle_allows fuel
    cases hr : Eval.force (.ofFuel fuel) id s.machine with
    | ok v M =>
      rw [run_of_ok (x := (Supply.ofFuel (fuel + 1)) (.force id)) hr] at later ⊢
      have again : ∀ other, Eval.force other id s'.machine = .ok v s'.machine :=
        Eval.force_lasts_value serves accepts.toRooted ok.good rfl answers hr later.grows
      rw [run_of_ok (x := (Supply.ofFuel (fuel' + 1)) (.force id)) (again _)]
    | error stop M =>
      rw [run_of_error (x := (Supply.ofFuel (fuel + 1)) (.force id)) hr] at later answered ⊢
      cases stop with
      | raised e =>
        have again : ∀ other, Eval.force other id s'.machine = .error (.raised e) s'.machine :=
          Eval.force_lasts_failure serves accepts.toRooted ok.good rfl answers hr later.grows
            ok'.good rfl (later.busy id)
        rw [run_of_error (x := (Supply.ofFuel (fuel' + 1)) (.force id)) (again _)]
      | exhausted => exact absurd rfl answered
      | refused =>
        have outcome := (Eval.force_safe serves accepts.toRooted ok.good rfl answers).2
        rw [hr] at outcome
        exact outcome.2.2.elim

/-! ## Units -/

/-- Every round of a loop that has ended has ended too. -/
theorem visited_of_forM {α : Type} {f : α → Eval PUnit} (as : List α) {u : PUnit}
    (good : M.Good a K) (step : ∀ v ∈ as, ∀ M', M'.Good a K → M.Grows M' →
      Safe a K (f v) (f v) M' fun _ _ => True)
    (h : as.forM f M = .ok u M') {v : α} (mem : v ∈ as) :
    ∃ M₁ u₁ M₂, M₁.Good a K ∧ M.Grows M₁ ∧ f v M₁ = .ok u₁ M₂ ∧ M₂.Grows M' := by
  induction as generalizing M with
  | nil => cases mem
  | cons first rest ih =>
    rw [List.forall_mem_cons] at step
    obtain ⟨-, outcome⟩ := step.1 M good (.refl M)
    change (f first >>= fun _ => rest.forM f) M = _ at h
    cases hf : f first M with
    | error stop M₁ =>
      rw [Eval.bind_of_error hf] at h
      cases h
    | ok u₁ M₁ =>
      rw [hf] at outcome
      rw [Eval.bind_of_ok hf] at h
      obtain ⟨⟨good₁, grows₁, -⟩, -⟩ := outcome
      have others : ∀ v ∈ rest, ∀ M', M'.Good a K → M₁.Grows M' →
          Safe a K (f v) (f v) M' fun _ _ => True :=
        fun v hv M' good' grows' => step.2 v hv M' good' (grows₁.trans grows')
      rcases List.mem_cons.mp mem with rfl | mem
      · have all := (Safe.forM (P := fun _ => True) rest good₁ trivial
          fun v hv M' good' grows' _ => others v hv M' good' grows').2
        rw [h] at all
        exact ⟨M, u₁, M₁, good, .refl M, hf, all.1.grows⟩
      · obtain ⟨M₂, u₂, M₃, good₂, grows₂, visit, grows₃⟩ := ih good₁ others h mem
        exact ⟨M₂, u₂, M₃, good₂, grows₁.trans grows₂, visit, grows₃⟩

theorem forceCell_of_members {inner : SpaceId → Eval PUnit} {id : CellId} {space : SpaceId}
    (members : (M.memory.cell id).members = some space) :
    forceCell supply inner id M = inner space M := by
  rw [forceCell, Eval.bind_of_ok (rfl : Eval.memory M = .ok M.memory M)]
  simp only [members]

theorem forceCell_of_init {inner : SpaceId → Eval PUnit} {id : CellId}
    (bare : (M.memory.cell id).members = none)
    (init : (M.memory.cell id).shape.init.isSome = true) :
    forceCell supply inner id M = (supply (.force id) >>= fun _ => pure ⟨⟩) M := by
  rw [forceCell, Eval.bind_of_ok (rfl : Eval.memory M = .ok M.memory M)]
  simp only [bare, init, if_true]
  rfl

/-- Every cell of a space whose definitions were asked for has been visited. -/
theorem visited_of_forceAll (serves : supply.Serves a K supply) (rooted : a.Rooted) {depth : Nat}
    {space : SpaceId} (lasts : M.memory.Lasting a space) {u : PUnit} (good : M.Good a K)
    (attached : M.context.units.isSome = true) (h : forceAll supply (depth + 1) space M = .ok u M')
    {id : CellId} (has : M.memory.HasCell id) (inside : id.space = space) :
    ∃ M₁ u₁ M₂, M₁.Good a K ∧ M.Grows M₁ ∧
      forceCell supply (forceAll supply depth) id M₁ = .ok u₁ M₂ ∧ M₂.Grows M' := by
  rw [forceAll_succ, Eval.bind_of_ok (rfl : Eval.memory M = .ok M.memory M)] at h
  refine visited_of_forM _ good (fun id mem M' good' grows' => ?_) h
    (Memory.mem_cellsOf.mpr ⟨inside, inside ▸ has.2⟩)
  have attached' : M'.context.units.isSome = true := by
    rw [grows'.units]
    exact attached
  exact forceCell_safe serves good' rooted attached' (answers_of_mem lasts mem good' grows')
    fun inner lasts' => forceAll_safe serves rooted depth inner good' attached' lasts'

/-- **A definition has a value once all definitions of its unit were asked for.** -/
theorem Defines.value_of_forceAll {path group name : String} {space : SpaceId} {g v : CellId}
    (h : s.Defines path group name space g v) (ok : s.Ok a K) (rooted : a.Rooted)
    (lasts : s.memory.Lasting a space) (serves : supply.Serves a K supply) {depth : Nat} {u : PUnit}
    (done : forceAll supply (depth + 2) space s.machine = .ok u M') :
    ∃ value, (M'.memory.cell v).value = some value := by
  obtain ⟨M₁, u₁, M₂, good₁, grows₁, visit₁, grows₂⟩ :=
    visited_of_forceAll serves rooted lasts ok.good rfl done h.hasGroup h.outer
  have members := (grows₁.memory.cell g h.hasGroup.1).members _ h.members
  have attached₁ : M₁.context.units.isSome = true := by
    rw [grows₁.units]
    rfl
  have lasts₁ := (good₁.attached s.units grows₁.units).lasting good₁.memory rooted members
  rw [forceCell_of_members members] at visit₁
  obtain ⟨M₃, u₃, M₄, good₃, grows₃, visit₃, grows₄⟩ :=
    visited_of_forceAll serves rooted lasts₁ good₁ attached₁ visit₁ (h.has.grows grows₁.memory) rfl
  have has₃ := h.has.grows (grows₁.trans grows₃).memory
  have shape := ((grows₁.trans grows₃).memory.cell v h.has.1).shape
  have bare := (good₃.memory.cell has₃).bare (by rw [shape]; exact h.bare)
  have attached₃ : M₃.context.units.isSome = true := by
    rw [grows₃.units]
    exact attached₁
  rw [forceCell_of_init bare (by rw [shape]; exact h.init)] at visit₃
  have alive := good₃.memory.lasting _ (lasts₁.grows grows₃.memory)
  have outcome := (serves.force M₃ v good₃ attached₃ ⟨has₃, .inl alive⟩).2
  cases hv : supply (.force v) M₃ with
  | error stop M₅ =>
    rw [Eval.bind_of_error hv] at visit₃
    cases visit₃
  | ok value M₅ =>
    rw [hv] at outcome
    rw [Eval.bind_of_ok hv] at visit₃
    cases visit₃
    have later := grows₄.memory.trans grows₂.memory
    exact ⟨value, (later.cell v (has₃.grows outcome.1.grows.memory).1).value value outcome.2⟩

/-- The unit and its group have spaces of their own. -/
theorem Defines.deep {path group name : String} {space : SpaceId} {g v : CellId}
    (h : s.Defines path group name space g v) : ∃ depth, s.memory.spaces.size = depth + 2 :=
  Nat.exists_eq_add_of_le'
    (Nat.lt_of_le_of_lt (Nat.succ_le_of_lt (Nat.zero_lt_of_lt h.after)) h.has.1)

/-- **A unit that was evaluated has values for all its definitions.** -/
theorem Defines.value_of_unit {path group name : String} {space found : SpaceId} {g v : CellId}
    (h : s.Defines path group name space g v) {units : UnitSet} (ok : s.Ok a K)
    (accepts : a.Accepts units) {fuel : Nat} (answered : s.unit fuel path = (.ok found, s')) :
    found = space ∧ ∃ value, (s'.memory.cell v).value = some value := by
  have serves := Supply.serves (a := a) (K := K) accepts.toRooted Watch.idle_allows fuel
  obtain ⟨depth, deep⟩ := h.deep
  have asked : s.unit fuel path = report (s.run (forceAll (.ofFuel fuel) (depth + 2) space >>=
      fun _ => pure space)) := by
    simp only [Session.unit, unitBy, spaceBy, h.unit, deep]
    rfl
  rw [asked] at answered
  obtain ⟨answer, diagnostics, left⟩ :=
    report_eq (s.run (forceAll (.ofFuel fuel) (depth + 2) space >>= fun _ => pure space))
  rw [answered] at answer left
  cases hf : forceAll (.ofFuel fuel) (depth + 2) space s.machine with
  | error stop M =>
    rw [run_of_error (Eval.bind_of_error hf _)] at answer
    cases answer
  | ok u M =>
    have ran := run_of_ok (s := s) ((Eval.bind_of_ok (f := fun _ => pure space) hf).trans rfl)
    rw [ran] at answer left
    cases answer
    subst left
    exact ⟨rfl, h.value_of_forceAll ok accepts.toRooted
      ((ok.unitSpace accepts path).2 space h.unit) serves hf⟩

/-- A definition that has a value is shown with it. -/
theorem Defines.displayed {path group name : String} {space : SpaceId} {g v : CellId}
    {value w : Value} (h : s.Defines path group name space g v) (ok : s.Ok a K) (rooted : a.Rooted)
    (known : (s.memory.cell v).value = some value) {depth : Nat}
    (displays : s.memory.Displays (depth + 2) space w) : ∃ o entries o' inner, w = .dict o entries ∧
      Entries.get? entries group = some (.dict o' inner) ∧
        Entries.get? inner name = some value := by
  have own : ∀ {id : CellId}, s.memory.HasCell id → ∀ other ∈ s.memory.cellsOf id.space,
      (s.memory.cell other).name = (s.memory.cell id).name → other = id := fun has other mem same =>
    ok.memory.eq_of_name rooted has (Memory.hasCell_of_mem mem) (Memory.mem_cellsOf.mp mem).1 same
  have inside : ∀ {id : CellId}, s.memory.HasCell id → id ∈ s.memory.cellsOf id.space := fun has =>
    Memory.mem_cellsOf.mpr ⟨rfl, has.2⟩
  obtain ⟨o, entries, rfl, entered⟩ := displays
  rw [← h.outer] at entered
  obtain ⟨_, entry, o', inner, rfl, entered'⟩ :=
    (entered g (inside h.hasGroup) (own h.hasGroup)).members _ h.members
  have bare := (ok.memory.cell h.has).bare h.bare
  have value' := (entered' v (inside h.has) (own h.has)).value bare h.init
  rw [h.groupName] at entry
  rw [h.name, known] at value'
  exact ⟨o, entries, o', inner, rfl, entry, value'⟩

/-- A definition that has a value is answered with it. -/
theorem Defines.var_eq {path group name : String} {space : SpaceId} {g v : CellId} {value : Value}
    (h : s.Defines path group name space g v) (known : (s.memory.cell v).value = some value)
    (fuel : Nat) : (s.var (fuel + 1) path [group, name]).1 = .ok value := by
  have forced : (Supply.ofFuel (fuel + 1)) (.force v) s.machine = .ok value s.machine :=
    Eval.force_of_value known
  rw [var_of_find h.find (fuel + 1), (report_eq _).1, run_of_ok forced]

/-- **Answers last.** Whatever was asked before and whatever is asked in between, a definition that
was answered is answered alike ever after. Once a unit was evaluated without an exception, every
definition of its libraries or sections has a value, with which it is answered and shown in the
space of the unit. -/
theorem answers_last {units : UnitSet} (numbered : units.Numbered)
    (accepted : analyze false units = .ok a) (options : Code.Options) :
    ∃ s₀, start options units a = .ok s₀ ∧ ∀ before : List (Nat × Request),
      let s := (s₀.serve .idle before).2
      (∀ fuel path names, (s.var fuel path names).1 ≠ .error .exhausted → ∀ between fuel',
        (((s.var fuel path names).2.serve .idle between).2.var (fuel' + 1) path names).1 =
          (s.var fuel path names).1) ∧
      ∀ fuel path space s₁, s.unit fuel path = (.ok space, s₁) → ∀ between,
        let s₂ := (s₁.serve .idle between).2
        ∃ shown, (s₂.values space).1 = .ok shown ∧
          ∀ u ∈ units, u.path = path → ∀ g ∈ u.namedGroups, ∀ v ∈ g.2.2,
            ∃ o entries o' inner value, shown = .dict o entries ∧
              Entries.get? entries g.1 = some (.dict o' inner) ∧ Entries.get? inner v.name =
              some value ∧ ∀ fuel', (s₂.var (fuel' + 1) path [g.1, v.name]).1 = .ok value := by
  have accepts := analyze_accepts numbered accepted
  obtain ⟨c, l, s₀, started, begins⟩ := start_begins options numbered accepts
  refine ⟨s₀, started, fun before => ?_⟩
  have served : ∀ {s : Session} (requests : List (Nat × Request)), s.Ok a c.memory.Returns →
      (s.serve .idle requests).2.Ok a c.memory.Returns ∧ s.Later (s.serve .idle requests).2 :=
    fun requests ok => (serve_ok accepts Watch.idle_allows requests ok).2.2
  obtain ⟨ok, later⟩ := served before begins.ok
  refine ⟨fun fuel path names answered between fuel' =>
    ?_, fun fuel path space s₁ answered between => ?_⟩
  · have ok₁ := ((Request.var path names).answerBy_ok
      (Supply.serves accepts.toRooted Watch.idle_allows fuel) accepts ok).2.2.1
    obtain ⟨ok₂, later₂⟩ := served between ok₁
    exact ok.var_lasts accepts answered later₂ ok₂ fuel'
  · have ends := ((Request.unit path).answerBy_ok
      (Supply.serves accepts.toRooted Watch.idle_allows fuel) accepts ok).2.2
    change Ok a _ (unit fuel path _).2 ∧ Later _ (unit fuel path _).2 at ends
    rw [answered] at ends
    obtain ⟨ok₂, later₂⟩ := served between ends.1
    intro s₂
    obtain ⟨shown, n, walk, displays⟩ := spaceValues_displays (M := s₂.machine)
      s₂.memory.spaces.size space s₂.memory.objects
    refine ⟨shown, congrArg Prod.fst (run_of_ok walk), fun u hu same g hg v hv => ?_⟩
    subst same
    obtain ⟨space', group, var, defines⟩ := begins.defines accepts hu hg hv
    have defines₁ := defines.later begins.ok accepts later
    obtain ⟨rfl, value, known⟩ := defines₁.value_of_unit ok accepts answered
    have defines₂ := defines₁.later ok accepts (ends.2.trans later₂)
    have has := (defines₁.later ok accepts ends.2).has
    have known₂ := (later₂.grows.cell var has.1).value value known
    obtain ⟨depth, deep⟩ := defines₂.deep
    rw [deep] at displays
    obtain ⟨o, entries, o', inner, same, entry, entry'⟩ :=
      defines₂.displayed ok₂ accepts.toRooted known₂ displays
    exact ⟨o, entries, o', inner, value, same, entry, entry', defines₂.var_eq known₂⟩

/-- The theorem at a program with captures: once its only module was evaluated, the last definition
of the library has a value for good. -/
theorem answers_last_captures : ∃ a s₀ space s₁ value, analyze false captureProgram = .ok a ∧
    start ⟨true, true⟩ captureProgram a = .ok s₀ ∧ s₀.unit 30 "m" = (.ok space, s₁) ∧
      ∀ between fuel, (((s₁.var 1 "m" ["l", "result"]).2.serve .idle between).2.var (fuel + 1) "m"
        ["l", "result"]).1 = .ok value := by
  have evaluates : ((analyze false captureProgram).toOption.bind fun a =>
      (start ⟨true, true⟩ captureProgram a).toOption.map fun s =>
        (s.unit 30 "m").1.isOk) = some true := by
    decide +kernel
  obtain ⟨a, accepted⟩ := captureProgram_accepted
  obtain ⟨s₀, started, lasts⟩ := answers_last captureProgram_numbered accepted ⟨true, true⟩
  rw [accepted] at evaluates
  simp only [Except.toOption, Option.bind_some, started, Option.map_some,
    Option.some.injEq] at evaluates
  obtain ⟨space, s₁, answered⟩ : ∃ space s₁, s₀.unit 30 "m" = (.ok space, s₁) := by
    cases hr : s₀.unit 30 "m" with
    | mk answer s₁ =>
      rw [hr] at evaluates
      cases answer with
      | ok space => exact ⟨space, s₁, rfl⟩
      | error stop => cases evaluates
  obtain ⟨shown, -, defined⟩ := (lasts []).2 30 "m" space s₁ answered []
  obtain ⟨-, -, -, -, value, -, -, -, known⟩ := defined _ (List.mem_singleton.mpr rfl) rfl _
    (List.mem_singleton.mpr rfl) _ (.tail _ (.tail _ (.tail _ (.head _))))
  have after : (s₀.serve .idle [(30, .unit "m")]).2 = s₁ := congrArg Prod.snd answered
  have first := (lasts [(30, .unit "m")]).1 1 "m" ["l", "result"]
  rw [after] at first
  refine ⟨a, s₀, space, s₁, value, accepted, started, answered, fun between fuel => ?_⟩
  rw [first (fun h => ?_) between fuel]
  · exact known 0
  · rw [show (s₁.var 1 "m" ["l", "result"]).1 = .ok value from known 0] at h
    cases h

end Session

end CellScript
