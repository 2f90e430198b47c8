import CellScript.Proofs.Eval.Discipline

/-!
# Evaluation under audit

Cells are computed, and functions called, with care: definitions and blocks are equipped for what
stands in them, and a call binds all its parameters before its body is evaluated. What care means
for cells can be put to the test: an auditor looks at the machine before and after each step, and
refuses it where a cell is treated as it should not be.

* `Eval.force_careful`, `Eval.call_careful` — demands are met with care, if they may be made
* `Memory.forkBinding?_eq` — a block is copied by binding cells that have no value
* `Machine.Accounts` — what a step must have kept when it is over
* `Supply.audited` — demands are met, operations evaluated and cells bound under audit
* `Supply.audited_attends` — the auditor refuses nothing
-/

namespace CellScript

variable {a : Analysis} {K : FunctionId → Ty → Prop} {n : Nat} {s s' : Supply} {m : Memory}
  {M M' M'' : Machine} {id : CellId}

/-! ## Cells -/

theorem Machine.Minds.trans (h : M.Minds a n M') (g : M.memory.Grows M'.memory)
    (low : n ≤ M.memory.spaces.size) (h' : M'.Minds a n M'') : M.Minds a n M'' :=
  ⟨h'.neat, h.abstains.trans g low h'.abstains⟩

/-- Steps are judged by how they end. -/
theorem Careful.congr {α : Type} {x y x' y' : Eval α} {P : α → Machine → Prop} (hx : x M = x' M)
    (hy : y M = y' M) (h : Careful a K n x' y' M P) : Careful a K n x y M P := by
  unfold Careful Safe at h ⊢
  rw [hx, hy]
  exact h

namespace Memory

/-- A change to a cell that is computed leaves memory neat and binds nothing. -/
theorem Neat.computed (h : m.Neat a) {f : Cell → Cell} (has : m.HasCell id)
    (init : (m.cell id).shape.init.isSome = true)
    (shape : (f (m.cell id)).shape = (m.cell id).shape) :
    (m.modifyCell id f).Neat a ∧ m.Abstains (m.modifyCell id f) n :=
  ⟨h.modifyCell has shape fun _ => init, .modifyCell has fun _ bare => by
    rw [bare] at init
    cases init⟩

theorem space_callSpace (m : Memory) (t : Code.Template) (closure : ClosureId) :
    (m.callSpace t closure).2.space (m.callSpace t closure).1 =
      .ofTemplate t none (some closure) := by
  show (m.newSpace _).2.space m.spaces.size = _
  rw [space_newSpace, if_pos rfl]

theorem spaces_fillAll (m : Memory) (waiting : List Deferral) (v : Value) :
    (waiting.foldl (fun m d => m.fill d.closure d.index v) m).spaces = m.spaces := by
  induction waiting generalizing m with
  | nil => rfl
  | cons d rest ih => exact ih (m.fill d.closure d.index v)

end Memory

namespace Eval

theorem settle_spaces {v w : Value} (h : settle id v M = .ok w M') :
    M'.memory.spaces = ((unmarked M.memory id).bind id v).spaces := by
  change EStateM.Result.ok _ _ = _ at h
  cases h
  exact Memory.spaces_fillAll _ _ _

theorem settleFailure_spaces {e : Exception} {stop : Stop}
    (h : settleFailure id e M = .error stop M') :
    M'.memory.spaces = ((unmarked M.memory id).modifyCell id fun c => c.withFailure e).spaces := by
  change EStateM.Result.error _ _ = _ at h
  cases h
  rfl

/-- The computation of a cell ends with a change to the cell. -/
theorem minds_ended (tidy : M.Tidy a K n) (has : M.memory.HasCell id)
    (init : (M.memory.cell id).shape.init.isSome = true) {f : Cell → Cell}
    (shape : ∀ c, (f c).shape = c.shape)
    (same : M'.memory.spaces = ((unmarked M.memory id).modifyCell id f).spaces) :
    M.Minds a n M' := by
  obtain ⟨ok, grows⟩ := unmarked_ok tidy.memory has
  have has₁ := has.grows grows
  obtain ⟨neat₁, abstains₁⟩ :=
    tidy.neat.computed (n := n) (f := fun c => { c with evaluating := false }) has init rfl
  have init₁ : ((unmarked M.memory id).cell id).shape.init.isSome = true := by
    rw [cell_unmarked has]
    exact init
  obtain ⟨neat₂, abstains₂⟩ := Memory.Neat.computed (n := n) neat₁ has₁ init₁ (shape _)
  exact ⟨neat₂.of_spaces same, (abstains₁.trans grows tidy.low abstains₂).congr same⟩

/-- The value of a cell is computed in the space of the cell, with care. -/
theorem compute_careful (attends : s.Attends a K s') (rooted : a.Rooted) (tidy : M.Tidy a K n)
    (attached : M.context.units.isSome = true) (has : M.memory.HasCell id)
    (alive : id.space ∈ M.memory.held) (equips : ∀ init, (M.memory.cell id).shape.init = some init →
      M.memory.Equips a id.space fun count depth => init.Below count depth) :
    Careful a K n (compute s id (M.memory.cell id).shape) (compute s' id (M.memory.cell id).shape) M
      fun v _ => (M.memory.cell id).shape.ty.Holds v := by
  have ok := (tidy.memory.cell has).shape.init
  unfold compute
  cases hi : (M.memory.cell id).shape.init with
  | none => exact .pure tidy (Ty.holds_nil _)
  | some init =>
    rw [hi] at ok
    have hosts : M.Hosts a K n id.space (some (M.memory.space id.space).template.scope)
        (init.Below · ·) :=
      ⟨tidy, ⟨attached, has.1, rfl, tidy.memory.scope_ne has, alive⟩, equips init hi⟩
    refine Careful.memory ?_
    rw [if_pos alive, if_pos alive]
    refine .inFrame (.located ?_ _) fun _ _ _ h => h
    have framed := hosts.withStack (M.context.push (.at' (M.memory.cell id).shape.name
      (M.memory.cell id).shape.span)).stack
    refine (Code.Op.eval_careful attends rooted init framed ok).bind framed.toTidy
      fun v M₁ goes₁ _ => ?_
    exact (cast_careful (framed.toTidy.later goes₁) v _).mono fun w _ _ holds => holds.1

/-- **A cell that may be asked for is computed with care**, at most once. -/
theorem force_careful (attends : s.Attends a K s') (rooted : a.Rooted) (tidy : M.Tidy a K n)
    (attached : M.context.units.isSome = true) (answers : M.memory.Answers id)
    (askable : M.memory.Askable a id) :
    Careful a K n (force s id) (force s' id) M fun v M' => (M'.memory.cell id).value = some v := by
  have has := answers.has
  cases hv : (M.memory.cell id).value with
  | some v => exact .congr (force_of_value hv) (force_of_value hv) (.pure tidy hv)
  | none =>
  cases hf : (M.memory.cell id).failure with
  | some e =>
    exact .congr (force_of_failure hv hf) (force_of_failure hv hf)
      (.raise tidy ((tidy.memory.cell has).failure e hf))
  | none =>
  by_cases busy : (M.memory.cell id).evaluating = true
  · exact .congr (force_of_busy tidy.toGood busy) (force_of_busy tidy.toGood busy)
      (.raise tidy (((Exception.ordinary_of _ (by decide)).orSpan _).orTrace _))
  have free : (M.memory.cell id).Open := ⟨Bool.eq_false_iff.mpr busy, hf⟩
  have asked : ¬(M.memory.cell id).Withheld := fun withheld => withheld.elim busy fun failed => by
    rw [hf] at failed
    cases failed
  have alive := answers.alive.resolve_right asked
  obtain ⟨init, computed, equips⟩ := askable hv asked
  have init? : (M.memory.cell id).shape.init.isSome = true := by
    rw [computed]
    rfl
  -- The cell is marked, which binds nothing, and what computes it is still equipped.
  obtain ⟨good₁, grows₁⟩ := marked_good tidy.toGood has hv hf
  have shape₁ := (grows₁.memory.cell id has.1).shape
  obtain ⟨neat₁, abstains₁⟩ :=
    tidy.neat.computed (n := n) (f := fun c => { c with evaluating := true }) has init? rfl
  have minds₁ : M.Minds a n (marked M id) := ⟨neat₁, abstains₁⟩
  have tidy₁ : (marked M id).Tidy a K n :=
    ⟨good₁, neat₁, Nat.le_trans tidy.low grows₁.memory.spaces⟩
  have first := compute_careful attends rooted tidy₁ (by rw [grows₁.units]; exact attached)
    (has.grows grows₁.memory) alive fun init' computed' => by
      rw [shape₁, computed] at computed'
      cases computed'
      exact equips.grows grows₁.memory tidy.nests
  rw [shape₁] at first
  have run : ∀ supply : Supply, force supply id M = _ := fun supply => force_of_blank hv free
  -- Nothing else than the cell was under way in between.
  have rests : ∀ {M₂ M₃ : Machine}, (marked M id).Rests M₂ →
      Releases a K M₂ id M₃ → M.Rests M₃ := by
    intro M₂ M₃ rests₂ releases
    refine ⟨releases.stack.trans rests₂.stack, fun other => ?_, releases.held.trans rests₂.held⟩
    rw [releases.evaluating, rests₂.evaluating, evaluating_marked has]
    split
    · next he => rw [he, free.idle]
    · rfl
  have same := first.1.1
  have outcome := first.1.2
  cases hc : compute s' id (M.memory.cell id).shape (marked M id) with
  | ok v M₂ =>
    rw [hc] at same
    obtain ⟨goes₂, holds⟩ := first.goes hc
    have g := grows₁.memory.trans goes₂.grows.memory
    have has₂ := has.grows g
    have shape₂ := (g.cell id has.1).shape
    obtain ⟨M₃, settled, releases, value⟩ := settle_eq goes₂.good has₂
      (by rw [goes₂.rests.evaluating, evaluating_marked has, if_pos rfl]) (by rwa [shape₂])
      fun overlooked => marked_seen tidy.toGood has hv free (goes₂.grows.overlooks id overlooked)
    have minds₃ : M₂.Minds a n M₃ :=
      minds_ended (f := fun c => c.withValue v) (tidy₁.later goes₂) has₂
      (by rw [shape₂]; exact init?) (fun _ => rfl) (settle_spaces settled)
    have minds := (minds₁.trans grows₁.memory tidy.low goes₂.toMinds).trans g tidy.low minds₃
    have ends : ∀ supply : Supply, compute supply id (M.memory.cell id).shape (marked M id) =
        .ok v M₂ → force supply id M = .ok v M₃ := fun supply h => by
      rw [run supply, bind_of_ok (attempt_of_ok h)]
      exact settled
    refine ⟨⟨(ends s same).trans (ends s' hc).symm, ?_⟩, fun stop M' hy => ?_⟩
    · rw [ends s' hc]
      exact ⟨⟨releases.good, (grows₁.trans goes₂.grows).trans releases.grows,
        rests goes₂.rests releases⟩,
        value, minds⟩
    · rw [ends s' hc] at hy
      cases hy
  | error stop M₂ =>
    rw [hc] at same outcome
    obtain ⟨good₂, grows₂, leaves⟩ := outcome
    have g := grows₁.memory.trans grows₂.memory
    have minds₂ := minds₁.trans grows₁.memory tidy.low (first.2 stop M₂ hc)
    cases stop with
    | raised e =>
      have has₂ := has.grows g
      have shape₂ := (g.cell id has.1).shape
      obtain ⟨M₃, settled, releases, failure⟩ := settleFailure_eq good₂ (e := e) has₂
        (by rw [leaves.2.evaluating, evaluating_marked has, if_pos rfl]) leaves.1
      have minds₃ : M₂.Minds a n M₃ := minds_ended (f := fun c => c.withFailure e)
        ⟨good₂, minds₂.neat, Nat.le_trans tidy.low g.spaces⟩ has₂ (by rw [shape₂]; exact init?)
        (fun _ => rfl) (settleFailure_spaces settled)
      have ends : ∀ supply : Supply,
          compute supply id (M.memory.cell id).shape (marked M id) = .error (.raised e) M₂ →
          force supply id M = .error (.raised e) M₃ := fun supply h => by
        rw [run supply, bind_of_ok (attempt_of_raised h)]
        exact settled
      refine ⟨⟨(ends s same).trans (ends s' hc).symm, ?_⟩, fun stop M' hy => ?_⟩
      · rw [ends s' hc]
        exact ⟨releases.good, (grows₁.trans grows₂).trans releases.grows, leaves.1,
          rests leaves.2 releases⟩
      · rw [ends s' hc] at hy
        cases hy
        exact minds₂.trans g tidy.low minds₃
    | exhausted =>
      have ends : ∀ supply : Supply,
          compute supply id (M.memory.cell id).shape (marked M id) = .error .exhausted M₂ →
          force supply id M = .error .exhausted M₂ := fun supply h => by
        rw [run supply, bind_of_error (attempt_of_exhausted h)]
      refine ⟨⟨(ends s same).trans (ends s' hc).symm, ?_⟩, fun stop M' hy => ?_⟩
      · rw [ends s' hc]
        refine ⟨good₂, grows₁.trans grows₂, leaves.1, fun other busy => leaves.2 other ?_⟩
        rw [evaluating_marked has]
        split
        · rfl
        · exact busy
      · rw [ends s' hc] at hy
        cases hy
        exact minds₂
    | refused => exact leaves.elim

/-! ## Calls -/

/-- **The parameters of a call get values of their types**, each of them once. -/
theorem bindParams_careful (attends : s.Attends a K s') (tidy : M.Tidy a K n) {σ : ScopeId}
    {space : SpaceId} (fits : M.Fits space (some σ)) (new : n ≤ space)
    (bound : M.memory.Bound space []) {params : List (Ty × String)}
    (types : (a.arena.scope σ).slots.map (fun t => (a.arena.symbol t).ty) = params.map (·.1))
    (args : List Value) :
    Careful a K n (bindParams s space params args) (bindParams s' space params args) M
      fun _ M' => M'.memory.Bound space (List.range (params.zip args).length) := by
  have slots : (params.zip args).zipIdx.map Prod.snd = List.range (params.zip args).length := by
    rw [List.zipIdx_map_snd, List.range_eq_range']
  unfold bindParams
  refine (Careful.forM (P := fun done M' => M'.memory.Bound space (done.map Prod.snd))
    (params.zip args).zipIdx tidy bound fun done entry rest split M' goes bound' => ?_).mono
    fun _ _ _ all => slots ▸ all
  obtain ⟨⟨param, arg⟩, slot⟩ := entry
  have mem : ((param, arg), slot) ∈ (params.zip args).zipIdx := by
    rw [split]
    exact List.mem_append_right _ (List.mem_cons_self ..)
  have known : a.arena.SlotOf σ slot param.1 := by
    have found := List.mem_zipIdx_iff_getElem?.mp mem
    rw [List.getElem?_zip_eq_some] at found
    have type := congrArg (·[slot]?) types
    simp only [List.getElem?_map, found.1, Option.map_some, Option.map_eq_some_iff] at type
    exact type
  have other : slot ∉ done.map Prod.snd := by
    have apart : ((params.zip args).zipIdx.map Prod.snd).Nodup := by
      rw [slots]
      exact List.nodup_range
    rw [split, List.map_append, List.map_cons] at apart
    exact fun mem => (List.nodup_append.mp apart).2.2 _ mem _ (List.mem_cons_self ..) rfl
  have tidy' := tidy.later goes
  rw [List.map_append]
  refine (cast_careful tidy' arg param.1).bind tidy' fun v M₁ goes₁ ⟨holds, same⟩ => ?_
  exact bindSlot_careful attends (tidy'.later goes₁) ((fits.grows goes.grows).grows goes₁.grows) new
    (bound'.of_spaces same) other known holds

/-- The body of a function, in the space of a call. -/
theorem body_careful (attends : s.Attends a K s') (rooted : a.Rooted) {σ : Option ScopeId}
    {space : SpaceId} {body : Code.Op} (hosts : M.Hosts a K n space σ (body.Below · ·))
    (ok : body.Ok a K σ) (frame : Frame) (ty : Ty) :
    Careful a K n (inFrame frame do cast (← body.eval s space) ty)
      (inFrame frame do cast (← body.eval s' space) ty) M fun v _ => ty.Holds v := by
  refine .inFrame ?_ fun _ _ _ h => h
  have framed := hosts.withStack (M.context.push frame).stack
  refine (Code.Op.eval_careful attends rooted body framed ok).bind framed.toTidy
    fun v M₁ goes₁ _ => ?_
  exact (cast_careful (framed.toTidy.later goes₁) v ty).mono fun w _ _ holds => holds.1

/-- Arguments may be handed on in a buffer. -/
theorem forward_careful (tidy : M.Tidy a K n) (fixed : List (Option Value)) (args : List Value)
    {x y : List Value → Eval Value} {P : Value → Prop}
    (h : ∀ args M', M'.Tidy a K n → M.Grows M' →
      Careful a K n (x args) (y args) M' fun v _ => P v) :
    Careful a K n (forward fixed args x) (forward fixed args y) M fun v _ => P v := by
  unfold forward
  split
  · have taken := tidy.withScratch M.memory.grows_rest
    exact .withBuffer tidy.toGood (fun _ => h _ _ ⟨taken.good, tidy.neat.of_spaces rfl,
      tidy.low⟩ taken.grows)
      fun _ _ _ holds => holds
  · exact h _ M tidy (.refl M)

/-- **A call binds all its parameters before its body is evaluated.** -/
theorem call_careful (attends : s.Attends a K s') (rooted : a.Rooted) (tidy : M.Tidy a K n)
    (attached : M.context.units.isSome = true) (id : FunctionId) (args : List Value) :
    Careful a K n (call s id args) (call s' id args) M
      fun v _ => (M.memory.function id).signature.returns.Holds v := by
  unfold call
  refine Careful.memory ?_
  simp only
  split
  · exact .raise tidy (Exception.ordinary_of _ (by decide))
  · next arity =>
    by_cases known : id < M.memory.functions.size
    · have ok := tidy.memory.function id known
      unfold FunctionObject.Ok at ok
      split
      · next body template closure region hb =>
        simp only [hb] at ok
        obtain ⟨k, inner, kind, hTemplate, hBody, types, closes, defaults⟩ := ok
        have lays := tidy.toGood.callSpace rooted attached kind hTemplate closes
        have enters :=
          tidy.lays lays ((Code.template_ok_iff template).mp hTemplate).1 (by rw [kind]; rfl)
          (Space.open_ofTemplate template _ _)
        refine .within tidy enters ?_ fun _ _ _ holds => holds
        have tidy₁ := tidy.entered enters
        have bound := M.memory.bound_ofTemplate template none (some closure)
        refine (bindParams_careful attends tidy₁ lays.fits tidy.low bound types _).bind tidy₁
          fun _ M₂ goes₂ all => ?_
        have fits₂ := lays.fits.grows goes₂.grows
        have known₁ := lays.fits.2.1
        have full : M₂.memory.Full (M.memory.callSpace template closure).1 :=
          all.full fun slot has => by
          have lt := (tidy₁.later goes₂).memory.slot_lt fits₂.2.2.1 has
          have count := congrArg List.length types
          rw [List.length_map, List.length_map] at count
          rw [List.mem_range, List.length_zip, List.length_append, List.length_drop, defaults]
          rw [Signature.arity] at arity
          omega
        refine body_careful attends rooted ⟨tidy₁.later goes₂, fits₂, .root ?_ ?_ full⟩ hBody _ _
        · exact Nat.lt_of_lt_of_le known₁ goes₂.grows.memory.spaces
        · rw [(goes₂.grows.memory.space _ known₁).enclosing]
          exact congrArg Space.enclosing (M.memory.space_callSpace template closure)
      · next target fixed hb =>
        simp only [hb] at ok
        refine forward_careful tidy fixed _ fun args M' tidy' grows' =>
          (attends.call target args tidy' (grows'.units ▸ attached)).mono fun v _ _ h => ?_
        rcases ok with returns | ⟨known, returns⟩
        · rw [returns]
          exact Ty.holds_any v
        · rw [grows'.memory.function target known] at h
          rw [← returns]
          exact h
    · rw [function_of_le (Nat.le_of_not_lt known)]
      -- There are no parameters to bind, and the body looks at nothing.
      have opens := callSpace_default_opens tidy.toGood
      have enters : M.Enters a K n { M with memory := (M.memory.callSpace default default).2 }
          (M.memory.callSpace default default).1 :=
        ⟨opens, tidy.neat.newSpace tidy.nests (fun i c hc => by cases hc) (.inr ⟨rfl, rfl⟩),
          .newSpace _ tidy.low⟩
      refine .within tidy enters ?_ fun _ _ _ holds => holds
      refine Careful.found (v := ⟨⟩) rfl ?_
      have ok : (default : Code.Op).Ok a K none := fun _ _ h => by cases h
      have space := M.memory.space_callSpace default default
      refine body_careful attends rooted (σ := none) ⟨tidy.entered enters, trivial,
        .root ?_ ?_ fun slot has => ?_⟩
        ok _ _
      · rw [Memory.callSpace, Memory.size_spaces_newSpace]
        exact Nat.lt_succ_self _
      · rw [space]
        rfl
      · have lt := has.2
        rw [space] at lt
        exact absurd lt (Nat.not_lt_zero _)

end Eval

/-! ## Copies -/

namespace Memory

/-- Binds a cell that has no value; there is no result if it has one. -/
def bindNew? (m : Memory) (id : CellId) (v : Value) : Option Memory :=
  if (m.cell id).value.isNone then some (m.bind id v) else none

/-- Lays out a space again, with nothing asked for yet, and binds one after the other the cells
whose originals have a value. -/
def forkBinding? (m : Memory) (space : SpaceId) : Option (SpaceId × Memory) :=
  let (copy, blank) := m.newSpace
    { m.space space with cells := (m.space space).cells.map fun c => .ofSlot c.shape }
  ((m.cellsOf space).foldlM (fun (m' : Memory) id =>
    match (m.cell id).value with
    | some v => m'.bindNew? ⟨copy, id.slot⟩ v
    | none => some m') blank).map (copy, ·)

theorem modifyCell_newSpace (m : Memory) (s : Space) (slot : Nat) (f : Cell → Cell) :
    (m.newSpace s).2.modifyCell ⟨m.spaces.size, slot⟩ f =
      (m.newSpace { s with cells := s.cells.modify slot f }).2 := by
  have spaces :
      (m.spaces.push s).modify m.spaces.size (fun s => { s with cells := s.cells.modify slot f }) =
      m.spaces.push { s with cells := s.cells.modify slot f } := by
    refine Array.ext (by simp) fun i _ _ => ?_
    rw [Array.getElem_modify, Array.getElem_push, Array.getElem_push]
    split
    · next same => simp [← same]
    · next other =>
      split
      · rfl
      · next last => exact absurd (by simp at *; omega) other
  show (⟨(m.spaces.push s).modify _ _, _, _, _, _, _, _, _⟩ : Memory) = _
  rw [spaces]
  rfl

/-- The first cells of a copy have the values of their originals. -/
def carried (s : Space) (count : Nat) : Array Cell :=
  s.cells.mapIdx fun i c => { Cell.ofSlot c.shape with value := if i <
    count then c.value else none }

theorem getElem?_carried (s : Space) (count i : Nat) :
    (carried s count)[i]? = (s.cells[i]?).map fun c =>
    { Cell.ofSlot c.shape with value := if i < count then c.value else none } :=
  Array.getElem?_mapIdx

theorem carried_zero (s : Space) : carried s 0 = s.cells.map fun c => Cell.ofSlot c.shape := by
  refine Array.ext_getElem? fun i => ?_
  rw [getElem?_carried, Array.getElem?_map]
  rfl

theorem carried_succ {s : Space} {count : Nat} {c : Cell} (found : s.cells[count]? = some c)
    {f : Cell → Cell}
    (carries : f (.ofSlot c.shape) = { Cell.ofSlot c.shape with value := c.value }) :
    (carried s count).modify count f = carried s (count + 1) := by
  refine Array.ext_getElem? fun i => ?_
  rw [Array.getElem?_modify, getElem?_carried, getElem?_carried]
  by_cases same : count = i
  · subst same
    rw [if_pos rfl, found]
    simp only [Option.map_some, if_neg (Nat.lt_irrefl _), if_pos (Nat.lt_succ_self _)]
    exact congrArg some carries
  · have lt : i < count + 1 ↔ i < count :=
      ⟨fun lt => Nat.lt_of_le_of_ne (Nat.le_of_lt_succ lt) (Ne.symm same), Nat.lt_succ_of_lt⟩
    simp only [if_neg same, lt]

theorem carried_size (s : Space) : carried s s.cells.size =
    s.cells.map fun c => { Cell.ofSlot c.shape with value := c.value } := by
  refine Array.ext_getElem? fun i => ?_
  rw [getElem?_carried, Array.getElem?_map]
  cases found : s.cells[i]? with
  | none => rfl
  | some c => rw [Option.map_some, Option.map_some, if_pos (Array.getElem?_eq_some_iff.mp found).1]

/-- One more cell of a copy gets the value of its original. -/
theorem carries (m : Memory) (s : Space) {count : Nat} {c : Cell}
    (found : s.cells[count]? = some c) :
    (match c.value with
      | some v => (m.newSpace { s with cells := carried s count }).2.bindNew?
          ⟨m.spaces.size, count⟩ v
      | none => some (m.newSpace { s with cells := carried s count }).2) =
      some (m.newSpace { s with cells := carried s (count + 1) }).2 := by
  have blank : (m.newSpace { s with cells := carried s count }).2.cell ⟨m.spaces.size, count⟩ =
      Cell.ofSlot c.shape := by
    rw [cell_eq, space_newSpace, if_pos rfl, getElem?_carried, found, Option.map_some,
      if_neg (Nat.lt_irrefl _)]
    rfl
  have step :
      ∀ {f : Cell → Cell}, f (.ofSlot c.shape) = { Cell.ofSlot c.shape with value := c.value } →
      (m.newSpace { s with cells := carried s count }).2.modifyCell ⟨m.spaces.size, count⟩ f =
        (m.newSpace { s with cells := carried s (count + 1) }).2 := fun h => by
    rw [modifyCell_newSpace, carried_succ found h]
  cases hv : c.value with
  | some v =>
    have empty : ((m.newSpace { s with cells := carried s count }).2.cell
        ⟨m.spaces.size, count⟩).value.isNone = true := by
      rw [blank]
      rfl
    show bindNew? _ _ v = _
    rw [bindNew?, if_pos empty, bind, step]
    rw [hv]
    rfl
  | none =>
    have same : carried s (count + 1) = carried s count := by
      rw [← carried_succ found (f := id) (by rw [hv]; rfl)]
      refine Array.ext_getElem? fun i => ?_
      rw [Array.getElem?_modify]
      split <;> simp
    rw [same]

/-- **A copy is a blank space bound cell by cell**, and no cell has a value before it is bound. -/
theorem forkBinding?_eq (m : Memory) (space : SpaceId) :
    m.forkBinding? space = some (m.fork space) := by
  obtain ⟨s, hs⟩ : ∃ s, s = m.space space := ⟨_, rfl⟩
  -- The induction is on the number of cells that have been seen to.
  have run : ∀ count ≤ s.cells.size, ((List.range count).map (⟨space, ·⟩)).foldlM
      (fun (m' : Memory) (id : CellId) => match (m.cell id).value with
        | some v => m'.bindNew? ⟨m.spaces.size, id.slot⟩ v
        | none => some m') (m.newSpace { s with cells := carried s 0 }).2 =
      some (m.newSpace { s with cells := carried s count }).2 := by
    intro count
    induction count with
    | zero => exact fun _ => rfl
    | succ count ih =>
      intro le
      have found : s.cells[count]? = some s.cells[count] := Array.getElem?_eq_getElem le
      have cell : m.cell ⟨space, count⟩ = s.cells[count] := by
        rw [cell_eq, ← hs, found]
        rfl
      rw [List.range_succ, List.map_append, List.foldlM_append, ih (Nat.le_of_succ_le le)]
      simp only [List.map_cons, List.map_nil, List.foldlM_cons, List.foldlM_nil, cell,
        Option.bind_eq_bind, Option.bind_some, Option.pure_def]
      rw [m.carries s found]
      rfl
  have all := run s.cells.size (Nat.le_refl _)
  rw [carried_zero, carried_size, hs] at all
  show Option.map _ (List.foldlM _ _ (m.cellsOf space)) = _
  rw [cellsOf]
  exact (congrArg (Option.map (m.spaces.size, ·)) all).trans rfl

end Memory

/-! ## Audit -/

/-- Every cell that has a value or a failure keeps it. -/
def Memory.Keeps (m m' : Memory) : Prop := ∀ id,
  (∀ v, (m.cell id).value = some v → (m'.cell id).value = some v) ∧
    ∀ e, (m.cell id).failure = some e → (m'.cell id).failure = some e

/-- No cell is being computed that has a value or a failure already, and no cell has both. -/
def Memory.Consistent (m : Memory) : Prop := ∀ id, (m.cell id).Consistent

/-- What a step must have kept, whatever it ends with. If it has ended with a result or an
exception, the stack is what it was, and the same cells are being computed. -/
def Machine.Accounts {α : Type} (M : Machine) : EStateM.Result Stop Machine α → Prop
  | .ok _ M' | .error (.raised _) M' => M.memory.Keeps M'.memory ∧ M'.memory.Consistent ∧ M.Rests M'
  | .error _ M' => M.memory.Keeps M'.memory ∧ M'.memory.Consistent

open Classical in
/-- A step that is refused if it should not be made or if it has not kept what it must. -/
noncomputable def Eval.audited {α : Type} (may : Memory → Prop) (x : Eval α) : Eval α := fun M =>
  if M.memory.Consistent ∧ may M.memory ∧ M.Accounts (x M) then x M else .error .refused M

/-- A cell that nothing computes is asked for only when it has been bound. -/
def Demand.Timely : Demand → Memory → Prop
  | .force id, m => (m.cell id).Provided
  | .call .., _ => True

namespace Supply

/-- Audits all that a supply does. Only cells without a value may be bound. -/
noncomputable def auditing (s : Supply) : Supply where
  meet demand := (s demand).audited demand.Timely
  watch op space x := (s.watch op space x).audited fun _ => True
  bind id v := (s.bind id v).audited fun m => (m.cell id).value = .none

/-- Meets demands under audit, with a limit on how deep they may nest. -/
noncomputable def audited : Nat → Supply
  | 0 => auditing .none
  | fuel + 1 => auditing
    { meet := fun
        | .force cell => Eval.force (audited fuel) cell
        | .call function args => Eval.call (audited fuel) function args
      watch := .idle
      bind := Eval.bindCell }

end Supply

theorem Memory.Grows.keeps {m m' : Memory} (g : m.Grows m') : m.Keeps m' := by
  intro id
  by_cases known : id.space < m.spaces.size
  · exact ⟨(g.cell id known).value, (g.cell id known).failure⟩
  · rw [Memory.cell_eq_default fun has => known has.1]
    exact ⟨fun _ h => (by cases h), fun _ h => (by cases h)⟩

theorem Outcome.accounts {α : Type} {post : α → Machine → Prop} {r : EStateM.Result Stop Machine α}
    (h : Outcome a K M post r) : M.Accounts r := by
  cases r with
  | ok v M' => exact ⟨h.1.grows.memory.keeps, h.1.good.memory.consistent, h.1.rests⟩
  | error stop M' =>
    obtain ⟨good, grows, leaves⟩ := h
    cases stop with
    | raised e => exact ⟨grows.memory.keeps, good.memory.consistent, leaves.2⟩
    | exhausted => exact ⟨grows.memory.keeps, good.memory.consistent⟩
    | refused => exact leaves.elim

/-- A safe step that may be made passes the audit. -/
theorem Safe.audited {α : Type} {x y : Eval α} {post : α → Machine → Prop} {may : Memory → Prop}
    (h : Safe a K x y M post) (good : M.Good a K) (timely : may M.memory) : x.audited may M = x M :=
  if_pos ⟨good.memory.consistent, timely, by rw [h.1]; exact h.2.accounts⟩

theorem Careful.audited {α : Type} {x y : Eval α} {P : α → Machine → Prop} {may : Memory → Prop}
    (h : Careful a K n x y M P) (good : M.Good a K) (timely : may M.memory) :
    Careful a K n (x.audited may) y M P :=
  .congr (h.1.audited good timely) rfl h

/-- A cell that may be asked for is provided. -/
theorem Memory.Askable.provided (h : m.Askable a id) (neat : m.Neat a) : (m.cell id).Provided := by
  intro bare
  by_contra unbound
  have empty := Option.not_isSome_iff_eq_none.mp unbound
  by_cases withheld : (m.cell id).Withheld
  · have computed := neat.started id withheld
    rw [bare] at computed
    cases computed
  · obtain ⟨init, computed, -⟩ := h empty withheld
    rw [bare] at computed
    cases computed

/-- There is no fuel left. -/
theorem exhausted_careful (tidy : M.Tidy a K n) {P : Value → Machine → Prop} :
    Careful a K n (throw .exhausted) (throw .exhausted) M P := by
  refine ⟨⟨rfl, tidy.toGood, .refl M, rfl, fun _ busy => busy⟩, fun stop M' hy => ?_⟩
  cases hy
  exact tidy.refl.toMinds

/-- **The auditor refuses nothing**: demands are met under audit as they are without. -/
theorem Supply.audited_attends (rooted : a.Rooted) (fuel : Nat) :
    (Supply.audited fuel).Attends a K (.ofFuel fuel) := by
  have watches :
      Watch.Lenient a K fun op space x => (Watch.idle op space x).audited fun _ => True :=
    fun M _ _ _ x _ good _ _ safe =>
      ⟨(Safe.audited (x := x) safe good trivial).trans safe.1, safe.2⟩
  have binds : ∀ {n : Nat} {M : Machine} {id : CellId} {v : Value}, M.Tidy a K n →
      M.memory.HasCell id → (M.memory.cell id).Open → (M.memory.cell id).value = .none →
      n ≤ id.space → (M.memory.cell id).shape.ty.Holds v →
      Careful a K n ((Eval.bindCell id v).audited fun m => (m.cell id).value = .none)
        (Eval.bindCell id v) M fun _ M' => M' = { M with memory := M.memory.bind id v } :=
    fun tidy has free empty new holds =>
      (Eval.bindCell_careful tidy has free new holds).audited tidy.toGood empty
  induction fuel with
  | zero =>
    exact ⟨fun tidy _ _ askable => (exhausted_careful tidy).audited tidy.toGood
      (askable.provided tidy.neat), fun _ _ tidy _ => (exhausted_careful tidy).audited tidy.toGood
        trivial, binds, watches, rfl⟩
  | succ fuel ih =>
    exact ⟨fun tidy attached answers askable =>
        (Eval.force_careful ih rooted tidy attached answers askable).audited tidy.toGood
          (askable.provided tidy.neat),
      fun id args tidy attached => (Eval.call_careful ih rooted tidy attached id args).audited
        tidy.toGood trivial, binds, watches, rfl⟩

end CellScript
