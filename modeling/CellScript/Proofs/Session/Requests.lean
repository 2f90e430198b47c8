import CellScript.Proofs.Code.Compiled
import CellScript.Proofs.Code.Templates
import CellScript.Proofs.Memory.Provided
import CellScript.Proofs.Session.Layout
import CellScript.Session.Basic

/-!
# Answering requests

An accepted program gives a session, and whatever is asked of it, in whatever order and with
whatever fuel, memory keeps agreeing with analysis and no answer is an internal error. Whoever
watches the evaluation and has no reason to interfere does not change any answer.

* `Request`, `Session.serve` — a sequence of requests, each with its own fuel
* `Session.Ok` — the invariant of a session
* `Session.start_ok` — a session of an accepted program begins
* `Session.serve_ok` — and goes on
-/

namespace CellScript

/-- What may be asked of a session. -/
inductive Request where
  /-- The value of a definition. -/
  | var (path : String) (names : List String)
  /-- All definitions of a unit. -/
  | unit (path : String)
  /-- All definitions of one section of an interactive unit. -/
  | interactiveSection (path module : String)
  | call (function : FunctionId) (args : List CallArgument)

/-- What a request is answered with. -/
inductive Reply where
  | value (answer : Answer Value)
  | space (answer : Answer SpaceId)

/-- The exception that was raised, if there was one. -/
def Reply.exception? : Reply → Option Exception
  | value (.error (.raised e)) | space (.error (.raised e)) => some e
  | _ => none

/-- The answer is a result or an exception. -/
def Answer.Arrives {α : Type} : Answer α → Prop
  | .ok _ | .error (.raised _) => True
  | .error .exhausted | .error .refused => False

/-- The request was answered with a result or an exception. -/
def Reply.Arrives : Reply → Prop
  | value answer => answer.Arrives
  | space answer => answer.Arrives

/-- Whoever watches has ended the request. -/
def Reply.isRefused : Reply → Bool
  | value (.error .refused) | space (.error .refused) => true
  | _ => false

/-- Answers a request with a supply that meets its demands. -/
def Request.answerBy (supply : Supply) : Request → Session → Reply × Session
  | var path names, s => (s.varBy supply path names).map .value id
  | unit path, s => (s.unitBy supply path).map .space id
  | interactiveSection path module, s => (s.sectionBy supply path module).map .space id
  | call function args, s => (s.callBy supply function args).map .value id

/-- Answers requests one after another, each with its own fuel, under a watch. -/
def Session.serve (watch : Watch) : List (Nat × Request) → Session → List Reply × Session
  | [], s => ([], s)
  | (fuel, request) :: rest, s =>
    let (reply, s) := request.answerBy (.watched watch fuel) s
    let (replies, s) := serve watch rest s
    (reply :: replies, s)

variable {a : Analysis} {K : FunctionId → Ty → Prop} {s : Session} {supply supply' : Supply}

/-- The session belongs to the analysis, and its memory agrees with it. -/
structure Session.Ok (a : Analysis) (K : FunctionId → Ty → Prop) (s : Session) : Prop where
  analysis : s.analysis = a
  memory : MemoryGood a K s.memory
  attached : s.memory.Attached K s.units

/-- The second session is the first one at a later time. Where fuel has run out, cells may be left
as they are while they are computed. -/
structure Session.Later (s s' : Session) : Prop where
  analysis : s'.analysis = s.analysis
  units : s'.units = s.units
  grows : s.memory.Grows s'.memory
  busy : ∀ id, (s.memory.cell id).evaluating = true → (s'.memory.cell id).evaluating = true

theorem Session.Later.refl (s : Session) : s.Later s := ⟨rfl, rfl, .refl _, fun _ h => h⟩

theorem Session.Later.trans {s s' s'' : Session} (h : s.Later s')
    (h' : s'.Later s'') : s.Later s'' :=
  ⟨h'.analysis.trans h.analysis, h'.units.trans h.units, h.grows.trans h'.grows,
    fun id busy => h'.busy id (h.busy id busy)⟩

/-- The answer is a result, an exception that is not an internal error, or missing for want of
fuel. -/
def Reply.Ordinary : Reply → Prop
  | value (.error stop) | space (.error stop) => stop.Ordinary
  | _ => True

theorem Reply.Ordinary.plain {reply : Reply} (h : reply.Ordinary) : reply.isRefused = false ∧
    ∀ e, reply.exception? = some e → e.code ≠ .internalError := by
  rcases reply with (stop | v) | (stop | v)
  all_goals first
    | exact ⟨rfl, fun e he => by cases he⟩
    | cases stop with
      | raised e =>
        refine ⟨rfl, fun e' he => ?_⟩
        cases he
        exact h
      | exhausted => exact ⟨rfl, fun e he => by cases he⟩
      | refused => exact absurd h id

/-- Nobody has asked for the cell yet, and it has not been bound. -/
structure Cell.Blank (c : Cell) : Prop where
  empty : c.value = none
  sound : c.failure = none
  idle : c.evaluating = false

/-- Nothing has been asked for yet. -/
def Memory.Blank (m : Memory) : Prop := ∀ id, (m.cell id).Blank

theorem Memory.not_hasCell_of_spaces {m : Memory} (h : m.spaces = Memory.initial.spaces)
    (id : CellId) :
    ¬m.HasCell id := by
  intro has
  have lt : id.space < 1 := Nat.lt_of_lt_of_eq has.1 (congrArg Array.size h)
  have slot := has.2
  rw [Memory.space, h, Nat.lt_one_iff.mp lt] at slot
  exact absurd slot (Nat.not_lt_zero _)

/-- The detached space belongs to the global scope. -/
theorem Memory.scope_of_spaces {m : Memory} (h : m.spaces = Memory.initial.spaces)
    (space : SpaceId) :
    (m.space space).template.scope = Analysis.globalScope := by
  rw [Memory.space, h]
  cases space <;> rfl

theorem Memory.blank_of_spaces {m : Memory} (h : m.spaces = Memory.initial.spaces) : m.Blank := by
  intro id
  rw [Memory.cell_eq_default (not_hasCell_of_spaces h id)]
  exact ⟨rfl, rfl, rfl⟩

namespace Session

/-! ## The start -/

/-- Laying out asks for nothing. -/
theorem keeps_blank {T : Table ScopeId Code.Template} : Layout.Keeps a T Memory.Blank where
  newSpace {m σ t} enclosing blank _ _ _ _ id := by
    rw [Memory.cell, Memory.space_newSpace]
    split
    · rw [Array.getD_eq_getD_getElem?]
      show Cell.Blank ((((t.slots.map Cell.ofSlot).toArray)[id.slot]?).getD default)
      rw [List.getElem?_toArray, List.getElem?_map]
      cases t.slots[id.slot]? with
      | none => exact ⟨rfl, rfl, rfl⟩
      | some slot => exact ⟨rfl, rfl, rfl⟩
    · exact blank id
  setMembers {m id space σ} blank has _ _ _ other := by
    rw [Memory.cell_modifyCell has]
    split
    · exact ⟨(blank id).empty, (blank id).sound, (blank id).idle⟩
    · exact blank other

/-- Laying out creates no functions. -/
theorem keeps_literal {T : Table ScopeId Code.Template} : Layout.Keeps a T Memory.Literal where
  newSpace _ literal _ _ _ _ := literal
  setMembers literal _ _ _ _ := literal

/-- Only what stands outside all functions and blocks is laid out beforehand. -/
theorem keeps_static {T : Table ScopeId Code.Template}
    (templates : ∀ σ t, T.get? σ = some t → t.Ok a K σ) :
    Layout.Keeps a T fun m => ∀ space, ¬m.Anew a space where
  newSpace {m σ t} enclosing static _ found kind _ space := by
    obtain ⟨scope, -, -⟩ := (Code.template_ok_iff t).mp (templates σ t found)
    rw [Memory.Anew, Memory.space_newSpace]
    split
    · show ¬(a.arena.scope t.scope).kind.isDynamic = true
      rw [scope, kind]
      exact Bool.false_ne_true
    · exact static space
  setMembers {m id space σ} static _ _ _ _ other := by
    rw [Memory.Anew, (Memory.space_modifyCell_later m id _ other).template]
    exact static other

/-- Memory keeps agreeing with analysis while it is laid out, and no space is dropped. -/
theorem keeps_memoryGood {T : Table ScopeId Code.Template} (rooted : a.Rooted)
    (templates : ∀ σ t, T.get? σ = some t → t.Ok a K σ) :
    Layout.Keeps a T fun m => MemoryGood a K m ∧ ∀ id, id < m.spaces.size → id ∈ m.held where
  newSpace {m σ t} enclosing holds around found static ne := by
    obtain ⟨ok, alive⟩ := holds
    have template := templates σ t found
    obtain ⟨rfl, -, -⟩ := (Code.template_ok_iff t).mp template
    refine ⟨⟨ok.newSpace (fun he => absurd he (rooted.ne_global ne))
      (fun _ => ⟨Space.laid_ofTemplate template _ _, fun n kind => ?_, fun n kind => ?_⟩)
        fun e outer => alive e (around e outer),
      fun cl i cell found => (ok.waits cl i cell found).later (Memory.grows_newSpace _ _)
        (Memory.evaluating_newSpace _
          (fun i c hc => (Space.open_ofTemplate t _ _ i c hc).idle) cell)⟩, fun id known => ?_⟩
    rotate_left 2
    · rw [Memory.size_spaces_newSpace] at known
      rcases Nat.lt_succ_iff_lt_or_eq.mp known with old | rfl
      · exact List.mem_cons_of_mem _ (alive id old)
      · exact List.mem_cons_self ..
    all_goals
      change (a.arena.scope t.scope).kind = _ at kind
      rw [kind] at static
      cases static
  setMembers {m id space σ} holds has bare members _ := by
    obtain ⟨ok, alive⟩ := holds
    have later :
        (m.cell id).Later ((fun c : Cell => { c with members := some space }) (m.cell id)) := by
      refine ⟨rfl, fun s hs => ?_, fun v hv => hv, fun e he => he⟩
      rw [bare] at hs
      cases hs
    refine ⟨⟨ok.modifyCell has later fun τ ok => ⟨ok.shape, ok.value, ok.failure,
      ⟨ok.consistent.busy, ok.consistent.single⟩, fun plain => ?_⟩,
      fun cl i cell found => (ok.waits cl i cell found).later
        (Memory.grows_modifyCell has later) ?_⟩,
      fun other known => alive other (by rwa [Memory.size_spaces_modifyCell] at known)⟩
    rotate_left
    · rw [Memory.cell_modifyCell has]
      split
      · next he => rw [he]
      · rfl
    change (m.cell id).shape.members = none at plain
    rw [members] at plain
    cases plain

/-- A session begins once its program is laid out. -/
theorem start_of_program {options : Code.Options} {units : UnitSet} {space : SpaceId} {l : Layout}
    (laid : Layout.program a.arena (Compiler.program ⟨a, options⟩ units ⟨.initial, []⟩).2.templates
      ⟨(Compiler.program ⟨a, options⟩ units ⟨.initial, []⟩).2.memory, []⟩ = .ok (space, l)) :
    start options units a = .ok ⟨a, l.memory, space, []⟩ := by
  simp only [start, StateT.run, laid]
  rfl

/-- The session begins with what a program was compiled to, laid out. -/
structure Begins (a : Analysis) (units : UnitSet) (c : Compiling) (l : Layout)
    (s : Session) : Prop where
  analysis : s.analysis = a
  memory : s.memory = l.memory
  compiled : Compiler.Compiled a units c
  bare : ∀ id, ¬c.memory.HasCell id
  plans : Layout.Plans a c.templates
  lays : Layout.Lays (fun m => (MemoryGood a c.memory.Returns m ∧ ∀ id, id < m.spaces.size →
    id ∈ m.held) ∧
    m.Blank ∧ m.Literal ∧ ∀ space, ¬m.Anew a space) c.templates [] ⟨c.memory, []⟩ l
  new : c.memory.spaces.size ≤ s.units
  known : s.units < l.memory.spaces.size
  scope : (l.memory.space s.units).template.scope = Analysis.unitsScope

/-- A session of an accepted program begins. -/
theorem start_begins {units : UnitSet} (options : Code.Options) (numbered : units.Numbered)
    (accepts : a.Accepts units) : ∃ c l s, start options units a = .ok s ∧
      Begins a units c l s := by
  have compiled := Compiler.program_ok (c := ⟨a, options⟩) numbered accepts
  obtain ⟨c, hc⟩ : ∃ c, c = (Compiler.program ⟨a, options⟩ units ⟨.initial, []⟩).2 := ⟨_, rfl⟩
  rw [← hc] at compiled
  have known : ∀ id ty, c.memory.Returns id ty → c.memory.Returns id ty := fun _ _ h => h
  have templates := compiled.template _ known
  have plans : Layout.Plans a c.templates := by
    refine ⟨accepts.toRooted, fun σ t found => ?_,
      fun s σ members => compiled.template_of_members accepts members⟩
    obtain ⟨scope, symbols, slots⟩ := (Code.template_ok_iff t).mp (templates σ t found)
    exact ⟨scope, symbols, fun slot mem => (slots slot mem).members⟩
  have spares : Memory.initial.Spares c.memory := by
    rw [hc]
    exact (Compiler.program_keeps units ⟨.initial, []⟩).spares
  have blank := Memory.blank_of_spaces spares.spaces
  have literal := spares.literal fun id lt => absurd lt (Nat.not_lt_zero id)
  have alive : ∀ id, id < c.memory.spaces.size → id ∈ c.memory.held := fun id known => by
    rw [spares.spaces] at known
    rw [spares.held]
    exact List.mem_singleton.mpr (Nat.lt_one_iff.mp known)
  have static : ∀ space, ¬c.memory.Anew a space := fun space => by
    rw [Memory.Anew, Memory.scope_of_spaces spares.spaces, accepts.global]
    exact Bool.false_ne_true
  obtain ⟨space, l, laid, lays, new, lt, scope⟩ := Layout.program_lays plans
    ((keeps_memoryGood accepts.toRooted templates).and
      (keeps_blank.and (keeps_literal.and (keeps_static templates)))) compiled.root
    ⟨⟨compiled.memory _ known, alive⟩, blank, literal, static⟩
  exact ⟨c, l, _, start_of_program (by rw [← hc]; exact laid), rfl, rfl, compiled,
    Memory.not_hasCell_of_spaces spares.spaces, plans, lays, new, lt, scope⟩

/-- A session that begins has a memory that agrees with analysis. -/
theorem Begins.ok {units : UnitSet} {c : Compiling} {l : Layout} (h : Begins a units c l s) :
    s.Ok a c.memory.Returns := by
  obtain ⟨analysis, memory, -, bare, -, lays, -, lt, scope⟩ := h
  refine ⟨analysis, ?_, ?_⟩
  · rw [memory]
    exact lays.memory.1.1
  rw [memory]
  refine ⟨lt, scope, fun id σ has members => ?_, fun id ty returns => returns.grows lays.grows⟩
  -- There were no cells before the layout.
  by_cases old : id.space < c.memory.spaces.size
  · exact absurd ⟨old, by rw [← (lays.grows.space _ old).size]; exact has.2⟩ (bare id)
  · obtain ⟨inner, there, -, known, scope⟩ := lays.fresh id (Nat.le_of_not_lt old) has σ members
    exact ⟨inner, there, known, scope⟩

/-- A session begins with nothing asked for yet. -/
theorem Begins.blank {units : UnitSet} {c : Compiling} {l : Layout} (h : Begins a units c l s) :
    s.memory.Blank := by
  rw [h.memory]
  exact h.lays.memory.2.1

/-- A session begins with functions of literals only. -/
theorem Begins.literal {units : UnitSet} {c : Compiling} {l : Layout} (h : Begins a units c l s) :
    s.memory.Literal := by
  rw [h.memory]
  exact h.lays.memory.2.2.1

/-- A session begins with what stands outside all functions and blocks. -/
theorem Begins.static {units : UnitSet} {c : Compiling} {l : Layout} (h : Begins a units c l s)
    (space : SpaceId) : ¬s.memory.Anew a space := by
  rw [h.memory]
  exact h.lays.memory.2.2.2 space

/-- Every cell of a session that begins was laid out as planned. -/
theorem Begins.planned {units : UnitSet} {c : Compiling} {l : Layout} (h : Begins a units c l s)
    {id : CellId} (has : s.memory.HasCell id) : s.memory.Planned c.templates id.space := by
  rw [h.memory] at has ⊢
  refine h.lays.planned id.space (Nat.le_of_not_lt fun old => h.bare id ⟨old, ?_⟩) has.1
  rw [← (h.lays.grows.space _ old).size]
  exact has.2

/-- **A session of an accepted program begins, with a memory that agrees with analysis.** -/
theorem start_ok {units : UnitSet} (options : Code.Options) (numbered : units.Numbered)
    (accepts : a.Accepts units) : ∃ K s, start options units a = .ok s ∧ s.Ok a K := by
  obtain ⟨c, l, s, started, begins⟩ := start_begins options numbered accepts
  exact ⟨_, s, started, begins.ok⟩

/-! ## Runs -/

/-- The machine on which a request runs. -/
def machine (s : Session) : Machine := ⟨s.memory, .ofUnits s.units⟩

theorem Ok.good (ok : s.Ok a K) : s.machine.Good a K := by
  refine ⟨⟨ok.memory.toMemoryOk, fun d hd => (by cases hd), fun units hu => ?_⟩, ok.memory.waits,
    fun d hd => (by cases hd)⟩
  cases hu
  exact ok.attached

/-- The request ends well: in a later session that is all right, with an ordinary answer. -/
structure Ends {α : Type} (a : Analysis) (K : FunctionId → Ty → Prop) (s : Session)
    (r : Answer α × Session) : Prop where
  ok : r.2.Ok a K
  later : s.Later r.2
  ordinary : ∀ stop, r.1 = .error stop → stop.Ordinary

theorem run_of_ok {α : Type} {x : Eval α} {v : α} {M : Machine} (h : x s.machine = .ok v M) :
    s.run x = (.ok v, { s with memory := M.memory }) := by
  show (let ran := s.machine.run x; (ran.1, { s with memory := ran.2.memory })) = _
  rw [Machine.run, h]

theorem run_of_error {α : Type} {x : Eval α} {stop : Stop} {M : Machine}
    (h : x s.machine = .error stop M) : s.run x = (.error stop, { s with memory := M.memory }) := by
  show (let ran := s.machine.run x; (ran.1, { s with memory := ran.2.memory })) = _
  rw [Machine.run, h]

/-- A step that is safe may be run. -/
theorem Ok.run {α : Type} {x y : Eval α} {post : α → Machine → Prop} (ok : s.Ok a K)
    (safe : Safe a K x y s.machine post) : s.run x = s.run y ∧ Ends a K s (s.run y) := by
  obtain ⟨same, outcome⟩ := safe
  have run_same : s.run x = s.run y := by
    show (let ran := s.machine.run x; (ran.1, { s with memory := ran.2.memory })) = _
    rw [Machine.run, same]
    rfl
  have kept : ∀ {M : Machine}, M.Good a K → s.machine.Grows M →
      Session.Ok a K { s with memory := M.memory } := by
    intro M good grows
    exact ⟨ok.analysis, good.memoryGood, good.attached s.units grows.units⟩
  refine ⟨run_same, ?_⟩
  cases hy : y s.machine with
  | ok v M =>
    rw [hy] at outcome
    rw [run_of_ok hy]
    obtain ⟨⟨good, grows, rests⟩, -⟩ := outcome
    refine ⟨kept good grows, ⟨rfl, rfl, grows.memory, fun id busy => ?_⟩,
      fun stop h => (by cases h)⟩
    exact (rests.evaluating id).trans busy
  | error e M =>
    rw [hy] at outcome
    rw [run_of_error hy]
    obtain ⟨good, grows, leaves⟩ := outcome
    refine ⟨kept good grows, ⟨rfl, rfl, grows.memory, fun id busy => ?_⟩, fun stop h => ?_⟩
    · cases e with
      | raised e => exact (leaves.2.evaluating id).trans busy
      | exhausted => exact leaves.2 id busy
      | refused => exact leaves.elim
    · cases h
      exact leaves.ordinary

/-- Reporting changes nothing but what is reported. -/
theorem report_eq {α : Type} (r : Answer α × Session) :
    (report r).1 = r.1 ∧ ∃ diagnostics, (report r).2 = { r.2 with diagnostics := diagnostics } := by
  unfold Session.report
  split
  · exact ⟨rfl, _, rfl⟩
  · exact ⟨rfl, _, rfl⟩

theorem Ends.report {α : Type} {r : Answer α × Session} (h : Ends a K s r) :
    Ends a K s (report r) := by
  obtain ⟨answer, diagnostics, session⟩ := report_eq r
  refine ⟨?_, ?_, by rw [answer]; exact h.ordinary⟩
  · rw [session]
    exact ⟨h.ok.analysis, h.ok.memory, h.ok.attached⟩
  · rw [session]
    exact ⟨h.later.analysis, h.later.units, h.later.grows, h.later.busy⟩

/-- A request about something that was looked up without an internal error. -/
theorem Ok.whenFound {α β : Type} {found : Except Exception β} {f g : β → Answer α × Session}
    (ok : s.Ok a K) (orderly : Orderly found)
    (h : ∀ b, found = .ok b → f b = g b ∧ Ends a K s (g b)) :
    s.whenFound found f = s.whenFound found g ∧ Ends a K s (s.whenFound found g) := by
  unfold Session.whenFound
  cases hf : found with
  | ok b => exact h b hf
  | error e =>
    refine ⟨rfl, ok, .refl s, fun stop hs => ?_⟩
    cases hs
    exact (orderly e hf).1

/-! ## Looking up -/

theorem cellAt_of_path {m : Memory} {missing : Exception} {space : SpaceId} {path : List Nat}
    {id : CellId} (h : m.Path space path id) : cellAt m missing space path = .ok id := by
  have cellIn : ∀ {space : SpaceId} {slot : Nat}, m.HasCell ⟨space, slot⟩ →
      m.cellIn space slot = .ok ⟨space, slot⟩ := by
    intro space slot has
    rw [Memory.cellIn_eq_ok_iff]
    exact ⟨has.2, rfl⟩
  induction h with
  | last has => exact cellIn has
  | step has members _ ih =>
    rw [cellAt, cellIn has]
    · simp only [bind, Except.bind, members]
      exact ih
    · exact fun h => by cases h

/-- A path of names denotes something that was declared. -/
theorem member?_known (rooted : a.Rooted) {path : String} {names : List String} {t : SymbolId}
    (unit : ∀ s, a.unit? path = some s → s < a.arena.symbols.size)
    (h : a.member? path names = some t) : t < a.arena.symbols.size := by
  have step : ∀ {s t : SymbolId} {name : String}, a.step? s name = some t →
      t < a.arena.symbols.size := by
    intro s t name h
    simp only [Analysis.step?, Option.bind_eq_bind, Option.bind_eq_some_iff,
      Option.or_eq_some_iff] at h
    obtain ⟨target, -, ⟨σ, -, found⟩ | ⟨-, σ, -, found⟩⟩ := h
    · exact (rooted.ready.name σ name t found).1
    · exact (rooted.ready.name σ name t found).1
  have walk : ∀ (names : List String) {s : SymbolId}, s < a.arena.symbols.size →
      names.foldlM a.step? s = some t → t < a.arena.symbols.size := by
    intro names
    induction names with
    | nil =>
      intro s known h
      cases h
      exact known
    | cons name rest ih =>
      intro s _ h
      rw [List.foldlM_cons, Option.bind_eq_bind, Option.bind_eq_some_iff] at h
      obtain ⟨next, first, h⟩ := h
      exact ih (step first) h
  simp only [Analysis.member?, Option.bind_eq_bind, Option.bind_eq_some_iff] at h
  obtain ⟨s, found, h⟩ := h
  exact walk names (unit s found) h

/-- **What a path of names is found to denote stays**: a cell, or nothing. -/
theorem Ok.find_eq (ok : s.Ok a K) {units : UnitSet} (accepts : a.Accepts units) (path : String)
    (names : List String) :
    (∃ e, (e.Ordinary ∧ e.thrown = none) ∧ ∀ s', s.Later s' → s'.find path names = .error e) ∨
      ∃ id, s.memory.Answers id ∧ ∀ s', s.Later s' → s'.find path names = .ok id := by
  cases hm : (a.member? path names).bind a.arena.targetOf? with
  | none =>
    refine .inl ⟨unresolved path names, ⟨Exception.ordinary_of _ (by decide), rfl⟩,
      fun s' later => ?_⟩
    simp only [Session.find, later.analysis, ok.analysis, hm]
  | some t =>
  cases hv : (a.arena.symbol t).target != .var with
  | true =>
    refine .inl ⟨notAValue path names, ⟨Exception.ordinary_of _ (by decide), rfl⟩,
      fun s' later => ?_⟩
    simp only [Session.find, later.analysis, ok.analysis, hm, hv, if_true]
  | false =>
  cases hp : a.arena.absolutePath? t with
  | none =>
    refine .inl ⟨unresolved path names, ⟨Exception.ordinary_of _ (by decide), rfl⟩,
      fun s' later => ?_⟩
    simp only [Session.find, later.analysis, ok.analysis, hm, hv, hp, Bool.false_eq_true, if_false]
  | some slots =>
    have known : t < a.arena.symbols.size := by
      rw [Option.bind_eq_some_iff] at hm
      obtain ⟨first, found, target⟩ := hm
      have declared := member?_known accepts.toRooted
        (fun s hs => (accepts.unit path s hs).1) found
      simp only [Arena.targetOf?] at target
      split at target
      · exact (accepts.ready.resolved first t target).1
      · cases target
        exact declared
    obtain ⟨id, leads, -, has, alive⟩ :=
      ok.attached.path ok.memory.toMemoryOk accepts.toRooted known
      (Arena.slotPath_of_slotPath? _ hp)
    refine .inr ⟨id, ⟨has, .inl alive⟩, fun s' later => ?_⟩
    simp only [Session.find, later.analysis, ok.analysis, hm, hv, hp, Bool.false_eq_true, if_false]
    rw [later.units]
    exact cellAt_of_path (leads.grows later.grows)

/-- **A definition that is found has a cell**, which may be asked for its value. -/
theorem Ok.find (ok : s.Ok a K) {units : UnitSet} (accepts : a.Accepts units) (path : String)
    (names : List String) :
    Orderly (s.find path names) ∧ ∀ id, s.find path names = .ok id → s.memory.Answers id := by
  rcases ok.find_eq accepts path names with ⟨e, ordinary, eq⟩ | ⟨id, answers, eq⟩
  · rw [eq s (.refl s)]
    refine ⟨fun e' he => ?_, fun id h => by cases h⟩
    cases he
    exact ordinary
  · rw [eq s (.refl s)]
    refine ⟨orderly_ok _, fun id' h => ?_⟩
    cases h
    exact answers

/-- **The space of a unit stays.** -/
theorem Ok.unitSpace_eq (ok : s.Ok a K) {units : UnitSet} (accepts : a.Accepts units)
    {path : String} {unit : SymbolId} (found : a.unit? path = some unit) : ∃ σ space,
      (a.arena.symbol unit).members = some σ ∧ (s.memory.space space).template.scope = σ ∧
      space < s.memory.spaces.size ∧ s.memory.HasCell ⟨s.units, (a.arena.symbol unit).slot⟩ ∧
      (s.memory.cell ⟨s.units, (a.arena.symbol unit).slot⟩).members = some space ∧
      ∀ s', s.Later s' → s'.unitSpace path = .ok space := by
  obtain ⟨known, home, members⟩ := accepts.unit path unit found
  obtain ⟨σ, hσ⟩ := Option.isSome_iff_exists.mp members
  have slot := accepts.ready.placed unit known
  rw [home] at slot
  have ne : Analysis.unitsScope ≠ Analysis.globalScope := by decide
  obtain ⟨has, of⟩ := ok.memory.hasCell ok.attached.space ok.attached.scope ne slot
  have shape := (ok.memory.cell has).shape.members
  rw [of, hσ] at shape
  obtain ⟨space, there, lt, scope⟩ := ok.attached.members _ σ has shape
  refine ⟨σ, space, hσ, scope, lt, has, there, fun s' later => ?_⟩
  have cellIn : s'.memory.cellIn s'.units (a.arena.symbol unit).slot =
      .ok ⟨s.units, (a.arena.symbol unit).slot⟩ := by
    rw [Memory.cellIn_eq_ok_iff, later.units]
    exact ⟨(has.grows later.grows).2, rfl⟩
  have members' := (later.grows.cell _ has.1).members space there
  simp only [Session.unitSpace, later.analysis, ok.analysis, found, cellIn, bind,
    Except.bind, members']
  rfl

/-- **A unit that is found has a space**, which is laid out once. -/
theorem Ok.unitSpace (ok : s.Ok a K) {units : UnitSet} (accepts : a.Accepts units) (path : String) :
    Orderly (s.unitSpace path) ∧ ∀ id, s.unitSpace path = .ok id → s.memory.Lasting a id := by
  cases hu : a.unit? path with
  | none =>
    simp only [Session.unitSpace, ok.analysis, hu]
    exact ⟨orderly_of (by decide), fun id h => by cases h⟩
  | some unit =>
    obtain ⟨-, space, -, -, -, -, members, eq⟩ := ok.unitSpace_eq accepts hu
    rw [eq s (.refl s)]
    refine ⟨orderly_ok _, fun id h => ?_⟩
    cases h
    exact ok.attached.lasting ok.memory.toMemoryOk accepts.toRooted members

/-- So has a section. -/
theorem Ok.sectionSpace (ok : s.Ok a K) {units : UnitSet} (accepts : a.Accepts units)
    (path module : String) : Orderly (s.sectionSpace path module) ∧
      ∀ id, s.sectionSpace path module = .ok id → s.memory.Lasting a id := by
  unfold Session.sectionSpace
  refine ⟨(ok.unitSpace accepts path).1.bind fun unit => ?_, fun id found => ?_⟩
  · split
    · exact orderly_ok _
    · exact orderly_of (by decide)
  · cases hu : s.unitSpace path with
    | error e =>
      rw [hu] at found
      cases found
    | ok unit =>
      simp only [hu, bind, Except.bind] at found
      split at found
      · next hm =>
        cases found
        obtain ⟨cell, -, members⟩ := Option.bind_eq_some_iff.mp hm
        exact ok.attached.lasting ok.memory.toMemoryOk accepts.toRooted members
      · cases found

/-! ## Requests -/

/-- What is done with one cell when all definitions in its space are asked for. -/
def forceCell (supply : Supply) (inner : SpaceId → Eval PUnit) (id : CellId) : Eval PUnit := do
  let cell := (← Eval.memory).cell id
  match cell.members with
  | some members => inner members
  | none => if cell.shape.init.isSome then discard (supply (.force id))

theorem forceAll_succ (supply : Supply) (depth : Nat) (space : SpaceId) :
    forceAll supply (depth + 1) space = (Eval.memory >>= fun m =>
      (m.cellsOf space).forM (forceCell supply (forceAll supply depth))) := rfl

theorem forceCell_safe (serves : supply.Serves a K supply') {inner inner' : SpaceId → Eval PUnit}
    {M : Machine} (good : M.Good a K) (rooted : a.Rooted) (attached : M.context.units.isSome = true)
    {id : CellId} (answers : M.memory.Answers id)
    (rest : ∀ space, M.memory.Lasting a space →
      Safe a K (inner space) (inner' space) M fun _ _ => True) :
    Safe a K (forceCell supply inner id) (forceCell supply' inner' id) M fun _ _ => True := by
  refine Safe.memory ?_
  simp only
  split
  · next members there =>
    obtain ⟨units, hu⟩ := Option.isSome_iff_exists.mp attached
    exact rest members ((good.attached units hu).lasting good.memory rooted there)
  · split
    · exact (serves.force M id good attached answers).bind fun _ _ good' _ _ => .pure good' trivial
    · exact .pure good trivial

/-- The cells of a space that is laid out once may be asked for their values at any time. -/
theorem answers_of_mem {M M' : Machine} {space : SpaceId} (lasts : M.memory.Lasting a space)
    {id : CellId} (mem : id ∈ M.memory.cellsOf space) (good' : M'.Good a K) (grows : M.Grows M') :
    M'.memory.Answers id := by
  refine ⟨(Memory.hasCell_of_mem mem).grows grows.memory, .inl ?_⟩
  rw [(Memory.mem_cellsOf.mp mem).1]
  exact good'.memory.lasting _ (lasts.grows grows.memory)

/-- All definitions in a space that is laid out once are asked for. -/
theorem forceAll_safe (serves : supply.Serves a K supply') (rooted : a.Rooted) (depth : Nat)
    (space : SpaceId) {M : Machine} (good : M.Good a K) (attached : M.context.units.isSome = true)
    (lasts : M.memory.Lasting a space) :
    Safe a K (forceAll supply depth space) (forceAll supply' depth space) M fun _ _ => True := by
  induction depth generalizing space M with
  | zero => exact .pure good trivial
  | succ depth ih =>
    rw [forceAll_succ, forceAll_succ]
    refine Safe.memory (Safe.forM (P := fun _ => True) _ good trivial
      fun id mem M' good' grows' _ => ?_)
    have attached' : M'.context.units.isSome = true := by
      rw [grows'.units]
      exact attached
    exact forceCell_safe serves good' rooted attached' (answers_of_mem lasts mem good' grows')
      fun inner lasts' => ih inner good' attached' lasts'

theorem Ok.spaceBy (serves : supply.Serves a K supply') (rooted : a.Rooted) (ok : s.Ok a K)
    {found : Except Exception SpaceId}
    (leads : Orderly found ∧ ∀ id, found = .ok id → s.memory.Lasting a id) :
    s.spaceBy supply found = s.spaceBy supply' found ∧ Ends a K s (s.spaceBy supply' found) := by
  refine ok.whenFound leads.1 fun id hid => ?_
  have safe : Safe a K (forceAll supply s.memory.spaces.size id >>= fun _ => pure id)
      (forceAll supply' s.memory.spaces.size id >>= fun _ => pure id) s.machine fun _ _ => True :=
    (forceAll_safe serves rooted _ id ok.good rfl (leads.2 id hid)).bind fun _ _ good _ _ =>
      .pure good trivial
  obtain ⟨same, ends⟩ := ok.run safe
  exact ⟨congrArg Session.report same, ends.report⟩

end Session

/-- **Any request may be made**: it is answered alike by both supplies, and ends well. -/
theorem Request.answerBy_ok (serves : supply.Serves a K supply') {units : UnitSet}
    (accepts : a.Accepts units) (ok : s.Ok a K) (request : Request) :
    request.answerBy supply s = request.answerBy supply' s ∧
      (request.answerBy supply' s).1.Ordinary ∧ (request.answerBy supply' s).2.Ok a K ∧
      s.Later (request.answerBy supply' s).2 := by
  -- What is known of an answer is known of the reply with it.
  have value : ∀ {r r' : Answer Value × Session}, r = r' ∧ Session.Ends a K s r' →
      r.map Reply.value id = r'.map Reply.value id ∧ (r'.map Reply.value id).1.Ordinary ∧
        (r'.map Reply.value id).2.Ok a K ∧ s.Later (r'.map Reply.value id).2 := by
    rintro r ⟨answer, s'⟩ ⟨rfl, kept, later, ordinary⟩
    refine ⟨rfl, ?_, kept, later⟩
    cases answer with
    | ok v => trivial
    | error stop => exact ordinary stop rfl
  have space : ∀ {r r' : Answer SpaceId × Session}, r = r' ∧ Session.Ends a K s r' →
      r.map Reply.space id = r'.map Reply.space id ∧ (r'.map Reply.space id).1.Ordinary ∧
        (r'.map Reply.space id).2.Ok a K ∧ s.Later (r'.map Reply.space id).2 := by
    rintro r ⟨answer, s'⟩ ⟨rfl, kept, later, ordinary⟩
    refine ⟨rfl, ?_, kept, later⟩
    cases answer with
    | ok v => trivial
    | error stop => exact ordinary stop rfl
  cases request with
  | var path names =>
    obtain ⟨orderly, answers⟩ := ok.find accepts path names
    refine value (ok.whenFound orderly fun id found => ?_)
    obtain ⟨same, ends⟩ := ok.run (serves.force s.machine id ok.good rfl (answers id found))
    exact ⟨congrArg Session.report same, ends.report⟩
  | unit path => exact space (ok.spaceBy serves accepts.toRooted (ok.unitSpace accepts path))
  | interactiveSection path module =>
    exact space (ok.spaceBy serves accepts.toRooted (ok.sectionSpace accepts path module))
  | call function args =>
    exact value (ok.run (Eval.callBound_safe serves ok.good rfl function args))

/-! ## What a request leaves behind -/

/-- What is evaluated to answer a request, if what it is about is found. -/
def Request.work (supply : Supply) (s : Session) : Request → Except Exception (Eval PUnit)
  | var path names => (s.find path names).map fun id => discard (supply (.force id))
  | unit path => (s.unitSpace path).map (Session.forceAll supply s.memory.spaces.size)
  | interactiveSection path module =>
    (s.sectionSpace path module).map (Session.forceAll supply s.memory.spaces.size)
  | call function args => .ok (discard (Eval.callBound supply function args))

namespace Session

/-- The machine in which the work ends. -/
def after (s : Session) : Except Exception (Eval PUnit) → Machine
  | .ok x => (s.machine.run x).2
  | .error _ => s.machine

/-- The answer is that to the work, and memory is left to the requests that follow. -/
structure Does {α : Type} (s : Session) (work : Except Exception (Eval PUnit))
    (r : Answer α × Session) :
    Prop where
  memory : r.2.memory = (s.after work).memory
  arrives : r.1.Arrives → ∀ x, work = .ok x → (s.machine.run x).1.Arrives

/-- A step whose result is turned into another one. -/
theorem does_run {α β : Type} (x : Eval α) (f : α → β) {M : Machine} :
    (M.run (x >>= fun v => pure (f v))).2 = (M.run x).2 ∧
      ((M.run (x >>= fun v => pure (f v))).1.Arrives ↔ (M.run x).1.Arrives) := by
  cases hx : x M with
  | ok v M' =>
    have hy : (x >>= fun v => (pure (f v) : Eval β)) M = .ok (f v) M' :=
      (Eval.bind_of_ok hx _).trans rfl
    rw [Machine.run, Machine.run, hx, hy]
    exact ⟨rfl, Iff.rfl⟩
  | error stop M' =>
    have hy : (x >>= fun v => (pure (f v) : Eval β)) M = .error stop M' := Eval.bind_of_error hx _
    rw [Machine.run, Machine.run, hx, hy]
    refine ⟨rfl, ?_⟩
    cases stop <;> exact Iff.rfl

/-- The result of a step is not looked at. -/
theorem does_discard {α : Type} (x : Eval α) : s.Does (.ok (discard x)) (s.run x) := by
  obtain ⟨same, arrives⟩ := does_run (M := s.machine) x fun _ => PUnit.unit
  refine ⟨congrArg Machine.memory same.symm, fun h z hz => ?_⟩
  cases hz
  exact arrives.mpr h

/-- A step is taken, and its answer known beforehand. -/
theorem does_returning {α : Type} (y : Eval PUnit) (v : α) :
    s.Does (.ok y) (s.run (y >>= fun _ => pure v)) := by
  obtain ⟨same, arrives⟩ := does_run (M := s.machine) y fun _ => v
  refine ⟨congrArg Machine.memory same, fun h z hz => ?_⟩
  cases hz
  exact arrives.mp h

theorem Does.report {α : Type} {work : Except Exception (Eval PUnit)} {r : Answer α × Session}
    (h : s.Does work r) : s.Does work (report r) := by
  obtain ⟨answer, diagnostics, session⟩ := report_eq r
  refine ⟨?_, by rw [answer]; exact h.arrives⟩
  rw [session]
  exact h.memory

theorem does_whenFound {α β : Type} {found : Except Exception β} {f : β → Answer α × Session}
    {g : β → Eval PUnit} (h : ∀ b, s.Does (.ok (g b)) (f b)) :
    s.Does (found.map g) (s.whenFound found f) := by
  cases found with
  | ok b => exact h b
  | error e => exact ⟨rfl, fun _ x hx => by cases hx⟩

end Session

/-- **A request does its work.** -/
theorem Request.answerBy_does (supply : Supply) (s : Session) (request : Request) :
    (request.answerBy supply s).2.memory = (s.after (request.work supply s)).memory ∧
      ((request.answerBy supply s).1.Arrives →
        ∀ x, request.work supply s = .ok x → (s.machine.run x).1.Arrives) := by
  have value : ∀ {work : Except Exception (Eval PUnit)} {r : Answer Value × Session},
      s.Does work r → (r.map Reply.value id).2.memory = (s.after work).memory ∧
        ((r.map Reply.value id).1.Arrives → ∀ x, work = .ok x → (s.machine.run x).1.Arrives) :=
    fun does => ⟨does.memory, does.arrives⟩
  have space : ∀ found : Except Exception SpaceId,
      s.Does (found.map (Session.forceAll supply s.memory.spaces.size)) (s.spaceBy supply found) :=
    fun found => Session.does_whenFound fun id => (Session.does_returning _ id).report
  cases request with
  | var path names => exact value (Session.does_whenFound fun id => (Session.does_discard _).report)
  | unit path => exact ⟨(space _).memory, (space _).arrives⟩
  | interactiveSection path module => exact ⟨(space _).memory, (space _).arrives⟩
  | call function args => exact value (Session.does_discard _)

/-- The work of a request is safe. -/
theorem Request.work_safe (serves : supply.Serves a K supply') {units : UnitSet}
    (accepts : a.Accepts units) (ok : s.Ok a K) (request : Request) {y : Eval PUnit}
    (hw : request.work supply' s = .ok y) : ∃ x, request.work supply s = .ok x ∧
      Safe a K x y s.machine fun _ _ => True := by
  have discarded : ∀ {x y : Eval Value} {P : Value → Machine → Prop}, Safe a K x y s.machine P →
      Safe a K (discard x) (discard y) s.machine fun _ _ => True := fun safe =>
    safe.bind fun _ _ good _ _ => .pure good trivial
  have space : ∀ {found : Except Exception SpaceId}, (∀ id, found = .ok id →
    s.memory.Lasting a id) →
      found.map (Session.forceAll supply' s.memory.spaces.size) = .ok y →
      ∃ x, found.map (Session.forceAll supply s.memory.spaces.size) = .ok x ∧
        Safe a K x y s.machine fun _ _ => True := by
    intro found lasts h
    cases found with
    | error e => cases h
    | ok id =>
      cases h
      exact ⟨_, rfl, Session.forceAll_safe serves accepts.toRooted _ id ok.good rfl (lasts id rfl)⟩
  cases request with
  | var path names =>
    have answers := (ok.find accepts path names).2
    cases hf : s.find path names with
    | error e =>
      rw [work, hf] at hw
      cases hw
    | ok id =>
      rw [work, hf] at hw ⊢
      cases hw
      exact ⟨_, rfl, discarded (serves.force s.machine id ok.good rfl (answers id hf))⟩
  | unit path => exact space (ok.unitSpace accepts path).2 hw
  | interactiveSection path module => exact space (ok.sectionSpace accepts path module).2 hw
  | call function args =>
    cases hw
    exact ⟨_, rfl, discarded (Eval.callBound_safe serves ok.good rfl function args)⟩

/-- Nothing is being computed. -/
def Memory.Idle (m : Memory) : Prop := ∀ id, (m.cell id).evaluating = false

/-- **Nothing is left under way by a request whose answer arrives.** -/
theorem Request.after_rests (serves : supply.Serves a K supply') {units : UnitSet}
    (accepts : a.Accepts units) (ok : s.Ok a K) (request : Request)
    (arrives : (request.answerBy supply' s).1.Arrives) :
    Machine.Passes a K s.machine (s.after (request.work supply' s)) := by
  cases hw : request.work supply' s with
  | error e => exact ok.good.passes
  | ok y =>
    have came := (request.answerBy_does supply' s).2 arrives y hw
    obtain ⟨-, -, -, outcome⟩ := request.work_safe serves accepts ok hw
    show Machine.Passes a K s.machine (s.machine.run y).2
    unfold Machine.run at came ⊢
    cases hy : y s.machine with
    | ok v M =>
      rw [hy] at outcome
      exact outcome.1
    | error stop M =>
      rw [hy] at outcome came
      cases stop with
      | raised e => exact ⟨outcome.1, outcome.2.1, outcome.2.2.2⟩
      | exhausted => exact came.elim
      | refused => exact came.elim

namespace Session

/-- **Any sequence of requests may be made.** -/
theorem serve_ok {units : UnitSet} (accepts : a.Accepts units) {watch : Watch}
    (allows : watch.Allows a K) (requests : List (Nat × Request)) (ok : s.Ok a K) :
    s.serve watch requests = s.serve .idle requests ∧
      (∀ reply ∈ (s.serve .idle requests).1, reply.Ordinary) ∧ (s.serve .idle requests).2.Ok a K ∧
      s.Later (s.serve .idle requests).2 := by
  induction requests generalizing s with
  | nil => exact ⟨rfl, fun _ h => (by cases h), ok, .refl s⟩
  | cons first rest ih =>
    obtain ⟨fuel, request⟩ := first
    obtain ⟨same, ordinary, ok₁, later⟩ := request.answerBy_ok
      (Supply.serves accepts.toRooted allows fuel) accepts ok
    obtain ⟨same', ordinary', ok₂, later'⟩ := ih ok₁
    have eq : ∀ w : Watch, s.serve w ((fuel, request) :: rest) =
        ((request.answerBy (.watched w fuel) s).1 ::
          ((request.answerBy (.watched w fuel) s).2.serve w rest).1,
          ((request.answerBy (.watched w fuel) s).2.serve w rest).2) := fun _ => rfl
    rw [eq, eq, same]
    change _ ∧ (∀ reply ∈ (request.answerBy (.ofFuel fuel) s).1 :: _, _) ∧ _
    rw [show Supply.watched .idle fuel = .ofFuel fuel from rfl, same']
    exact ⟨rfl, List.forall_mem_cons.mpr ⟨ordinary, ordinary'⟩, ok₂, later.trans later'⟩

end Session

end CellScript
