import CellScript.Proofs.Eval.Audit
import CellScript.Proofs.Session.Definitions
import CellScript.Proofs.Session.Safety

/-!
# Cells of a session

A session begins with definitions that are all computed, and nothing else but them is asked for from
outside. So whatever is asked of it, no step of the evaluation is refused by an auditor: every cell
keeps the value or the failure that it has got, every operation, cell and call leaves the stack and
what is under way as it was, cells are bound only as long as they have no value, and none is looked
at before it has been bound.

* `Session.Begins.neat` — definitions are computed from the start
* `Session.Tidy` — the invariant of a session
* `Request.answerBy_tidy` — a request asks only for what is bound
* `Session.serveBy` — requests are answered by supplies of any kind
* `Session.cells_disciplined` — the auditor refuses nothing
-/

namespace CellScript

variable {a : Analysis} {K : FunctionId → Ty → Prop} {units : UnitSet} {s : Session}
  {supply supply' : Supply} {M : Machine}

/-- What is laid out once is not laid out anew. -/
theorem Memory.Lasting.not_anew {m : Memory} {space : SpaceId} (h : m.Lasting a space) :
    ¬m.Anew a space := by
  rw [Memory.Anew, h.static]
  exact Bool.false_ne_true

namespace Session

/-- **Definitions are computed from the start**, and nothing is under way. -/
theorem Begins.neat {c : Compiling} {l : Layout} (h : Begins a units c l s)
    (accepts : a.Accepts units) :
    s.memory.Neat a := by
  refine ⟨fun id withheld => ?_, fun id has _ => h.init_isSome accepts has,
    fun space e _ _ => h.static e⟩
  rcases withheld with busy | failed
  · rw [(h.blank id).idle] at busy
    cases busy
  · rw [(h.blank id).sound] at failed
    cases failed

/-- Between requests, memory agrees with analysis, and definitions are computed. -/
structure Tidy (a : Analysis) (K : FunctionId → Ty → Prop) (s : Session) :
    Prop extends s.Ok a K where
  neat : s.memory.Neat a

theorem Tidy.machine (h : s.Tidy a K) : s.machine.Tidy a K 0 := ⟨h.good, h.neat, Nat.zero_le _⟩

/-- Both requests are answered alike, and well, and definitions are still computed. -/
structure Accords {α : Type} (a : Analysis) (K : FunctionId → Ty → Prop) (s : Session)
    (r r' : Answer α × Session) : Prop extends Ends a K s r' where
  same : r = r'
  neat : r'.2.memory.Neat a

/-- A careful step may be run. -/
theorem Tidy.run {α : Type} {x y : Eval α} {P : α → Machine → Prop} (h : s.Tidy a K)
    (careful : Careful a K 0 x y s.machine P) : Accords a K s (s.run x) (s.run y) := by
  obtain ⟨same, ends⟩ := h.toOk.run careful.1
  refine ⟨ends, same, ?_⟩
  cases hy : y s.machine with
  | ok v M =>
    rw [run_of_ok hy]
    exact (careful.goes hy).1.neat
  | error stop M =>
    rw [run_of_error hy]
    exact (careful.2 stop M hy).neat

theorem Accords.report {α : Type} {r r' : Answer α × Session} (h : Accords a K s r r') :
    Accords a K s (report r) (report r') := by
  refine ⟨h.toEnds.report, congrArg Session.report h.same, ?_⟩
  obtain ⟨-, diagnostics, session⟩ := report_eq r'
  rw [session]
  exact h.neat

theorem Tidy.whenFound {α β : Type} {found : Except Exception β} {f g : β → Answer α × Session}
    (h : s.Tidy a K) (orderly : Orderly found) (rest : ∀ b, found = .ok b →
      Accords a K s (f b) (g b)) :
    Accords a K s (s.whenFound found f) (s.whenFound found g) := by
  obtain ⟨same, ends⟩ := h.toOk.whenFound orderly fun b hb => ⟨(rest b hb).same, (rest b hb).toEnds⟩
  refine ⟨ends, same, ?_⟩
  cases found with
  | ok b => exact (rest b rfl).neat
  | error e => exact h.neat

/-! ## Requests -/

theorem forceCell_careful (attends : supply.Attends a K supply') (rooted : a.Rooted)
    {inner inner' : SpaceId → Eval PUnit} (tidy : M.Tidy a K 0)
    (attached : M.context.units.isSome = true) {id : CellId} (has : M.memory.HasCell id)
    (lasts : M.memory.Lasting a id.space) (rest : ∀ space, M.memory.Lasting a space →
      Careful a K 0 (inner space) (inner' space) M fun _ _ => True) :
    Careful a K 0 (forceCell supply inner id) (forceCell supply' inner' id) M fun _ _ => True := by
  refine Careful.memory ?_
  simp only
  split
  · next members hm =>
    obtain ⟨units, hu⟩ := Option.isSome_iff_exists.mp attached
    exact rest members ((tidy.toGood.attached units hu).lasting tidy.toGood.memory rooted hm)
  · split
    · next init =>
      obtain ⟨op, computed⟩ := Option.isSome_iff_exists.mp init
      exact (attends.force tidy attached ⟨has, .inl (tidy.toGood.memory.lasting _ lasts)⟩ fun _ _ =>
        ⟨op, computed, tidy.neat.equips tidy.nests has.1 lasts.not_anew _⟩).bind tidy
          fun _ _ goes _ =>
          .pure (tidy.later goes) trivial
    · exact .pure tidy trivial

/-- All definitions in a space that is laid out once are asked for. -/
theorem forceAll_careful (attends : supply.Attends a K supply') (rooted : a.Rooted) (depth : Nat)
    {space : SpaceId} (tidy : M.Tidy a K 0) (attached : M.context.units.isSome = true)
    (lasts : M.memory.Lasting a space) :
    Careful a K 0 (forceAll supply depth space) (forceAll supply' depth space) M
      fun _ _ => True := by
  induction depth generalizing space M with
  | zero => exact .pure tidy trivial
  | succ depth ih =>
    rw [forceAll_succ, forceAll_succ]
    refine Careful.memory (Careful.forM (P := fun _ _ => True) _ tidy trivial
      fun done id rest split M' goes _ => ?_)
    have mem : id ∈ M.memory.cellsOf space := by
      rw [split]
      exact List.mem_append_right _ (List.mem_cons_self ..)
    have attached' : M'.context.units.isSome = true := by
      rw [goes.grows.units]
      exact attached
    have inside := (Memory.mem_cellsOf.mp mem).1
    exact forceCell_careful attends rooted (tidy.later goes) attached'
      ((Memory.hasCell_of_mem mem).grows goes.grows.memory)
      (by rw [inside]; exact lasts.grows goes.grows.memory)
      fun inner lasts' => ih (tidy.later goes) attached' lasts'

theorem Tidy.spaceBy (h : s.Tidy a K) (attends : supply.Attends a K supply') (rooted : a.Rooted)
    {found : Except Exception SpaceId}
    (leads : Orderly found ∧ ∀ id, found = .ok id → s.memory.Lasting a id) :
    Accords a K s (s.spaceBy supply found) (s.spaceBy supply' found) := by
  refine h.whenFound leads.1 fun id hid => ?_
  have all :=
    (forceAll_careful attends rooted s.memory.spaces.size h.machine rfl
      (leads.2 id hid)).bind h.machine
    (f := fun _ => pure id) (g := fun _ => pure id) (Q := fun _ _ => True) fun _ _ goes _ =>
      .pure (h.machine.later goes) trivial
  exact (h.run all).report

end Session

/-- **A request asks only for what is bound**, so that careful supplies answer it alike. -/
theorem Request.answerBy_tidy (attends : supply.Attends a K supply') (accepts : a.Accepts units)
    (h : s.Tidy a K) (request : Request) :
    request.answerBy supply s = request.answerBy supply' s ∧
      (request.answerBy supply' s).1.Ordinary ∧ (request.answerBy supply' s).2.Tidy a K ∧
        s.Later (request.answerBy supply' s).2 := by
  have rooted := accepts.toRooted
  have value : ∀ {r r' : Answer Value × Session}, Session.Accords a K s r r' →
      r.map Reply.value id = r'.map Reply.value id ∧ (r'.map Reply.value id).1.Ordinary ∧
        (r'.map Reply.value id).2.Tidy a K ∧ s.Later (r'.map Reply.value id).2 := by
    rintro r ⟨answer, s'⟩ ⟨⟨kept, later, ordinary⟩, rfl, neat⟩
    refine ⟨rfl, ?_, ⟨kept, neat⟩, later⟩
    cases answer with
    | ok v => trivial
    | error stop => exact ordinary stop rfl
  have space : ∀ {r r' : Answer SpaceId × Session}, Session.Accords a K s r r' →
      r.map Reply.space id = r'.map Reply.space id ∧ (r'.map Reply.space id).1.Ordinary ∧
        (r'.map Reply.space id).2.Tidy a K ∧ s.Later (r'.map Reply.space id).2 := by
    rintro r ⟨answer, s'⟩ ⟨⟨kept, later, ordinary⟩, rfl, neat⟩
    refine ⟨rfl, ?_, ⟨kept, neat⟩, later⟩
    cases answer with
    | ok v => trivial
    | error stop => exact ordinary stop rfl
  cases request with
  | var path names =>
    refine value (h.whenFound (h.toOk.find accepts path names).1 fun id found => ?_)
    obtain ⟨has, definition⟩ := h.toOk.definition_of_find accepts found
    have static : ¬s.memory.Anew a id.space := by
      obtain ⟨o, kind⟩ := definition.static
      rw [Memory.Anew, h.toOk.memory.scope_of_symbol rooted has rfl, kind]
      exact Bool.false_ne_true
    have askable := h.neat.askable h.machine.nests has static definition.isVariable
    exact (h.run (attends.force h.machine rfl ((h.toOk.find accepts path names).2 id found)
      askable)).report
  | unit path =>
    exact space (h.spaceBy attends rooted (h.toOk.unitSpace accepts path))
  | interactiveSection path module =>
    exact space (h.spaceBy attends rooted (h.toOk.sectionSpace accepts path module))
  | call function args =>
    exact value (h.run (Eval.callBound_careful attends h.machine rfl function args))

/-! ## Sequences of requests -/

namespace Session

/-- Answers requests one after another, with supplies that depend on the fuel of each. -/
def serveBy (supplies : Nat → Supply) : List (Nat × Request) → Session → List Reply × Session
  | [], s => ([], s)
  | (fuel, request) :: rest, s =>
    let (reply, s) := request.answerBy (supplies fuel) s
    let (replies, s) := serveBy supplies rest s
    (reply :: replies, s)

/-- Under a watch, demands are met by the supplies that watch. -/
theorem serve_eq (watch : Watch) (requests : List (Nat × Request)) (s : Session) :
    s.serve watch requests = s.serveBy (.watched watch) requests := by
  induction requests generalizing s with
  | nil => rfl
  | cons first rest ih =>
    obtain ⟨fuel, request⟩ := first
    simp only [serve, serveBy, ih]

/-- **The auditor refuses nothing**, whatever is asked. -/
theorem Tidy.serveBy_audited (h : s.Tidy a K) (accepts : a.Accepts units)
    (requests : List (Nat × Request)) :
    s.serveBy .audited requests = s.serve .idle requests ∧
      (∀ reply ∈ (s.serve .idle requests).1, reply.Ordinary) ∧ (s.serve .idle requests).2.Tidy a K ∧
      s.Later (s.serve .idle requests).2 := by
  rw [serve_eq]
  induction requests generalizing s with
  | nil => exact ⟨rfl, fun _ h => (by cases h), h, .refl s⟩
  | cons first rest ih =>
    obtain ⟨fuel, request⟩ := first
    obtain ⟨same, ordinary, tidy₁, later⟩ := request.answerBy_tidy
      (Supply.audited_attends (K := K) accepts.toRooted fuel) accepts h
    obtain ⟨same', ordinary', tidy₂, later'⟩ := ih tidy₁
    have eq : ∀ supplies : Nat → Supply, s.serveBy supplies ((fuel, request) :: rest) =
        ((request.answerBy (supplies fuel) s).1 ::
          ((request.answerBy (supplies fuel) s).2.serveBy supplies rest).1,
          ((request.answerBy (supplies fuel) s).2.serveBy supplies rest).2) := fun _ => rfl
    rw [eq, eq, same, show Supply.watched .idle fuel = .ofFuel fuel from rfl, same']
    exact ⟨rfl, List.forall_mem_cons.mpr ⟨ordinary, ordinary'⟩, tidy₂, later.trans later'⟩

/-- All requests are answered under audit as they are without, and none is refused. What is known of
a cell is consistent afterwards, and kept whatever else is asked for. -/
def KeepsDiscipline (s : Session) : Prop :=
  ∀ requests : List (Nat × Request), s.serveBy .audited requests = s.serve .idle requests ∧
    (∀ reply ∈ (s.serve .idle requests).1, reply.isRefused = false) ∧
    (s.serve .idle requests).2.memory.Consistent ∧
    ∀ more : List (Nat × Request), (s.serve .idle requests).2.memory.Keeps
      ((s.serve .idle requests).2.serve .idle more).2.memory

/-- **Cells are treated as they should be.** Whatever is asked of a session of an accepted program,
compiled in any mode, all requests are answered under audit as they are without, and none is
refused. So at every operation, cell and call on the way:

* no cell that is being computed has a value or a failure, and none has both;
* a cell that has a value or a failure keeps it, also from one request to the next;
* the stack and the cells that are being computed are the same after a result or an exception as
  before;
* the cells that calls, match clauses, generators and handlers bind have no value before, and those
  that copies of blocks bind have none either;
* no cell that nothing computes is asked for before it has been bound. -/
theorem cells_disciplined (numbered : units.Numbered) (accepted : analyze false units = .ok a)
    (options : Code.Options) : ∃ s, start options units a = .ok s ∧ s.KeepsDiscipline ∧
      ∀ (m : Memory) (block : SpaceId), m.forkBinding? block = some (m.fork block) := by
  have accepts := analyze_accepts numbered accepted
  obtain ⟨c, l, s, started, begins⟩ := start_begins options numbered accepts
  have tidy : s.Tidy a c.memory.Returns := ⟨begins.ok, begins.neat accepts⟩
  refine ⟨s, started, fun requests => ?_, Memory.forkBinding?_eq⟩
  obtain ⟨same, ordinary, tidy', -⟩ := tidy.serveBy_audited accepts requests
  exact ⟨same, fun reply mem => (ordinary reply mem).plain.1, tidy'.memory.consistent,
    fun more => (tidy'.serveBy_audited accepts more).2.2.2.grows.keeps⟩

/-- The theorem at a program with calls, match clauses, handlers and generators. -/
theorem cells_disciplined_captures : ∃ a s, analyze false captureProgram = .ok a ∧
    start ⟨true, true⟩ captureProgram a = .ok s ∧ s.KeepsDiscipline := by
  obtain ⟨a, accepted⟩ := captureProgram_accepted
  obtain ⟨s, started, disciplined, -⟩ :=
    cells_disciplined captureProgram_numbered accepted ⟨true, true⟩
  exact ⟨a, s, accepted, started, disciplined⟩

end Session

end CellScript
