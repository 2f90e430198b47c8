import CellScript.Proofs.Session.Safety

/-!
# What functions have captured

For every symbol that it closes over a function has captured something, and that agrees with the
cell it was captured from at every moment: it is the value of that cell, or is pending because the
cell is being computed or has failed. Whoever looks at a captured symbol therefore sees what whoever
asks for the cell sees, and never the nil that stands for a place where nothing was captured.
Deferrals are held for no other cells, and once a request has been answered only those for cells
that have failed are left.

* `Machine.Coherent` — captured symbols agree with cells
* `Machine.Good.coherent` — they do in every machine that agrees with analysis
* `Session.captures_cohere` — at every operation of every session
* `Session.deferrals_held` — which cells are waited for, and which are left when a request is over
-/

namespace CellScript

open Code (Op)

variable {a : Analysis} {K : FunctionId → Ty → Prop} {m : Memory} {M : Machine}

/-! ## Coherence -/

/-- The captured symbol is known with the value of its cell, or pending while the cell has none to
give. A place where nothing was captured agrees with no cell. -/
def Captured.Agrees (m : Memory) (c : Captured) : Prop :=
  match c with
  | .empty => False
  | .value v origin => (m.cell origin).value = some v
  | .pending cell => (m.cell cell).evaluating = true ∨ (m.cell cell).failure.isSome = true

/-- Functions and the spaces of their calls have a closure with one captured symbol for each that
analysis lists for the function, and everything captured agrees with its cell. -/
structure Memory.Coherent (a : Analysis) (m : Memory) : Prop where
  /-- No place of a closure is empty. -/
  filled : ∀ (id : ClosureId) (i : Nat), (m.closure id)[i]? ≠ some .empty
  agrees : ∀ (id : ClosureId) (i : Nat) c, (m.closure id)[i]? = some c → c.Agrees m
  function : ∀ id < m.functions.size, ∀ body template closure region,
    (m.function id).body = .literal body template closure region →
      ∃ n, (a.arena.scope template.scope).kind = .function n ∧ m.Closes (a.closedOver n) closure
  space : ∀ id < m.spaces.size, ∀ n, (a.arena.scope (m.space id).template.scope).kind =
    .function n → ∃ closure, (m.space id).closure = some closure ∧ m.Closes (a.closedOver n) closure

/-- Looking at what was captured gives what asking for its cell gives, whoever watches, and what is
captured again from a closure is what the closure holds. -/
structure Machine.Coherent (a : Analysis) (M : Machine) : Prop where
  memory : M.memory.Coherent a
  captured : ∀ (id : ClosureId) (i : Nat) c, (M.memory.closure id)[i]? = some c → ∀ watch fuel,
    Eval.captured (.watched watch (fuel + 1)) id i M = Supply.watched watch (fuel + 1)
      (.force c.origin) M
  settled : ∀ (id : ClosureId) (i : Nat) c, (M.memory.closure id)[i]? = some c →
    M.memory.settled c = c

theorem MemoryGood.agrees (good : MemoryGood a K m) {id : ClosureId} {i : Nat} {c : Captured}
    (found : (m.closure id)[i]? = some c) : c.Agrees m := by
  cases c with
  | empty => exact good.filled id i found
  | value v origin => exact good.captured id i v origin found
  | pending cell => exact good.waits id i cell found

theorem MemoryGood.coherent (good : MemoryGood a K m) (rooted : a.Rooted) : m.Coherent a := by
  refine ⟨good.filled, fun _ _ _ => good.agrees, fun id known body template closure region hb => ?_,
    fun id known n kind => ?_⟩
  · have ok := good.function id known
    simp only [FunctionObject.Ok, hb] at ok
    obtain ⟨n, inner, kind, hTemplate, -, -, closes, -⟩ := ok
    obtain ⟨rfl, -, -⟩ := (Code.template_ok_iff template).mp hTemplate
    exact ⟨n, kind, closes⟩
  · refine (good.placed id known (rooted.ne_global ?_)).function n kind
    rw [kind]
    exact fun h => by cases h

/-- A cell that has no value to give raises the same exception whenever it is asked for. -/
theorem Eval.force_of_withheld (good : M.Good a K) {id : CellId}
    (withheld : (M.memory.cell id).Withheld) :
    ∃ e, ∀ s, force s id M = .error (.raised e) M := by
  rcases withheld with busy | failed
  · exact ⟨cyclic M id, fun s => force_of_busy good busy⟩
  · obtain ⟨e, failure⟩ := Option.isSome_iff_exists.mp failed
    refine ⟨e, fun s => force_of_failure ?_ failure⟩
    cases hv : (M.memory.cell id).value with
    | none => rfl
    | some v =>
      rw [(good.memory.consistent id).single v hv] at failure
      cases failure

/-- **Captured symbols agree with their cells** wherever memory agrees with analysis. -/
theorem Machine.Good.coherent (good : M.Good a K) (rooted : a.Rooted) : M.Coherent a := by
  refine ⟨good.memoryGood.coherent rooted, fun id i c found watch fuel =>
    ?_, fun id i c found => ?_⟩
  · have agrees := good.memoryGood.agrees found
    show Eval.captured _ id i M = Eval.force (.watched watch fuel) c.origin M
    rw [Eval.captured, Eval.bind_of_ok (Eval.ask_of_ok (Memory.captured_eq found))]
    cases c with
    | empty => exact agrees.elim
    | value v origin => exact (Eval.force_of_value agrees).symm
    | pending cell =>
      obtain ⟨e, raises⟩ := Eval.force_of_withheld good agrees
      exact (Eval.bind_of_error (raises _) _).trans (raises _).symm
  · cases c with
    | empty => exact absurd found (good.memory.filled id i)
    | value v origin => rfl
    | pending cell =>
      -- A cell that has no value to give has no value.
      have empty : (M.memory.cell cell).value = none := by
        rcases good.waits id i cell found with busy | failed
        · exact ((good.memory.consistent cell).busy busy).1
        · cases hv : (M.memory.cell cell).value with
          | none => rfl
          | some v =>
            rw [(good.memory.consistent cell).single v hv] at failed
            cases failed
      simp only [Memory.settled, empty]

/-- The machine in which an operation has ended. -/
def Eval.endsIn {α : Type} : EStateM.Result Stop Machine α → Machine
  | .ok _ M | .error _ M => M

/-- What was captured agrees with its cells now, and whatever is asked of the session, a watch that
tests this wherever an operation begins or ends never ends the evaluation. -/
def Session.KeepsCoherent (s : Session) (a : Analysis) : Prop :=
  s.machine.Coherent a ∧ ∀ requests : List (Nat × Request),
    s.serve (.asserting (fun _ _ M => M.Coherent a) fun _ r => (Eval.endsIn r).Coherent a)
        requests = s.serve .idle requests ∧
      (∀ reply ∈ (s.serve .idle requests).1, reply.isRefused = false) ∧
      (s.serve .idle requests).2.machine.Coherent a

/-- **Captured variables are coherent.** Whatever is asked of a session of an accepted program,
compiled in any mode, wherever an operation begins or ends every closure has one captured symbol for
each that its function closes over, from a cell of that symbol. What was captured is the value of
the cell, or is pending while the cell is being computed or has failed, so that looking at it gives
what the cell gives. -/
theorem Session.captures_cohere {units : UnitSet} (numbered : units.Numbered)
    (accepted : analyze false units = .ok a) (options : Code.Options) :
    ∃ s, Session.start options units a = .ok s ∧ s.KeepsCoherent a := by
  have accepts := analyze_accepts numbered accepted
  obtain ⟨K, s, start, ok⟩ := Session.start_ok options numbered accepts
  refine ⟨s, start, ok.good.coherent accepts.toRooted, fun requests => ?_⟩
  have allows : (Watch.asserting (fun _ _ M => M.Coherent a)
      fun _ r => (Eval.endsIn r).Coherent a).Allows a K := by
    refine Watch.asserting_allows (fun M op σ space good _ _ => good.coherent accepts.toRooted)
      fun M op r ends => ?_
    cases r with
    | ok v M' => exact ends.1.good.coherent accepts.toRooted
    | error stop M' => exact ends.1.coherent accepts.toRooted
  obtain ⟨same, ordinary, ok', -⟩ := Session.serve_ok accepts allows requests ok
  exact ⟨same, fun reply mem => (ordinary reply mem).plain.1, ok'.good.coherent accepts.toRooted⟩

/-- The theorem at a program whose functions capture parameters, names of blocks and each other. -/
theorem Session.captures_cohere_captures : ∃ a s, analyze false captureProgram = .ok a ∧
    Session.start ⟨true, true⟩ captureProgram a = .ok s ∧ s.KeepsCoherent a := by
  obtain ⟨a, accepted⟩ := captureProgram_accepted
  obtain ⟨s, start, served⟩ := Session.captures_cohere captureProgram_numbered accepted ⟨true, true⟩
  exact ⟨a, s, accepted, start, served⟩

/-! ## Deferrals -/

/-- Only cells that are being computed or have failed are waited for. -/
def Machine.HoldsDeferrals (M : Machine) : Prop :=
  ∀ d ∈ M.context.deferred, (M.memory.cell d.cell).Withheld

namespace Session

variable {s : Session} {units : UnitSet}

/-- Where nothing is being computed, answers that arrive leave nothing under way. -/
theorem Ok.idle_serve (accepts : a.Accepts units) (ok : s.Ok a K) (idle : s.memory.Idle)
    (requests : List (Nat × Request)) (arrive : ∀ reply ∈ (s.serve .idle requests).1,
    reply.Arrives) :
    (s.serve .idle requests).2.memory.Idle := by
  induction requests generalizing s with
  | nil => exact idle
  | cons first rest ih =>
    obtain ⟨fuel, request⟩ := first
    obtain ⟨arrives, arrive⟩ := List.forall_mem_cons.mp arrive
    have serves := Supply.serves accepts.toRooted Watch.idle_allows (K := K) fuel
    refine ih (request.answerBy_ok serves accepts ok).2.2.1 (fun id => ?_) arrive
    change ((request.answerBy (.watched .idle fuel) s).2.memory.cell id).evaluating = false
    rw [(request.answerBy_does _ s).1]
    exact ((request.after_rests serves accepts ok arrives).rests.evaluating id).trans (idle id)

/-- **Deferrals are held for cells that are being computed or have failed**, wherever an operation
begins or ends. When a request is over, with a result or an exception, those that are left are for
cells that have failed: none if nothing that was captured has failed. -/
theorem deferrals_held (numbered : units.Numbered) (accepted : analyze false units = .ok a)
    (options : Code.Options) :
    ∃ s₀, start options units a = .ok s₀ ∧ ∀ before : List (Nat × Request),
      s₀.serve (.asserting (fun _ _ M => M.HoldsDeferrals) fun _ r =>
        (Eval.endsIn r).HoldsDeferrals)
          before = s₀.serve .idle before ∧
        (∀ reply ∈ (s₀.serve .idle before).1, reply.isRefused = false) ∧
        ((∀ reply ∈ (s₀.serve .idle before).1, reply.Arrives) → ∀ fuel (request : Request),
          (request.answerBy (.ofFuel fuel) (s₀.serve .idle before).2).1.Arrives →
            let M := (s₀.serve .idle before).2.after (request.work (.ofFuel fuel)
              (s₀.serve .idle before).2)
            ∀ d ∈ M.context.deferred, (M.memory.cell d.cell).failure.isSome = true) := by
  have accepts := analyze_accepts numbered accepted
  obtain ⟨c, l, s₀, started, begins⟩ := start_begins options numbered accepts
  refine ⟨s₀, started, fun before => ?_⟩
  have allows : (Watch.asserting (fun _ _ M => M.HoldsDeferrals)
      fun _ r => (Eval.endsIn r).HoldsDeferrals).Allows a c.memory.Returns := by
    refine Watch.asserting_allows (fun M op σ space good _ _ => good.held) fun M op r ends => ?_
    cases r with
    | ok v M' => exact ends.1.good.held
    | error stop M' => exact ends.1.held
  obtain ⟨same, ordinary, ok, -⟩ := serve_ok accepts allows before begins.ok
  refine ⟨same, fun reply mem => (ordinary reply mem).plain.1,
    fun arrive fuel request arrives => ?_⟩
  have idle := begins.ok.idle_serve accepts (fun id => (begins.blank id).idle) before arrive
  have passes :=
    request.after_rests (Supply.serves accepts.toRooted Watch.idle_allows fuel) accepts ok arrives
  intro M d hd
  refine (passes.good.held d hd).resolve_left fun busy => ?_
  rw [passes.rests.evaluating] at busy
  exact Bool.false_ne_true ((idle d.cell).symm.trans busy)

/-- A module in which a function escapes from a definition that fails. In the notation of the
language:

    library l:
      x = throw () -> () -> x
      y = try x catch e -> e() -/
def escapeProgram : UnitSet :=
  let node (index : Nat) : Node := ⟨.tree index, default⟩
  let ref (index : Nat) (name : String) : Expr := .reference (node index) ⟨.here, [name]⟩
  [⟨node 0, "m", 0, .module
    { globalName := none, imports := [], aliases := [], exports := []
      libraries := [⟨node 1, "l", false,
        [⟨node 2, "x", .any, .throw (node 3)
          (.function (node 4) [] .any (.function (node 5) [] .any (ref 6 "x")))⟩,
         ⟨node 7, "y", .any, .tryCatch (node 8) (ref 9 "x") (node 10) (some ⟨node 11, "e"⟩) none
            (.call (node 12) (ref 13 "e") [])⟩]⟩] }⟩]

/-- The theorem at this module: a deferral is left for a cell that has failed. The function that
escapes has captured the cell, and what it creates after the failure captures the cell again. -/
theorem deferrals_held_escape : ∃ a s, analyze false escapeProgram = .ok a ∧
    start ⟨true, true⟩ escapeProgram a = .ok s ∧
      let request := Request.var "m" ["l", "y"]
      let M := s.after (request.work (.ofFuel 20) s)
      (request.answerBy (.ofFuel 20) s).1.Arrives ∧ M.context.deferred.length = 1 ∧
        ∀ d ∈ M.context.deferred, (M.memory.cell d.cell).evaluating = false ∧
          (M.memory.cell d.cell).failure.isSome = true := by
  have evaluates : ((analyze false escapeProgram).toOption.bind fun a =>
      (start ⟨true, true⟩ escapeProgram a).toOption.map fun s =>
        let M := s.after ((Request.var "m" ["l", "y"]).work (.ofFuel 20) s)
        (s.var 20 "m" ["l", "y"]).1.isOk && M.context.deferred.length == 1 &&
          M.context.deferred.all fun d => !(M.memory.cell d.cell).evaluating) = some true := by
    decide +kernel
  have numbered : UnitSet.Numbered escapeProgram := by decide +kernel
  cases accepted : analyze false escapeProgram with
  | error fault =>
    rw [accepted] at evaluates
    cases evaluates
  | ok a =>
    obtain ⟨s, started, held⟩ := deferrals_held numbered accepted ⟨true, true⟩
    rw [accepted] at evaluates
    simp only [Except.toOption, Option.bind_some, started, Option.map_some, Option.some.injEq,
      Bool.and_eq_true, beq_iff_eq, List.all_eq_true, Bool.not_eq_true'] at evaluates
    obtain ⟨⟨answered, one⟩, idle⟩ := evaluates
    have arrives : ((Request.var "m" ["l", "y"]).answerBy (.ofFuel 20) s).1.Arrives := by
      show (s.var 20 "m" ["l", "y"]).1.Arrives
      cases hr : (s.var 20 "m" ["l", "y"]).1 with
      | ok v => trivial
      | error stop =>
        rw [hr] at answered
        cases answered
    refine ⟨a, s, rfl, started, arrives, one, fun d hd => ⟨idle d hd, ?_⟩⟩
    exact (held []).2.2 (fun _ h => by cases h) 20 _ arrives d hd

end Session

end CellScript
