import CellScript.Proofs.Scope.Accepted
import CellScript.Proofs.Session.Requests

/-!
# What holds at every operation of a session

An assertion about evaluation, about where an operation begins and what it ends with, is put to the
test by a watch that ends the evaluation wherever it does not hold. If a session answers all
requests alike with and without such a watch, and never because the watch has ended it, the
assertion holds of every operation that is evaluated, however deep in the program and whenever it is
asked for.

* `Watch.relating`, `Watch.asserting` — watches that test an assertion
* `Session.references_lead` — every reference gives what a cell of the symbol has that analysis has
  found for it, and no answer is an internal error
* `Session.types_hold` — cells and operations have values of their types
-/

namespace CellScript

open Code (Op)

/-- Ends the evaluation at an operation unless the machine in which it begins and what it ends with
are related as asserted. -/
noncomputable def Watch.relating
    (relation : Op → SpaceId → Machine → EStateM.Result Stop Machine Value → Prop) : Watch :=
  fun op space x M =>
    open Classical in if relation op space M (x M) then x M else .error .refused M

/-- Ends the evaluation at an operation unless the assertion holds of the machine in which it begins
and `post` of what it ends with. -/
noncomputable def Watch.asserting (assertion : Op → SpaceId → Machine → Prop)
    (post : Op → EStateM.Result Stop Machine Value → Prop) : Watch :=
  .relating fun op space M r => assertion op space M ∧ post op r

variable {a : Analysis} {K : FunctionId → Ty → Prop}

/-- A watch does not interfere if what it asserts follows from what is known of an operation. -/
theorem Watch.relating_allows
    {relation : Op → SpaceId → Machine → EStateM.Result Stop Machine Value → Prop}
    (holds : ∀ (M : Machine) (op : Op) (σ : Option ScopeId) (space : SpaceId)
      (r : EStateM.Result Stop Machine Value), M.Good a K → M.Fits space σ → op.Ok a K σ →
      op.ReadsTarget a space M r → Outcome a K M (fun v _ => op.staticType.Admits v) r →
        relation op space M r) : (Watch.relating relation).Allows a K := by
  intro M op σ space x y good fits ok reads safe
  refine ⟨?_, safe.2⟩
  have related : relation op space M (x M) := by
    rw [safe.1]
    exact holds M op σ space (y M) good fits ok reads safe.2
  rw [← safe.1]
  exact if_pos related

/-- So does one that tests what holds where the operation begins, and what holds where it ends. -/
theorem Watch.asserting_allows {assertion : Op → SpaceId → Machine → Prop}
    {post : Op → EStateM.Result Stop Machine Value → Prop}
    (holds : ∀ (M : Machine) (op : Op) (σ : Option ScopeId) (space : SpaceId), M.Good a K →
      M.Fits space σ → op.Ok a K σ → assertion op space M)
    (ends : ∀ (M : Machine) (op : Op) (r : EStateM.Result Stop Machine Value),
      Outcome a K M (fun v _ => op.staticType.Admits v) r → post op r) :
    (Watch.asserting assertion post).Allows a K :=
  relating_allows fun M op σ space r good fits ok _ outcome =>
    ⟨holds M op σ space good fits ok, ends M op r outcome⟩

/-- Whatever is asked of the session, the watch makes no difference, and no request is refused. -/
def Session.Withstands (s : Session) (watch : Watch) : Prop :=
  ∀ requests : List (Nat × Request), s.serve watch requests = s.serve .idle requests ∧
    ∀ reply ∈ (s.serve .idle requests).1, reply.isRefused = false

/-! ## A program -/

/-- A module in which functions capture parameters, names of blocks and each other. In the notation
of the language, with types left out:

    library l:
      base = 2
      scale = (n) -> let step = n * base in for k in [1, 2] do (x) -> x + step * k
      apply = (f, x = base) -> try f(x) catch e -> e
      result = for f in scale(base) do match [f, base] with [g, *rest] -> apply(g) -/
def captureProgram : UnitSet :=
  let node (index : Nat) : Node := ⟨.tree index, default⟩
  let ref (index : Nat) (name : String) : Expr := .reference (node index) ⟨.here, [name]⟩
  let long (index : Nat) (n : Int64) : Expr := .constant (node index) (.long n)
  let scale : Expr := .function (node 10) [⟨node 11, "n", .long, none⟩] .list
    (.letIn (node 12) [⟨node 13, "step", .any, .binary (node 14) .mul (ref 15 "n") (ref 16 "base")⟩]
      (.forEach (node 17)
        [.generator (node 18) "k" .long (.list (node 19) [.value (long 20 1), .value (long 21 2)])]
        (.function (node 22) [⟨node 23, "x", .long, none⟩] .any
          (.binary (node 24) .add (ref 25 "x") (.binary (node 26) .mul (ref 27 "step")
            (ref 28 "k"))))))
  let apply : Expr := .function (node 30)
    [⟨node 31, "f", .function, none⟩, ⟨node 32, "x", .any, some (ref 33 "base")⟩] .any
    (.tryCatch (node 34) (.call (node 35) (ref 36 "f") [.positional (ref 37 "x")]) (node 38)
      (some ⟨node 39, "e"⟩) none (ref 40 "e"))
  let result : Expr := .forEach (node 50)
    [.generator (node 51) "f" .any (.call (node 52) (ref 53 "scale") [.positional (ref 54 "base")])]
    (.matchOn (node 55) (.list (node 56) [.value (ref 57 "f"), .value (ref 58 "base")])
      [⟨node 59, ⟨node 60, .headTail [⟨node 61, .wildcard, some ⟨node 62, "g"⟩⟩]
        (some ⟨node 63, "rest"⟩), none⟩, none, .call (node 64) (ref 65 "apply")
          [.positional (ref 66 "g")]⟩])
  [⟨node 0, "m", 0, .module
    { globalName := none, imports := [], aliases := [], exports := []
      libraries := [⟨node 1, "l", false,
        [⟨node 2, "base", .long, long 3 2⟩, ⟨node 4, "scale", .function, scale⟩,
         ⟨node 5, "apply", .any, apply⟩, ⟨node 6, "result", .list, result⟩]⟩] }⟩]

theorem captureProgram_numbered : captureProgram.Numbered := by decide +kernel

theorem captureProgram_accepted : ∃ a, analyze false captureProgram = .ok a := by
  have ok : (analyze false captureProgram).isOk = true := by decide +kernel
  cases h : analyze false captureProgram with
  | error fault =>
    rw [h] at ok
    cases ok
  | ok a => exact ⟨a, rfl⟩

/-! ## Addresses -/

/-- Whatever is asked of the session, every reference that is evaluated is about the symbol that
analysis has found for its node and gives what a cell of this symbol has, and no request is answered
with an internal error. -/
def Session.ReadsTargets (s : Session) (a : Analysis) : Prop :=
  ∀ requests : List (Nat × Request),
    s.serve (.relating (Op.ReadsTarget a)) requests = s.serve .idle requests ∧
      ∀ reply ∈ (s.serve .idle requests).1, reply.isRefused = false ∧
        ∀ e, reply.exception? = some e → e.code ≠ .internalError

/-- **Every address is sound.** Whatever is asked of a session of an accepted program, compiled in
any mode, every reference that is evaluated leads to a cell of the symbol that analysis has found
for its node, in a space that is alive, or to the slot of the closure that was captured from such a
cell. It gives the value that this cell has then, or fails because the cell has none. No request is
answered with an internal error. -/
theorem Session.references_lead {units : UnitSet} (numbered : units.Numbered)
    (accepted : analyze false units = .ok a) (options : Code.Options) :
    ∃ s, Session.start options units a = .ok s ∧ s.ReadsTargets a := by
  have accepts := analyze_accepts numbered accepted
  obtain ⟨K, s, start, ok⟩ := Session.start_ok options numbered accepts
  refine ⟨s, start, fun requests => ?_⟩
  have allows : (Watch.relating (Op.ReadsTarget a)).Allows a K :=
    Watch.relating_allows fun _ _ _ _ _ _ _ _ reads _ => reads
  obtain ⟨same, ordinary, -⟩ := Session.serve_ok accepts allows requests ok
  exact ⟨same, fun reply mem => (ordinary reply mem).plain⟩

/-- The theorem at a program whose functions capture parameters, names of blocks and each other. -/
theorem Session.references_lead_captures : ∃ a s, analyze false captureProgram = .ok a ∧
    Session.start ⟨true, true⟩ captureProgram a = .ok s ∧ s.ReadsTargets a := by
  obtain ⟨a, accepted⟩ := captureProgram_accepted
  obtain ⟨s, start, served⟩ := Session.references_lead captureProgram_numbered accepted ⟨true, true⟩
  exact ⟨a, s, accepted, start, served⟩

/-- A module with a fault: a function has two parameters of one name. In the notation of the
language:

    library l:
      f = (p, p) -> p
      r = f(1, 2) -/
def twiceProgram : UnitSet :=
  let node (index : Nat) : Node := ⟨.tree index, default⟩
  let ref (index : Nat) (name : String) : Expr := .reference (node index) ⟨.here, [name]⟩
  let long (index : Nat) (n : Int64) : Expr := .constant (node index) (.long n)
  [⟨node 0, "m", 0, .module
    { globalName := none, imports := [], aliases := [], exports := []
      libraries := [⟨node 1, "l", false,
        [⟨node 2, "f", .any, .function (node 3) [⟨node 4, "p", .any, none⟩,
          ⟨node 5, "p", .any, none⟩] .any
            (ref 6 "p")⟩,
         ⟨node 7, "r", .any, .call (node 8) (ref 9 "f") [.positional (long 10 1),
           .positional (long 11 2)]⟩]⟩] }⟩]

/-- **Programs with faults may break the addresses.** Analysis that goes on after a fault skips the
second parameter, but the function still takes two arguments, and has no slot for the second one. -/
theorem Session.faulty_internal : ∃ a s e, analyze true twiceProgram = .ok a ∧ a.faults.length = 1 ∧
    Session.start ⟨true, true⟩ twiceProgram a = .ok s ∧
      (s.var 20 "m" ["l", "r"]).1 = .error (.raised e) ∧ e.code = .internalError := by
  have evaluates : ((analyze true twiceProgram).toOption.bind fun a =>
      (Session.start ⟨true, true⟩ twiceProgram a).toOption.map fun s => (a.faults.length,
        (Reply.value (s.var 20 "m" ["l", "r"]).1).exception?.map (·.code))) =
      some (1, some .internalError) := by
    decide +kernel
  have ofToOption : ∀ {ε β : Type} {x : Except ε β} {v : β}, x.toOption = some v → x = .ok v := by
    rintro ε β (e | w) v h <;> cases h
    rfl
  obtain ⟨a, accepted, evaluates⟩ := Option.bind_eq_some_iff.mp evaluates
  obtain ⟨s, started, evaluates⟩ := Option.map_eq_some_iff.mp evaluates
  obtain ⟨faults, raised⟩ := Prod.mk.inj evaluates
  obtain ⟨e, he, code⟩ := Option.map_eq_some_iff.mp raised
  refine ⟨a, s, e, ofToOption accepted, faults, ofToOption started, ?_, code⟩
  generalize (s.var 20 "m" ["l", "r"]).1 = answer at he
  rcases answer with (e' | _ | _) | v <;> cases he
  rfl

/-! ## Types -/

/-- Every value in memory is one that its variable may hold: nil or of the declared type, unless any
value may stand there. -/
def Memory.Typed (a : Analysis) (m : Memory) : Prop :=
  ∀ id v, (m.cell id).value = some v → (a.arena.symbol (m.cell id).shape.symbol).ty.Holds v

/-- What an operation ends with is of its static type, and memory is typed. -/
def Code.Op.EndsTyped (a : Analysis) (op : Op) : EStateM.Result Stop Machine Value → Prop
  | .ok v M => op.staticType.Admits v ∧ M.memory.Typed a
  | .error _ M => M.memory.Typed a

theorem MemoryOk.typed {m : Memory} (ok : MemoryOk a K m) : m.Typed a :=
  fun _ _ value => ok.holds rfl value

/-- Memory is typed now, and whatever is asked of the session, a watch that tests types wherever an
operation begins or ends never ends the evaluation. -/
def Session.KeepsTyped (s : Session) (a : Analysis) : Prop :=
  s.memory.Typed a ∧ ∀ requests : List (Nat × Request),
    s.serve (.asserting (fun _ _ M => M.memory.Typed a) (Op.EndsTyped a)) requests =
        s.serve .idle requests ∧
      (∀ reply ∈ (s.serve .idle requests).1, reply.isRefused = false) ∧
      (s.serve .idle requests).2.memory.Typed a

/-- **Types are preserved.** Whatever is asked of a session of an accepted program, compiled in any
mode, at every operation that is evaluated all variables hold values of their declared types, and
the operation gives a value of its static type: nil, or a value of that type, or a double where a
decimal is expected. -/
theorem Session.types_hold {units : UnitSet} (numbered : units.Numbered)
    (accepted : analyze false units = .ok a) (options : Code.Options) :
    ∃ s, Session.start options units a = .ok s ∧ s.KeepsTyped a := by
  have accepts := analyze_accepts numbered accepted
  obtain ⟨K, s, start, ok⟩ := Session.start_ok options numbered accepts
  refine ⟨s, start, ok.memory.typed, fun requests => ?_⟩
  have allows : (Watch.asserting (fun _ _ M => M.memory.Typed a) (Op.EndsTyped a)).Allows a K := by
    refine Watch.asserting_allows (fun M op σ space good _ _ => good.memory.typed)
      fun M op r ends => ?_
    cases r with
    | ok v M' => exact ⟨ends.2, ends.1.good.memory.typed⟩
    | error stop M' => exact ends.1.memory.typed
  obtain ⟨same, ordinary, ok', -⟩ := Session.serve_ok accepts allows requests ok
  exact ⟨same, fun reply mem => (ordinary reply mem).plain.1, ok'.memory.typed⟩

/-- The theorem at a program with declared types of variables, parameters and results. -/
theorem Session.types_hold_captures : ∃ a s, analyze false captureProgram = .ok a ∧
    Session.start ⟨true, true⟩ captureProgram a = .ok s ∧ s.KeepsTyped a := by
  obtain ⟨a, accepted⟩ := captureProgram_accepted
  obtain ⟨s, start, served⟩ := Session.types_hold captureProgram_numbered accepted ⟨true, true⟩
  exact ⟨a, s, accepted, start, served⟩

end CellScript
