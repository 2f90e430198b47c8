import CellScript.Proofs.Eval.Comprehension
import CellScript.Proofs.Session.Safety

/-!
# Comprehensions of accepted programs

Analysis accepts a program only if what stands in a head of a comprehension asks for no later head.
So every comprehension of the program, whenever it is evaluated, runs its heads as loops in one
another.

* `Machine.Good.founded` — whatever is named in memory is there
* `Session.comprehensions_nest` — comprehensions in a session are nested loops
-/

namespace CellScript

open Code (Op)

variable {a : Analysis} {K : FunctionId → Ty → Prop} {M : Machine} {σ : ScopeId} {space : SpaceId}

/-- **In a machine that agrees with analysis, whatever is named in memory is there.** -/
theorem Machine.Good.founded (good : M.Good a K) (rooted : a.Rooted)
    (attached : M.context.units.isSome = true) : M.memory.Founded := by
  obtain ⟨units, hu⟩ := Option.isSome_iff_exists.mp attached
  refine ⟨good.memory.inside, fun id i cell found => ?_,
    fun id space found => ((good.attached units hu).lasting good.memory rooted found).known,
    fun site cell found => (good.memory.pinned site cell found).known⟩
  -- A cell that is waited for is being computed or has failed, so it is there.
  refine Classical.byContradiction fun out => ?_
  have withheld := good.waits id i cell found
  rw [Memory.cell_eq_default fun has => out has.1] at withheld
  rcases withheld with h | h <;> cases h

/-- **A comprehension runs its heads as loops in one another**, wherever it is evaluated. -/
theorem Code.Op.Ok.runsNested {op : Op} {σ : Option ScopeId} (ok : op.Ok a K σ) (rooted : a.Rooted)
    (good : M.Good a K) (fits : M.Fits space σ) : op.RunsNested space M := by
  obtain ⟨span, action⟩ := op
  rintro template heads body rfl fuel
  obtain ⟨inner, placed, laid, headsOk, bodyOk, slots, order⟩ := ok
  have lays := good.child rooted fits placed laid
  obtain ⟨outer, n, rfl, kind, -⟩ := placed
  obtain ⟨attached, known, -⟩ := fits
  have units : ∀ u, M.context.units = some u → u < M.memory.spaces.size := fun u hu =>
    (good.attached u hu).space
  have dynamic : (a.arena.scope inner).kind.isDynamic = true := by
    rw [kind]
    rfl
  obtain ⟨now, holds, shapes⟩ :=
    Machine.child_holds (good.founded rooted attached) units slots known
  refine ⟨_, Code.runHeads_run rooted dynamic bodyOk fuel heads
    ⟨lays.step.good, lays.fits, now, holds, shapes⟩ order headsOk, ?_⟩
  exact Code.eval_forEach fuel span template heads body

/-- **Comprehensions are nested loops with isolated iterations.** In a program that analysis
accepts, the heads of every comprehension hold the slots of its scope one after the other, and ask
for no later one. Whenever a comprehension is evaluated, its heads run as loops in one another:
whatever is asked of a session, a watch that tests it never ends the evaluation. -/
theorem Session.comprehensions_nest {units : UnitSet} (numbered : units.Numbered)
    (accepted : analyze false units = .ok a) (options : Code.Options) :
    (∀ node heads body, units.Contains (.forEach node heads body) → ∃ inner,
      a.createdScopes.get? node.id = some inner ∧ a.HeadsOrdered inner 0 heads) ∧
    ∃ s, Session.start options units a = .ok s ∧
      s.Withstands (.asserting (fun op space M => op.RunsNested space M) fun _ _ => True) := by
  have accepts := analyze_accepts numbered accepted
  refine ⟨fun node heads body located => ?_, ?_⟩
  · obtain ⟨σ, inner, block, -⟩ := accepts.sound located
    exact ⟨inner, block.created, accepts.ordered _ located node heads body inner .whole
      block.created⟩
  · obtain ⟨K, s, start, ok⟩ := Session.start_ok options numbered accepts
    refine ⟨s, start, fun requests => ?_⟩
    have allows :
        (Watch.asserting (fun op space M => op.RunsNested space M) fun _ _ => True).Allows a K :=
      Watch.asserting_allows (fun _ _ _ _ good fits ok =>
        ok.runsNested accepts.toRooted good fits) fun _ _ _ _ => trivial
    obtain ⟨same, ordinary, -⟩ := Session.serve_ok accepts allows requests ok
    exact ⟨same, fun reply mem => (ordinary reply mem).plain.1⟩

/-- A module with a comprehension that has heads of all kinds. In the notation of the language, with
types left out:

    library l:
      sums = for x in [1, 2], y = x + x, y > 2, z in [x, y] do y + z -/
def sumsProgram : UnitSet :=
  let node (index : Nat) : Node := ⟨.tree index, default⟩
  let ref (index : Nat) (name : String) : Expr := .reference (node index) ⟨.here, [name]⟩
  let long (index : Nat) (n : Int64) : Expr := .constant (node index) (.long n)
  let heads : List ForHead :=
    [.generator (node 3) "x" .long (.list (node 4) [.value (long 5 1), .value (long 6 2)]),
     .definition (node 7) "y" .long (.binary (node 8) .add (ref 9 "x") (ref 10 "x")),
     .condition (.binary (node 11) .greater (ref 12 "y") (long 13 2)),
     .generator (node 14) "z" .any (.list (node 15) [.value (ref 16 "x"), .value (ref 17 "y")])]
  [⟨node 0, "m", 0, .module
    { globalName := none, imports := [], aliases := [], exports := []
      libraries := [⟨node 1, "l", false, [⟨node 2, "sums", .list,
        .forEach (node 18) heads (.binary (node 19) .add (ref 20 "y") (ref 21 "z"))⟩]⟩] }⟩]

/-- The theorem at this module. -/
theorem Session.comprehensions_nest_sums : ∃ a s, analyze false sumsProgram = .ok a ∧
    Session.start ⟨true, true⟩ sumsProgram a = .ok s ∧
    (∀ node heads body, sumsProgram.Contains (.forEach node heads body) → ∃ inner,
      a.createdScopes.get? node.id = some inner ∧ a.HeadsOrdered inner 0 heads) ∧
    s.Withstands (.asserting (fun op space M => op.RunsNested space M) fun _ _ => True) := by
  have numbered : UnitSet.Numbered sumsProgram := by decide +kernel
  have accepted : (analyze false sumsProgram).isOk = true := by decide +kernel
  cases h : analyze false sumsProgram with
  | error fault =>
    rw [h] at accepted
    cases accepted
  | ok a =>
    obtain ⟨source, s, start, served⟩ := Session.comprehensions_nest numbered h ⟨true, true⟩
    exact ⟨a, s, rfl, start, source, served⟩

end CellScript
