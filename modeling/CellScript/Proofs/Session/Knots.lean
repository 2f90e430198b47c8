import CellScript.Proofs.Eval.Knots
import CellScript.Proofs.Scope.Accepted
import CellScript.Proofs.Session.Definitions

/-!
# Programs whose definitions are functions

Where all definitions hold functions, every request for a definition is answered with a function,
whatever was asked before. Nothing is left pending once it is answered: what the function has
captured are the functions that its definitions hold.

* `Session.Begins.knotted` — no definition has failed from the start
* `Session.Tying` — what holds of a session between requests
* `Session.tiesKnots` — a function and all that it has captured
-/

namespace CellScript

variable {a : Analysis} {K : FunctionId → Ty → Prop} {units : UnitSet} {cells : Finset CellId}
  {n : Nat} {s : Session}

namespace Session

/-! ## The start -/

/-- **All cells of definitions compute functions, and nothing has failed yet.** -/
theorem Begins.knotted {c : Compiling} {l : Layout} (h : Begins a units c l s)
    (accepts : a.Accepts units) (functions : units.DefinesFunctions) :
    s.memory.Knotted a s.units s.memory.allCells := by
  have ok := h.ok
  have blank := h.blank
  refine ⟨fun id => Memory.mem_allCells, fun id has definition => ?_, h.literal, fun id =>
    (blank id).sound,
    fun id v value => ?_, fun id i captured found => ?_⟩
  · have planned := h.planned has
    have shape := planned.cells id.slot
    rw [has.getElem?, Option.map_some] at shape
    have symbol := (ok.memory.laid _ has.1 (ok.memory.scope_ne has)).symbols id.slot
    rw [has.getElem?, Option.map_some] at symbol
    obtain ⟨-, home, -⟩ := accepts.ready.slot _ _ _ symbol.symm
    obtain ⟨o, kind⟩ := definition.static
    rw [home] at kind
    exact h.compiled.makesFunctions accepts functions kind planned.template _
      (List.mem_of_getElem? shape.symm) definition.isVariable
  · rw [(blank id).empty] at value
    cases value
  · -- Nothing could be captured from cells without value that have not failed.
    cases captured with
    | empty => exact absurd found (ok.memory.filled id i)
    | value v origin =>
      have value := ok.memory.captured id i v origin found
      rw [(blank origin).empty] at value
      cases value
    | pending cell =>
      rcases ok.memory.waits id i cell found with busy | failed
      · rw [(blank cell).idle] at busy
        cases busy
      · rw [(blank cell).sound] at failed
        cases failed

/-! ## Between requests -/

/-- Nothing is being computed and nothing has failed, and the cells that can still be asked for are
no more than the number says. -/
structure Tying (a : Analysis) (K : FunctionId → Ty → Prop) (cells : Finset CellId) (n : Nat)
    (s : Session) : Prop where
  ok : s.Ok a K
  idle : s.memory.Idle
  knotted : s.memory.Knotted a s.units cells
  enough : s.memory.load cells ≤ n

/-- The definition that is found gives a function. -/
theorem Tying.force (h : s.Tying a K cells n) (accepts : a.Accepts units) {fuel : Nat}
    (fueled : n < fuel) {path : String} {names : List String} {cell : CellId}
    (found : s.find path names = .ok cell) :
    Eval.Gives a K s.units cells (Supply.ofFuel fuel (.force cell)) s.machine
      fun v M => M.memory.HoldsFunction v := by
  obtain ⟨has, definition⟩ := h.ok.definition_of_find accepts found
  obtain ⟨fuel, rfl⟩ := Nat.exists_eq_succ_of_ne_zero (Nat.ne_of_gt (Nat.zero_lt_of_lt fueled))
  exact Eval.ofFuel_meets accepts.toRooted fuel h.ok.good rfl h.knotted
    ⟨has, definition, h.idle cell⟩ (h.enough.trans (Nat.le_of_lt_succ fueled))

/-- **A request for a definition is answered with a function**, and the next request may be made. -/
theorem Tying.var (h : s.Tying a K cells n) (accepts : a.Accepts units) {fuel : Nat}
    (fueled : n < fuel) {path : String} {names : List String} {cell : CellId}
    (found : s.find path names = .ok cell) :
    ∃ v M, s.var fuel path names = (.ok v, { s with memory := M.memory }) ∧
      s.after (Request.work (.ofFuel fuel) s (.var path names)) = M ∧ M.Good a K ∧
      M.memory.HoldsFunction v ∧ Tying a K cells n { s with memory := M.memory } := by
  obtain ⟨v, M, ran, passes, knotted, function⟩ := h.force accepts fueled found
  have answer : s.var fuel path names = (.ok v, { s with memory := M.memory }) := by
    rw [Session.var, varBy, found]
    show report (s.run _) = _
    rw [run_of_ok ran]
    rfl
  have work : discard (Supply.ofFuel fuel (.force cell)) s.machine = .ok ⟨⟩ M :=
    (Eval.bind_of_ok ran fun _ => pure PUnit.unit).trans rfl
  have ends : s.after (Request.work (.ofFuel fuel) s (.var path names)) = M := by
    rw [Request.work, found]
    show (s.machine.run (discard (Supply.ofFuel fuel (.force cell)))).2 = M
    rw [Machine.run, work]
  have ok : Session.Ok a K { s with memory := M.memory } := by
    obtain ⟨-, -, ok, -⟩ :=
      Request.answerBy_ok (Supply.serves accepts.toRooted Watch.idle_allows fuel)
      accepts h.ok (.var path names)
    change ((s.var fuel path names).map Reply.value id).2.Ok a K at ok
    rw [answer] at ok
    exact ok
  exact ⟨v, M, answer, ends, passes.good, function, ok,
    fun cell => (passes.rests.evaluating cell).trans (h.idle cell), knotted,
    (Eval.load_le_of_passes h.knotted passes).trans h.enough⟩

/-- **Any definitions may be asked for**, in any order. -/
theorem Tying.serve (h : s.Tying a K cells n) (accepts : a.Accepts units)
    (requests : List (Nat × Request)) (plain : ∀ entry ∈ requests, n < entry.1 ∧
      ∃ path names, entry.2 = .var path names) :
    (s.serve .idle requests).2.Tying a K cells n ∧ s.Later (s.serve .idle requests).2 := by
  induction requests generalizing s with
  | nil => exact ⟨h, .refl s⟩
  | cons first rest ih =>
    obtain ⟨fuel, request⟩ := first
    rw [List.forall_mem_cons] at plain
    obtain ⟨⟨fueled, path, names, rfl⟩, rest'⟩ := plain
    obtain ⟨-, -, -, later⟩ := Request.answerBy_ok
      (Supply.serves accepts.toRooted Watch.idle_allows fuel) accepts h.ok (.var path names)
    change s.Later (s.var fuel path names).2 at later
    change ((s.var fuel path names).2.serve .idle rest).2.Tying a K cells n ∧
      s.Later ((s.var fuel path names).2.serve .idle rest).2
    have next : (s.var fuel path names).2.Tying a K cells n := by
      cases found : s.find path names with
      | ok cell =>
        obtain ⟨v, M, answer, -, -, -, next⟩ := h.var accepts fueled found
        rw [answer]
        exact next
      | error e =>
        rw [Session.var, varBy, found]
        exact h
    obtain ⟨last, later'⟩ := ih next rest'
    exact ⟨last, later.trans later'⟩

/-! ## What functions have captured -/

/-- The symbol was declared by a definition, and has been captured with the function that the cell
of this definition holds. -/
structure Tied (s : Session) (units : UnitSet) (c : Captured) (t : SymbolId) : Prop where
  definition : ∃ u ∈ units, ∃ g ∈ u.namedGroups, ∃ v ∈ g.2.2,
    s.analysis.definitions.get? v.node.id = some t ∧ s.find u.path [g.1, v.name] = .ok c.origin
  function : ∃ f signature, c = .value (.function f signature) c.origin ∧
    (s.memory.cell c.origin).value = some (.function f signature)

/-- The function has captured all that analysis lists for it. -/
def TiesKnot (s : Session) (units : UnitSet) (f : FunctionId) : Prop :=
  f < s.memory.functions.size ∧ ∃ n body template closure region,
    (s.memory.function f).body = .literal body template closure region ∧
    (s.analysis.arena.scope template.scope).kind = .function n ∧
    List.Forall₂ (s.Tied units) (s.memory.closure closure) (s.analysis.closedOver n)

/-- What was captured from the cell of a definition is tied, once it has its value. -/
theorem tied_of_reached (accepts : a.Accepts units) (analysis : s.analysis = a) {c : Captured}
    {v : Value} (reached : c.Reached a s.units s.memory) (known : c = .value v c.origin)
    (value : (s.memory.cell c.origin).value = some v) (function : s.memory.HoldsFunction v) :
    s.Tied units c (s.memory.cell c.origin).shape.symbol := by
  obtain ⟨definition, slots, leads, reaches⟩ := reached
  obtain ⟨o, kind⟩ := definition.static
  obtain ⟨u, hu, g, hg, v, hv, defined, -⟩ := accepts.defined kind
    (accepts.ready.mem_slots definition.known) definition.isVariable
  obtain ⟨t, defined', -, denotes⟩ := accepts.denotes hu hg hv
  rw [defined] at defined'
  cases defined'
  obtain ⟨f, signature, rfl, -⟩ := function
  exact ⟨⟨u, hu, g, hg, v, hv, by rw [analysis]; exact defined,
    find_of_denotes accepts analysis definition denotes leads reaches⟩, f, signature, known, value⟩

/-- **All that a function has captured is tied** when nothing is under way. -/
theorem Tying.tiesKnot (h : s.Tying a K cells n) (accepts : a.Accepts units)
    (settled : ∀ (id : ClosureId) (i : Nat) c, (s.memory.closure id)[i]? = some c →
      ∃ v, c = .value v c.origin ∧ (s.memory.cell c.origin).value = some v)
    {f : FunctionId} (known : f < s.memory.functions.size) : s.TiesKnot units f := by
  have ok := h.ok.memory.function f known
  obtain ⟨body, template, closure, region, hb⟩ := h.knotted.literal f known
  simp only [FunctionObject.Ok, hb] at ok
  obtain ⟨n, inner, kind, template', -, -, closes, -⟩ := ok
  obtain ⟨rfl, -, -⟩ := (Code.template_ok_iff template).mp template'
  refine ⟨known, n, body, template, closure, region, hb, by rw [h.ok.analysis]; exact kind, ?_⟩
  obtain ⟨length, origins⟩ := List.forall₂_iff_zip.mp (List.forall₂_map_left_iff.mp closes.origins)
  rw [h.ok.analysis]
  refine List.forall₂_iff_zip.mpr ⟨length, fun {c t} pair => ?_⟩
  obtain ⟨-, rfl⟩ := origins pair
  obtain ⟨i, found⟩ := List.getElem?_of_mem (List.of_mem_zip pair).1
  obtain ⟨v, is, value⟩ := settled closure i c found
  exact tied_of_reached accepts h.ok.analysis (h.knotted.reached closure i c found) is value
    (h.knotted.function _ v value)

/-- The definition is asked for, and the answer is a function with all that it has captured. Nobody
waits for anything any more. -/
def GivesTied (s : Session) (units : UnitSet) (fuel : Nat) (path : String)
    (names : List String) : Prop :=
  ∃ f signature s', s.var fuel path names = (.ok (.function f signature), s') ∧
    (s.after (Request.work (.ofFuel fuel) s (.var path names))).context.deferred = [] ∧
      s'.TiesKnot units f

theorem Tying.givesTied (h : s.Tying a K cells n) (accepts : a.Accepts units) {fuel : Nat}
    (fueled : n < fuel) {path : String} {names : List String} {cell : CellId}
    (found : s.find path names = .ok cell) : s.GivesTied units fuel path names := by
  obtain ⟨v, M, answer, ends, good, ⟨f, signature, rfl, known⟩, next⟩ := h.var accepts fueled found
  obtain ⟨deferred, settled⟩ := good.settled_of_idle next.idle next.knotted.sound
  exact ⟨f, signature, _, answer, by rw [ends]; exact deferred, next.tiesKnot accepts settled known⟩

/-- **Definitions of functions always tie the knot.** Where all definitions hold functions without
default values, whatever these do and however they refer to each other, every request for a
definition is answered with a function, whichever definitions were asked for before. Nothing is
waited for any more by then, and all that the function has captured is known: it is the functions
that the cells of the captured definitions hold. The fuel that suffices depends on the program
alone. -/
theorem start_tiesKnots (numbered : units.Numbered) (accepted : analyze false units = .ok a)
    (functions : units.DefinesFunctions) (options : Code.Options) :
    ∃ s, start options units a = .ok s ∧
      (∀ u ∈ units, ∀ g ∈ u.namedGroups, ∀ v ∈ g.2.2, ∃ cell,
      s.find u.path [g.1, v.name] = .ok cell) ∧
      ∃ n, ∀ before : List (Nat × Request),
        (∀ entry ∈ before, n ≤ entry.1 ∧ ∃ path names, entry.2 = .var path names) →
          ∀ fuel ≥ n, ∀ path names cell, s.find path names = .ok cell →
            (s.serve .idle before).2.GivesTied units fuel path names := by
  have accepts := analyze_accepts numbered accepted
  obtain ⟨c, l, s, started, begins⟩ := start_begins options numbered accepts
  have tying : s.Tying a c.memory.Returns s.memory.allCells (s.memory.load s.memory.allCells) :=
    ⟨begins.ok, fun cell => (begins.blank cell).idle, begins.knotted accepts functions,
      Nat.le_refl _⟩
  refine ⟨s, started, fun u hu g hg v hv => ?_, s.memory.load s.memory.allCells + 1,
    fun before plain fuel enough path names cell found => ?_⟩
  · obtain ⟨_, _, cell, defines⟩ := begins.defines accepts hu hg hv
    exact ⟨cell, defines.find⟩
  · obtain ⟨next, later⟩ := tying.serve accepts before plain
    rcases begins.ok.find_eq accepts path names with ⟨e, -, eq⟩ | ⟨cell', -, eq⟩
    · rw [eq s (.refl s)] at found
      cases found
    · exact next.givesTied accepts enough (eq _ later)

/-- Two modules that export a library each and import that of the other, with functions that refer
to themselves and to each other. In the notation of the language, with types left out:

    library l:              library k:
      e = () -> e             h = () -> l.f
      f = () -> k.h           i = () -> () -> i -/
def knottedModules : UnitSet :=
  let node (index : Nat) : Node := ⟨.tree index, default⟩
  let ref (index : Nat) (names : List String) : Expr := .reference (node index) ⟨.here, names⟩
  let function (index : Nat) (body : Expr) : Expr := .function (node index) [] .any body
  [⟨node 0, "a", 0, .module
      { globalName := none, imports := [⟨node 1, "b", [⟨node 2, .name "k", "k"⟩]⟩], aliases := []
        libraries := [⟨node 3, "l", true,
          [⟨node 4, "e", .function, function 5 (ref 6 ["e"])⟩,
           ⟨node 7, "f", .any, function 8 (ref 9 ["k", "h"])⟩]⟩]
        exports := [] }⟩,
   ⟨node 10, "b", 0, .module
      { globalName := none, imports := [⟨node 11, "a", [⟨node 12, .name "l", "l"⟩]⟩], aliases := []
        libraries := [⟨node 13, "k", true,
          [⟨node 14, "h", .any, function 15 (ref 16 ["l", "f"])⟩,
           ⟨node 17, "i", .function, function 18 (function 19 (ref 20 ["i"]))⟩]⟩]
        exports := [] }⟩]

/-- All definitions of these modules hold functions. -/
theorem knottedModules_functions : UnitSet.DefinesFunctions knottedModules := by
  intro u hu g hg v hv
  simp only [knottedModules, List.mem_cons, List.not_mem_nil, or_false] at hu
  rcases hu with rfl | rfl
  all_goals
    cases List.mem_singleton.mp hg
    simp only [List.mem_cons, List.not_mem_nil, or_false] at hv
    rcases hv with rfl | rfl
    all_goals exact ⟨by decide, fun p mem => by cases mem⟩

/-- The theorem at these modules. -/
theorem start_tiesKnots_modules : ∃ a s n, analyze false knottedModules = .ok a ∧
    start ⟨true, true⟩ knottedModules a = .ok s ∧
    (∀ u ∈ knottedModules, ∀ g ∈ u.namedGroups, ∀ v ∈ g.2.2,
      ∃ cell, s.find u.path [g.1, v.name] = .ok cell) ∧
    ∀ before : List (Nat × Request),
      (∀ entry ∈ before, n ≤ entry.1 ∧ ∃ path names, entry.2 = .var path names) →
        ∀ fuel ≥ n, ∀ path names cell, s.find path names = .ok cell →
          (s.serve .idle before).2.GivesTied knottedModules fuel path names := by
  have numbered : UnitSet.Numbered knottedModules := by decide +kernel
  have accepted : (analyze false knottedModules).isOk = true := by decide +kernel
  cases h : analyze false knottedModules with
  | error fault =>
    rw [h] at accepted
    cases accepted
  | ok a =>
    obtain ⟨s, started, found, n, gives⟩ :=
      start_tiesKnots numbered h knottedModules_functions ⟨true, true⟩
    exact ⟨a, s, n, rfl, started, found, gives⟩

/-- A function that refers to the list it is in. In the notation of the language:

    library l:
      f = () -> x
      x = [f] -/
def listedFunction : UnitSet :=
  let node (index : Nat) : Node := ⟨.tree index, default⟩
  let ref (index : Nat) (name : String) : Expr := .reference (node index) ⟨.here, [name]⟩
  [⟨node 0, "m", 0, .module
    { globalName := none, imports := [], aliases := [], exports := []
      libraries := [⟨node 1, "l", false,
        [⟨node 2, "f", .any, .function (node 3) [] .any (ref 4 "x")⟩,
         ⟨node 5, "x", .any, .list (node 6) [.value (ref 7 "f")]⟩]⟩] }⟩]

/-- **The knot is not always tied.** Where not all definitions hold functions, the order of requests
matters. Asked for first, the list lets the function wait for it, and both have values. Asked for
first, the function asks for the list, which finds the function under way, and both fail for
good. -/
theorem listedFunction_order_matters : listedFunction.Numbered ∧ ∀ options : Code.Options,
    ∃ a s, analyze false listedFunction = .ok a ∧ start options listedFunction a = .ok s ∧
      (∃ v w, (s.var 9 "m" ["l", "x"]).1 = .ok v ∧
        ((s.var 9 "m" ["l", "x"]).2.var 9 "m" ["l", "f"]).1 = .ok w) ∧
      ∃ e e', (s.var 9 "m" ["l", "f"]).1 = .error (.raised e) ∧
        ((s.var 9 "m" ["l", "f"]).2.var 9 "m" ["l", "x"]).1 = .error (.raised e') ∧
        e.code = .cyclicEvaluation ∧ e'.code = .cyclicEvaluation := by
  refine ⟨by decide +kernel, fun options => ?_⟩
  have evaluates : ∀ specialize fold, ((analyze false listedFunction).toOption.bind fun a =>
      (start ⟨specialize, fold⟩ listedFunction a).toOption.map fun s =>
        ((s.var 9 "m" ["l", "x"]).1.toOption.isSome,
          ((s.var 9 "m" ["l", "x"]).2.var 9 "m" ["l", "f"]).1.toOption.isSome,
          (Reply.value (s.var 9 "m" ["l", "f"]).1).exception?.map (·.code),
          (Reply.value ((s.var 9 "m" ["l", "f"]).2.var 9 "m" ["l", "x"]).1).exception?.map
            (·.code))) =
      some (true, true, some .cyclicEvaluation, some .cyclicEvaluation) := by
    decide +kernel
  have ofToOption : ∀ {ε β : Type} {x : Except ε β} {v : β}, x.toOption = some v → x = .ok v := by
    rintro ε β (e | w) v h <;> cases h
    rfl
  have raised : ∀ {answer : Answer Value} {code : ErrorCode},
      (Reply.value answer).exception?.map (·.code) = some code →
      ∃ e, answer = .error (.raised e) ∧ e.code = code := by
    intro answer code h
    obtain ⟨e, he, same⟩ := Option.map_eq_some_iff.mp h
    refine ⟨e, ?_, same⟩
    rcases answer with (e' | _ | _) | v <;> cases he
    rfl
  obtain ⟨a, accepted, evaluates⟩ :=
    Option.bind_eq_some_iff.mp (evaluates options.specialize options.fold)
  obtain ⟨s, started, evaluates⟩ := Option.map_eq_some_iff.mp evaluates
  simp only [Prod.mk.injEq] at evaluates
  obtain ⟨first, second, fails, failsToo⟩ := evaluates
  obtain ⟨v, hv⟩ := Option.isSome_iff_exists.mp first
  obtain ⟨w, hw⟩ := Option.isSome_iff_exists.mp second
  obtain ⟨e, he, code⟩ := raised fails
  obtain ⟨e', he', code'⟩ := raised failsToo
  exact ⟨a, s, ofToOption accepted, ofToOption started, ⟨v, w, ofToOption hv, ofToOption hw⟩, e, e',
    he, he', code, code'⟩

end Session

end CellScript
