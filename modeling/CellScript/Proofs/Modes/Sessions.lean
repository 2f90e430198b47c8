import CellScript.Proofs.Modes.Compilation
import CellScript.Proofs.Modes.Demands
import CellScript.Proofs.Session.Mirrors

/-!
# Sessions of one program in two modes

A session starts with whatever completion of operations its options ask for. The session without any
completion and the others lay out the same spaces, find the same cells, and then give the same
answers: what is created for folded operations is all that tells them apart.

* `Layout.program_follows` — the same spaces are laid out
* `Session.Follows` — sessions that differ in the completion of operations
* `Session.Follows.varBy`, `Session.serve_follows` — requests for definitions are answered alike
* `Session.start_modesAgree` — **the modes of compilation agree**
-/

namespace CellScript

open Code (Options Template)

variable {static : Memory} {L : Links}

/-! ## Laying out -/

/-- Both layouts have come equally far. -/
structure Layout.Follows (static : Memory) (l l' : Layout) : Prop where
  memory : Memory.Follows static .none l.memory l'.memory
  spaces : l.spaces = l'.spaces

namespace Layout

variable {α β : Type}

/-- From layouts that have come equally far both steps end in the same way, with the same result. -/
def Abreast (static : Memory) (x y : Step α) : Prop :=
  ∀ l l', Layout.Follows static l l' →
    BothEnd (fun r r' => r.1 = r'.1 ∧ Layout.Follows static r.2 r'.2) (x l) (y l')

namespace Abreast

theorem pure (v : α) : Abreast static (Pure.pure v) (Pure.pure v) :=
  fun _ _ now => .ok ⟨rfl, now⟩

theorem throw (e : Exception) :
    Abreast static (throw e : Step α) (MonadExcept.throw e : Step α) :=
  fun _ _ _ => .error e

theorem bind {x y : Step α} {f g : α → Step β} (first : Abreast static x y)
    (second : ∀ v, Abreast static (f v) (g v)) : Abreast static (x >>= f) (y >>= g) := by
  intro l l' now
  have ends := first l l' now
  show BothEnd _ (x l >>= fun r => f r.1 r.2) (y l' >>= fun r => g r.1 r.2)
  generalize x l = r at ends
  generalize y l' = r' at ends
  cases ends with
  | @ok r r' h =>
    obtain ⟨v, l⟩ := r
    obtain ⟨w, l'⟩ := r'
    obtain ⟨rfl, later⟩ := h
    exact second v l l' later
  | error e => exact .error e

theorem get {f g : Layout → Step α}
    (h : ∀ l l', Layout.Follows static l l' → Abreast static (f l) (g l')) :
    Abreast static (MonadState.get >>= f) (MonadState.get >>= g) :=
  fun l l' now => h l l' now l l' now

theorem update {f : Layout → Layout}
    (h : ∀ l l', Layout.Follows static l l' → Layout.Follows static (f l) (f l')) :
    Abreast static (modify f : Step PUnit) (modify f) :=
  fun l l' now => .ok ⟨rfl, h l l' now⟩

end Abreast

/-- A space is added on both sides. -/
theorem add_follows (scope : ScopeId) {create create' : Memory → SpaceId × Memory}
    (h : ∀ m n, Memory.Follows static .none m n →
      (create m).1 = (create' n).1 ∧ Memory.Follows static .none (create m).2 (create' n).2) :
    Abreast static (add scope create) (add scope create') := by
  intro l l' now
  obtain ⟨same, follows⟩ := h _ _ now.memory
  refine .ok ⟨same, follows, ?_⟩
  show l.spaces.insert scope (create l.memory).1 = l'.spaces.insert scope (create' l'.memory).1
  rw [now.spaces, same]

theorem members_follows {layOut layOut' : ScopeId → Step SpaceId}
    (h : ∀ scope, Abreast static (layOut scope) (layOut' scope)) (ids : List CellId) :
    Abreast static (members layOut ids) (members layOut' ids) := by
  induction ids with
  | nil => exact .pure _
  | cons id rest ih =>
    rw [members, members]
    refine .get fun l l' now => ?_
    rw [(now.memory.cell id).shape.members]
    split
    · exact ih
    · refine (h _).bind fun space => Abreast.bind (.update fun l l' now => ⟨?_, now.spaces⟩)
        fun _ => ih
      exact now.memory.modifyCell id fun _ _ c => { c with members := rfl }

variable {arena : Arena} {T T' : Table ScopeId Template}

theorem cellsOf_follows {m n : Memory} (h : Memory.Follows static L m n) (space : SpaceId) :
    m.cellsOf space = n.cellsOf space := by
  rw [Memory.cellsOf, Memory.cellsOf, (h.space space).size]

theorem scope_follows
    (templates : ∀ scope, Option.Rel (Template.Becomes static) (T.get? scope) (T'.get? scope))
    (fuel : Nat) (id : ScopeId) (parent : SpaceId) :
    Abreast static (scope arena T fuel id parent) (scope arena T' fuel id parent) := by
  induction fuel generalizing id parent with
  | zero => exact .throw _
  | succ fuel ih =>
    rw [scope, scope]
    have known := templates id
    generalize T.get? id = x at known
    generalize T'.get? id = y at known
    cases known with
    | none => exact .throw _
    | some becomes =>
      refine .get fun l l' now => ?_
      rw [now.spaces]
      refine (add_follows id fun m n now =>
        ⟨now.count, now.newSpace (.ofTemplate becomes _ .none)⟩).bind fun space =>
          .get fun l l' now => ?_
      rw [cellsOf_follows now.memory]
      exact (members_follows (fun inner => ih inner space) _).bind fun _ => .pure _

theorem unitOrder_follows {m n : Memory} (h : Memory.Follows static L m n) (units : SpaceId) :
    unitOrder arena m units = unitOrder arena n units := by
  have same : ∀ id, (m.cell id).shape.symbol = (n.cell id).shape.symbol :=
    fun id => (h.cell id).shape.symbol
  simp only [unitOrder, same, cellsOf_follows h]

/-- **The same spaces are laid out.** -/
theorem program_follows (arena : Arena)
    (templates : ∀ scope, Option.Rel (Template.Becomes static) (T.get? scope) (T'.get? scope)) :
    Abreast static (program arena T) (program arena T') := by
  rw [program, program]
  have known := templates Analysis.unitsScope
  generalize T.get? Analysis.unitsScope = x at known
  generalize T'.get? Analysis.unitsScope = y at known
  cases known with
  | none => exact .throw _
  | some becomes =>
    refine (add_follows _ fun m n now =>
      ⟨now.count, now.newSpace (.ofTemplate becomes _ .none)⟩).bind fun units =>
        .get fun l l' now => ?_
    rw [unitOrder_follows now.memory]
    exact (members_follows (fun inner => scope_follows templates _ inner units) _).bind
      fun _ => .pure _

end Layout

/-! ## The start -/

/-- The detached space of the first memory is that of the second. -/
theorem Memory.Adds.follows {n : Memory} (adds : Memory.initial.Adds n) :
    Memory.Follows n .none .initial n where
  count := congrArg Array.size adds.spaces.symm
  space id := by
    -- Folding creates no spaces, so there is only the detached one.
    have same : n.space id = Memory.initial.space id := by rw [Memory.space, adds.spaces]; rfl
    rw [same]
    by_cases first : id = 0
    · subst first
      exact ⟨.mk _ .nil, .nil, rfl, .none⟩
    · have none : Memory.initial.space id = default := by
        rw [Memory.space, Array.getD_eq_getD_getElem?, Array.getElem?_eq_none]
        · rfl
        · exact Nat.one_le_iff_ne_zero.mpr first
      rw [none]
      exact .default
  held := adds.held.symm
  pins := adds.pins.symm
  closures _ _ h := h.elim
  closure _ _ h := h.elim
  apart _ _ _ _ h := h.elim
  functions _ _ h := h.elim
  function _ _ h := h.elim
  left := Pool.clear_unused
  right := by
    rw [adds.scratch]
    exact Pool.clear_unused
  static := .refl n

/-! ## Answers -/

/-- Both are values that stand for each other, or exceptions that differ in the thrown value at
most, or are missing for want of fuel. -/
inductive Answer.Follows (L : Links) : Answer Value → Answer Value → Prop
  | ok {v w : Value} (h : L.values v w) : Answer.Follows L (.ok v) (.ok w)
  | raised {e e' : Exception} (h : Exception.Follows L e e') :
      Answer.Follows L (.error (.raised e)) (.error (.raised e'))
  | exhausted : Answer.Follows L (.error .exhausted) (.error .exhausted)

theorem Answer.Follows.links {L' : Links} (le : L.Le L') {x y : Answer Value}
    (h : Answer.Follows L x y) : Answer.Follows L' x y := by
  cases h with
  | ok h => exact .ok (h.links le)
  | raised h => exact .raised (h.links le)
  | exhausted => exact .exhausted

/-- Both are answers to requests for definitions, and alike. -/
inductive Reply.Follows (L : Links) : Reply → Reply → Prop
  | value {x y : Answer Value} (h : Answer.Follows L x y) : Reply.Follows L (.value x) (.value y)

/-- Both are literals, or both pass their arguments on in the same way, with fixed values that stand
for each other, to functions that do. -/
inductive FunctionBody.Resembles (L : Links) : FunctionBody → FunctionBody → Prop
  | literal (body body' : Code.Op) (t t' : Template) (c d : ClosureId) (region : Span) :
      FunctionBody.Resembles L (.literal body t c region) (.literal body' t' d region)
  | curried {f g : FunctionId} {fixed fixed' : List (Option Value)} (target : L.functions f g)
      (adapter : Adapter.select fixed = Adapter.select fixed')
      (h : List.Forall₂ (Option.Rel L.values) fixed fixed') :
      FunctionBody.Resembles L (.curried f fixed) (.curried g fixed')

/-- What can be seen of the functions is the same, with values that stand for each other. -/
structure FunctionObject.Resembles (L : Links) (f g : FunctionObject) : Prop where
  signature : f.signature = g.signature
  defaults : L.items f.defaults g.defaults
  body : FunctionBody.Resembles L f.body g.body

theorem FunctionObject.Follows.resembles {f g : FunctionObject}
    (h : FunctionObject.Follows static L f g) : FunctionObject.Resembles L f g := by
  refine ⟨h.signature, h.defaults, ?_⟩
  obtain ⟨_, _, body⟩ := f
  obtain ⟨_, _, body'⟩ := g
  cases h.body with
  | literal _ _ _ region => exact .literal _ _ _ _ _ _ region
  | curried target fixed => exact .curried target (Adapter.select_follows fixed) fixed

namespace Session

/-- Both sessions belong to the same program and stand at the same point. -/
structure Follows (static : Memory) (L : Links) (s s' : Session) : Prop where
  analysis : s.analysis = s'.analysis
  memory : Memory.Follows static L s.memory s'.memory
  units : s.units = s'.units
  diagnostics : s.diagnostics = s'.diagnostics

/-- Sessions start side by side, or fail to start for the same reason. -/
theorem start_follows {a : Analysis} {units : UnitSet}
    (blind : ∀ e, units.Contains e → ¬e.Compares) (options : Options) :
    BothEnd (fun s s' => ∃ static, Follows static .none s s') (start ⟨false, false⟩ units a)
      (start options units a) := by
  obtain ⟨compiled, -, -⟩ := Compiler.program_follows a options (m := .initial) blind
    ⟨.initial, []⟩ ⟨.initial, []⟩ ⟨rfl, .refl _, fun _ => .none⟩ (.refl _)
  generalize hx : (Compiler.plain a).program units ⟨.initial, []⟩ = x at compiled
  generalize hy : (Compiler.full a options).program units ⟨.initial, []⟩ = y at compiled
  have ends := Layout.program_follows a.arena compiled.templates
    ⟨x.2.memory, []⟩ ⟨y.2.memory, []⟩ ⟨compiled.nothing ▸ compiled.adds.follows, rfl⟩
  have starts : ∀ (c : Compiler) z, c.program units ⟨.initial, []⟩ = z →
      start c.options units c.analysis =
        (Layout.program c.analysis.arena z.2.templates ⟨z.2.memory, []⟩).map fun r =>
          ⟨c.analysis, r.2.memory, r.1, []⟩ := fun c z hz => by
    subst hz
    rw [start]
    rfl
  have plainly := starts (.plain a) x hx
  have fully := starts (.full a options) y hy
  simp only [Compiler.plain, Compiler.full] at plainly fully
  rw [plainly, fully]
  exact ends.map fun r r' h => ⟨_, rfl, h.2.memory, h.1, rfl⟩

/-! ## Requests -/

section Requests

variable {s s' : Session}

theorem cellAt_follows {m n : Memory} (h : Memory.Follows static L m n) (missing : Exception)
    (space : SpaceId) (slots : List Nat) :
    cellAt m missing space slots = cellAt n missing space slots := by
  induction slots generalizing space with
  | nil => rfl
  | cons slot rest ih =>
    cases rest with
    | nil => exact h.cellIn space slot
    | cons next rest =>
      simp only [cellAt, bind, Except.bind, h.cellIn]
      cases n.cellIn space slot with
      | error e => rfl
      | ok id =>
        simp only [(h.cell id).members]
        split
        · exact ih _
        · rfl

/-- The same cells are found. -/
theorem Follows.find (h : Follows static L s s') (path : String) (names : List String) :
    s.find path names = s'.find path names := by
  simp only [Session.find, h.analysis, h.units, cellAt_follows h.memory]

theorem unthrown_of_cellAt {m : Memory} {missing e : Exception} (unthrown : missing.thrown = none)
    {space : SpaceId} {slots : List Nat} (failed : cellAt m missing space slots = .error e) :
    e.thrown = none := by
  have cellIn : ∀ {space slot}, m.cellIn space slot = .error e → e.thrown = none := by
    intro space slot failed
    rw [Memory.cellIn] at failed
    split at failed <;> cases failed
    rfl
  induction slots generalizing space with
  | nil =>
    cases failed
    exact unthrown
  | cons slot rest ih =>
    cases rest with
    | nil => exact cellIn failed
    | cons next rest =>
      simp only [cellAt, bind, Except.bind] at failed
      cases found : m.cellIn space slot with
      | error e =>
        rw [found] at failed
        cases failed
        exact cellIn found
      | ok id =>
        simp only [found] at failed
        split at failed
        · exact ih failed
        · cases failed
          exact unthrown

/-- No program has thrown the exception for something that is not found. -/
theorem unthrown_of_find {path : String} {names : List String} {e : Exception}
    (failed : s.find path names = .error e) : e.thrown = none := by
  simp only [Session.find] at failed
  split at failed
  · cases failed
    rfl
  · split at failed
    · cases failed
      rfl
    · split at failed
      · cases failed
        rfl
      · exact unthrown_of_cellAt rfl failed

/-- The requests have ended side by side. -/
def BothServed (static : Memory) (L : Links) (r r' : Answer Value × Session) : Prop :=
  ∃ L', L.Le L' ∧ Answer.Follows L' r.1 r'.1 ∧ Follows static L' r.2 r'.2

theorem Follows.run (h : Follows static L s s') {x y : Eval Value}
    (follows : Eval.Follows static L Links.values x y) :
    BothServed static L (s.run x) (s'.run y) := by
  have ends := follows s.machine s'.machine
    ⟨h.memory, congrArg some h.units, rfl, .nil⟩
  generalize hr : x s.machine = r at ends
  generalize hr' : y s'.machine = r' at ends
  cases ends with
  | ok le same now =>
    rw [run_of_ok hr, run_of_ok hr']
    exact ⟨_, le, .ok same, { h with memory := now.memory }⟩
  | raised le same now =>
    rw [run_of_error hr, run_of_error hr']
    exact ⟨_, le, .raised same, { h with memory := now.memory }⟩
  | exhausted le now =>
    rw [run_of_error hr, run_of_error hr']
    exact ⟨_, le, .exhausted, { h with memory := now.memory }⟩

/-- The same is reported. -/
theorem BothServed.report {r r' : Answer Value × Session} (h : BothServed static L r r') :
    BothServed static L (report r) (report r') := by
  obtain ⟨answer, s⟩ := r
  obtain ⟨answer', s'⟩ := r'
  obtain ⟨L', le, answers, now⟩ := h
  cases answers with
  | ok same => exact ⟨L', le, .ok same, now⟩
  | exhausted => exact ⟨L', le, .exhausted, now⟩
  | @raised e e' same =>
    refine ⟨L', le, .raised same, { now with diagnostics := ?_ }⟩
    show s.diagnostics ++ [diagnosticOf e] = s'.diagnostics ++ [diagnosticOf e']
    rw [now.diagnostics, diagnosticOf, diagnosticOf, same.message, same.span, same.code]

/-- **Both sessions have the same value for a definition**, or the same reason for not having
one. -/
theorem Follows.varBy (h : Follows static L s s') {S T : Supply} (follows : S.Follows static T)
    (path : String) (names : List String) :
    BothServed static L (s.varBy S path names) (s'.varBy T path names) := by
  rw [Session.varBy, Session.varBy, ← h.find path names]
  cases found : s.find path names with
  | error e => exact ⟨L, .refl L, .raised (.refl (unthrown_of_find found)), h⟩
  | ok id => exact (h.run (follows.force L id)).report

/-- **Definitions are asked for one after another, and all answers are alike.** -/
theorem serve_follows (requests : List (Nat × Request))
    (vars : ∀ entry ∈ requests, ∃ path names, entry.2 = .var path names)
    (h : Follows static L s s') : ∃ L', L.Le L' ∧
      List.Forall₂ (Reply.Follows L') (s.serve .idle requests).1 (s'.serve .idle requests).1 ∧
      Follows static L' (s.serve .idle requests).2 (s'.serve .idle requests).2 := by
  induction requests generalizing s s' L with
  | nil => exact ⟨L, .refl L, .nil, h⟩
  | cons entry rest ih =>
    obtain ⟨fuel, request⟩ := entry
    rw [List.forall_mem_cons] at vars
    obtain ⟨⟨path, names, rfl⟩, vars⟩ := vars
    obtain ⟨L₁, le, answer, now⟩ :=
      h.varBy (Supply.ofFuel_follows static fuel) path names
    obtain ⟨L₂, le', replies, last⟩ := ih vars now
    exact ⟨L₂, le.trans le', .cons (.value (answer.links le')) replies, last⟩

end Requests

/-! ## Modes -/

/-- The sessions have given answers alike and reported the same, and what can be seen of functions
that stand for each other is the same. -/
structure AnswerAlike (L : Links) (r r' : List Reply × Session) : Prop where
  replies : List.Forall₂ (Reply.Follows L) r.1 r'.1
  diagnostics : r.2.diagnostics = r'.2.diagnostics
  known : ∀ f g, L.functions f g →
    f < r.2.memory.functions.size ∧ g < r'.2.memory.functions.size
  functions : ∀ f g, L.functions f g →
    FunctionObject.Resembles L (r.2.memory.function f) (r'.2.memory.function g)

/-- A session starts without completion of operations and with any. Whichever definitions are asked
for one after another, all these sessions give the same answers, up to the identities of lists,
dictionaries and functions. -/
def ModesAgree (units : UnitSet) (a : Analysis) : Prop :=
  ∃ s, start ⟨false, false⟩ units a = .ok s ∧
    ∀ options, ∃ s', start options units a = .ok s' ∧ ∀ requests : List (Nat × Request),
      (∀ entry ∈ requests, ∃ path names, entry.2 = .var path names) →
        ∃ L, AnswerAlike L (s.serve .idle requests) (s'.serve .idle requests)

/-- **The modes of compilation agree on programs that compare nothing.** -/
theorem start_modesAgree {recovery : Bool} {units : UnitSet} {a : Analysis}
    (numbered : units.Numbered) (analyzed : analyze recovery units = .ok a)
    (blind : ∀ e, units.Contains e → ¬e.Compares) : ModesAgree units a := by
  have outlined := analyze_outlined numbered analyzed
  obtain ⟨plans, root⟩ := Compiler.program_plans ⟨false, false⟩ outlined
  obtain ⟨space, l, laid, -⟩ := Layout.program_lays (I := fun _ => True) plans
    ⟨fun _ _ _ _ _ _ => trivial, fun _ _ _ _ _ => trivial⟩ root trivial
  have started := start_of_program laid
  refine ⟨_, started, fun options => ?_⟩
  -- Whichever way operations are completed, a session starts since the first one does.
  have starts := start_follows (a := a) blind options
  rw [started] at starts
  generalize start options units a = r at starts
  cases starts with
  | ok follows =>
    obtain ⟨static, follows⟩ := follows
    refine ⟨_, rfl, fun requests vars => ?_⟩
    obtain ⟨L, -, replies, last⟩ := serve_follows requests vars follows
    exact ⟨L, replies, last.diagnostics, last.memory.functions,
      fun f g linked => (last.memory.function f g linked).resembles⟩

/-- A module in which constants and a function are computed beforehand, if options ask for it. In
the notation of the language, with types left out:

    library l:
      a = [1 + 2]
      f = (x = 1 + 2) -> [x, a]
      g = curry(f, x = 4) -/
def foldableModule : UnitSet :=
  let node (index : Nat) : Node := ⟨.tree index, default⟩
  let ref (index : Nat) (name : String) : Expr := .reference (node index) ⟨.here, [name]⟩
  let long (index : Nat) (n : Int64) : Expr := .constant (node index) (.long n)
  let sum (index : Nat) : Expr :=
    .binary (node index) .add (long (index + 1) 1) (long (index + 2) 2)
  [⟨node 0, "m", 0, .module
    { globalName := none, imports := [], aliases := [], exports := []
      libraries := [⟨node 1, "l", false,
        [⟨node 2, "a", .list, .list (node 3) [.value (sum 4)]⟩,
         ⟨node 7, "f", .function, .function (node 8) [⟨node 9, "x", .any, some (sum 10)⟩] .list
            (.list (node 13) [.value (ref 14 "x"), .value (ref 15 "a")])⟩,
         ⟨node 16, "g", .function, .curry (node 17) (ref 18 "f") [⟨"x", long 19 4⟩]⟩]⟩] }⟩]

/-- Nothing in the module compares values. -/
theorem foldableModule_blind : ∀ e, foldableModule.Contains e → ¬e.Compares := by
  have reference : ∀ node r, (Expr.reference node r).Blind := fun _ _ =>
    .of_parts id fun _ h => by cases h
  have constant : ∀ node l, (Expr.constant node l).Blind := fun _ _ =>
    .of_parts id fun _ h => by cases h
  have sum : ∀ node node₁ node₂ l r,
      (Expr.binary node .add (.constant node₁ l) (.constant node₂ r)).Blind := fun _ _ _ _ _ =>
    .of_parts (show BinaryOp.add ∉ Code.equalities by decide)
      (List.forall_mem_cons.mpr ⟨constant _ _, List.forall_mem_singleton.mpr (constant _ _)⟩)
  rintro e ⟨u, hu, g, hg, v, hv, occurs⟩
  cases List.mem_singleton.mp hu
  cases List.mem_singleton.mp hg
  suffices v.value.Blind from this e occurs
  simp only [List.mem_cons, List.not_mem_nil, or_false] at hv
  rcases hv with rfl | rfl | rfl
  · exact .of_parts id (List.forall_mem_singleton.mpr (sum _ _ _ _ _))
  · exact .of_parts id (List.forall_mem_cons.mpr ⟨sum _ _ _ _ _, List.forall_mem_singleton.mpr
      (.of_parts id (List.forall_mem_cons.mpr ⟨reference _ _,
        List.forall_mem_singleton.mpr (reference _ _)⟩))⟩)
  · exact .of_parts id (List.forall_mem_cons.mpr ⟨reference _ _,
      List.forall_mem_singleton.mpr (constant _ _)⟩)

/-- The theorem at this module. -/
theorem start_modesAgree_foldable :
    ∃ a, analyze false foldableModule = .ok a ∧ ModesAgree foldableModule a := by
  have numbered : UnitSet.Numbered foldableModule := by decide +kernel
  have accepted : (analyze false foldableModule).isOk = true := by decide +kernel
  cases h : analyze false foldableModule with
  | error fault =>
    rw [h] at accepted
    cases accepted
  | ok a => exact ⟨a, rfl, start_modesAgree numbered h foldableModule_blind⟩

end Session

end CellScript
