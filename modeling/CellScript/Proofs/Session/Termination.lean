import CellScript.Proofs.Eval.CallFree
import CellScript.Proofs.Session.Mirrors

/-!
# Requests that are always answered

A program in which nothing runs a function answers every request for a definition, a unit or a
section, however its definitions refer to one another. There is an amount of fuel that suffices for
all of them, in any order: more than the count of all cells that are laid out when the session
starts.

* `Layout.keeps_quiet` — laying out a program prepares for no function to run
* `Session.Affords` — the fuel suffices for whatever is asked of a session
* `Session.start_answers` — requests are answered with a result or an exception
-/

namespace CellScript

variable {α : Type} {a : Analysis} {T : Table ScopeId Code.Template} {m : Memory} {s : Session}
  {static : SpaceId} {n fuel : Nat}

/-! ## Layout -/

namespace Layout

/-- No function runs in memory, and all that is there is laid out for good. -/
def Quiet (m : Memory) : Prop := Machine.Tame m.spaces.size ⟨m, .detached⟩

/-- Nothing but the detached space is there yet. -/
theorem quiet_of_spaces (h : m.spaces = Memory.initial.spaces) : Quiet m := by
  have space : ∀ id, Memory.initial.space id = Space.ofTemplate .empty none none ∨
      Memory.initial.space id = default := by
    intro id
    cases id with
    | zero => exact .inl rfl
    | succ n => exact .inr rfl
  have cell : ∀ id, Memory.initial.cell id = default := by
    intro id
    rw [Memory.cell]
    rcases space id.space with same | same
    · rw [same]
      rfl
    · rw [same]
      rfl
  have initial : Machine.Tame 1 ⟨Memory.initial, .detached⟩ := by
    refine ⟨Nat.le_refl _, fun id => ?_, fun id e he => ?_, fun id s hs => ?_, fun id => ?_,
      fun u hu => by cases hu⟩
    · rcases space id with same | same <;> exact congrArg Space.closure same
    · rcases space id with same | same <;>
        exact absurd (he.symm.trans (congrArg Space.enclosing same)) (fun h => by cases h)
    · exact absurd (hs.symm.trans (congrArg Cell.members (cell id))) (fun h => by cases h)
    · show Code.optionCallFree (Memory.initial.cell id).shape.init
      rw [cell]
      trivial
  have size : m.spaces.size = 1 := by
    rw [h]
    rfl
  rw [Quiet, size]
  exact initial.of_spaces h rfl

/-- **Laying out templates that run no function prepares for none to run.** -/
theorem keeps_quiet (templates : ∀ σ t, T.get? σ = some t → t.CallFree) : Keeps a T Quiet where
  newSpace {m σ t} enclosing quiet around found _ _ := by
    have keeps :=
      quiet.keeps_newSpace (s := .ofTemplate t enclosing none) rfl around fun i c hc => by
      change ((t.slots.map Cell.ofSlot).toArray)[i]? = some c at hc
      rw [List.getElem?_toArray, List.getElem?_map, Option.map_eq_some_iff] at hc
      obtain ⟨slot, there, rfl⟩ := hc
      exact ⟨rfl, rfl, (Code.template_callFree_iff t).mp (templates σ t found) slot
        (List.mem_of_getElem? there)⟩
    exact keeps.tame.raise keeps.grows.spaces (Nat.le_refl _)
  setMembers {m id space σ} quiet has _ _ known := by
    have tame := quiet.modifyCell (f := fun c : Cell => { c with members := some space }) has rfl
      fun s hs => by
        cases hs
        exact known
    rw [Quiet, Memory.size_spaces_modifyCell]
    exact tame

end Layout

/-! ## Requests -/

namespace Session

/-- The fuel suffices for whatever is asked of the session. -/
structure Affords (static n : Nat) (s : Session) : Prop where
  units : s.units < static
  enough : ∀ space < static, s.machine.Affords static space 0 n

theorem Affords.tame (h : s.Affords static n) : s.machine.Tame static := (h.enough _ h.units).tame

/-- Of a request, the answer arrives, and the session affords as much as before. -/
def Settles (static n : Nat) (r : Answer α × Session) : Prop := r.1.Arrives ∧ r.2.Affords static n

/-- A step that ends may be run. -/
theorem Affords.run (h : s.Affords static n) {x : Eval α} {P : α → Machine → Prop}
    (halts : Halts static x s.machine P) : Settles static n (s.run x) := by
  have kept : ∀ {M : Machine}, s.machine.Keeps static M →
      Affords static n { s with memory := M.memory } := by
    intro M keeps
    have keeps' : s.machine.Keeps static ⟨M.memory, .ofUnits s.units⟩ :=
      ⟨keeps.tame.of_spaces rfl keeps.units.symm, keeps.grows, rfl, keeps.evaluating⟩
    exact ⟨h.units, fun space low => (h.enough space low).later keeps'⟩
  rcases halts with ⟨v, M, ran, keeps, -⟩ | ⟨e, M, ran, keeps⟩
  · rw [run_of_ok ran]
    exact ⟨trivial, kept keeps⟩
  · rw [run_of_error ran]
    exact ⟨trivial, kept keeps⟩

theorem Settles.report {r : Answer α × Session} (h : Settles static n r) :
    Settles static n (report r) := by
  obtain ⟨answer, diagnostics, session⟩ := report_eq r
  refine ⟨by rw [answer]; exact h.1, ?_⟩
  rw [session]
  exact ⟨h.2.units, h.2.enough⟩

theorem Affords.whenFound {β : Type} (h : s.Affords static n) {found : Except Exception β}
    {f : β → Answer α × Session} (rest : ∀ b, found = .ok b → Settles static n (f b)) :
    Settles static n (s.whenFound found f) := by
  unfold Session.whenFound
  cases hf : found with
  | ok b => exact rest b hf
  | error e => exact ⟨trivial, h⟩

/-! ## Looking up -/

theorem of_bind_eq_ok {β γ ε : Type} {x : Except ε β} {f : β → Except ε γ} {r : γ}
    (h : x >>= f = .ok r) : ∃ b, x = .ok b ∧ f b = .ok r := by
  cases x with
  | ok b => exact ⟨b, rfl, h⟩
  | error e => cases h

/-- From static spaces, slots lead to cells in static spaces. -/
theorem cellAt_static {M : Machine} (tame : M.Tame static) (missing : Exception) (path : List Nat)
    {space : SpaceId} (low : space < static) {id : CellId}
    (h : cellAt M.memory missing space path = .ok id) :
    M.memory.HasCell id ∧ id.space < static := by
  induction path generalizing space with
  | nil => cases h
  | cons slot rest ih =>
    cases rest with
    | nil =>
      obtain ⟨has, rfl⟩ := Memory.hasCell_of_cellIn h
      exact ⟨has, low⟩
    | cons next rest =>
      rw [cellAt] at h
      · obtain ⟨first, -, h⟩ := of_bind_eq_ok h
        split at h
        · next members there => exact ih (tame.members first members there) h
        · cases h
      · exact fun h => by cases h

theorem Affords.find (h : s.Affords static n) {path : String} {names : List String} {id : CellId}
    (found : s.find path names = .ok id) : s.memory.HasCell id ∧ id.space < static := by
  simp only [Session.find] at found
  split at found
  · cases found
  · split at found
    · cases found
    · split at found
      · cases found
      · exact cellAt_static h.tame _ _ h.units found

theorem Affords.unitSpace (h : s.Affords static n) {path : String} {space : SpaceId}
    (found : s.unitSpace path = .ok space) : space < static := by
  unfold Session.unitSpace at found
  split at found
  · cases found
  · obtain ⟨id, -, found⟩ := of_bind_eq_ok found
    split at found
    · next members there =>
      cases found
      exact h.tame.members id _ there
    · cases found

theorem Affords.sectionSpace (h : s.Affords static n) {path module : String} {space : SpaceId}
    (found : s.sectionSpace path module = .ok space) : space < static := by
  unfold Session.sectionSpace at found
  obtain ⟨unit, -, found⟩ := of_bind_eq_ok found
  split at found
  · next members there =>
    cases found
    obtain ⟨id, -, there⟩ := Option.bind_eq_some_iff.mp there
    exact h.tame.members id _ there
  · cases found

/-! ## Evaluating a space -/

variable {supply : Supply} {M : Machine}

theorem forceCell_halts (affordable : supply.Affordable static fuel)
    (enough : ∀ space < static, M.Affords static space 0 fuel) (tame : M.Tame static)
    {inner : SpaceId → Eval PUnit} {id : CellId} (has : M.memory.HasCell id)
    (low : id.space < static)
    (rest : ∀ space < static, Halts static (inner space) M fun _ _ => True) :
    Halts static (forceCell supply inner id) M fun _ _ => True := by
  refine Halts.memory ?_
  simp only
  split
  · next members there => exact rest members (tame.members id members there)
  · split
    · exact (affordable.force (enough id.space low) has).bind fun _ _ keeps _ =>
        .pure keeps.tame trivial
    · exact .pure tame trivial

/-- All definitions in a static space may be asked for. -/
theorem forceAll_halts (affordable : supply.Affordable static fuel) (depth : Nat)
    (enough : ∀ space < static, M.Affords static space 0 fuel) (tame : M.Tame static)
    {space : SpaceId} (low : space < static) :
    Halts static (forceAll supply depth space) M fun _ _ => True := by
  induction depth generalizing space M with
  | zero => exact .pure tame trivial
  | succ depth ih =>
    rw [forceAll_succ]
    refine Halts.memory (Halts.forM _ tame fun id mem M' keeps => ?_)
    have enough' : ∀ space < static, M'.Affords static space 0 fuel :=
      fun space low => (enough space low).later keeps
    refine forceCell_halts affordable enough' keeps.tame
      ((Memory.hasCell_of_mem mem).grows keeps.grows) ?_ fun inner low => ih enough' keeps.tame low
    rw [(Memory.mem_cellsOf.mp mem).1]
    exact low

theorem Affords.spaceBy (h : s.Affords static n) (affordable : supply.Affordable static n)
    {found : Except Exception SpaceId} (low : ∀ space, found = .ok space → space < static) :
    Settles static n (s.spaceBy supply found) := by
  refine h.whenFound fun space hf => (h.run (P := fun _ _ => True) ?_).report
  exact (forceAll_halts affordable _ h.enough h.tame (low space hf)).bind
    fun _ _ keeps _ => .pure keeps.tame trivial

end Session

/-- The supply of a level above suffices wherever a lower one does. -/
theorem Supply.Affordable.more {supply : Supply} (h : supply.Affordable static fuel)
    (le : n ≤ fuel) :
    supply.Affordable static n := by
  refine ⟨fun affords has => h.force ⟨affords.tame, affords.known, ?_⟩ has, h.bind, h.watch⟩
  obtain ⟨cells, sees, enough⟩ := affords.budget
  exact ⟨cells, sees, Nat.lt_of_lt_of_le enough le⟩

/-- **A request other than a call is answered**, and others can follow it. -/
theorem Request.answerBy_arrives {supply : Supply} (h : s.Affords static n)
    (affordable : supply.Affordable static n) (request : Request)
    (plain : ∀ function args, request ≠ .call function args) :
    (request.answerBy supply s).1.Arrives ∧ (request.answerBy supply s).2.Affords static n := by
  -- What is known of an answer is known of the reply with it.
  have value : ∀ {r : Answer Value × Session}, Session.Settles static n r →
      (r.map Reply.value id).1.Arrives ∧ (r.map Reply.value id).2.Affords static n :=
    fun settles => settles
  have space : ∀ {r : Answer SpaceId × Session}, Session.Settles static n r →
      (r.map Reply.space id).1.Arrives ∧ (r.map Reply.space id).2.Affords static n :=
    fun settles => settles
  cases request with
  | var path names =>
    refine value (h.whenFound fun id found => (h.run (P := fun _ _ => True) ?_).report)
    obtain ⟨has, low⟩ := h.find found
    exact affordable.force (h.enough id.space low) has
  | unit path => exact space (h.spaceBy affordable fun _ found => h.unitSpace found)
  | interactiveSection path module =>
    exact space (h.spaceBy affordable fun _ found => h.sectionSpace found)
  | call function args => exact absurd rfl (plain function args)

namespace Session

theorem Affords.serve (h : s.Affords static n) (requests : List (Nat × Request))
    (plain : ∀ entry ∈ requests, n ≤ entry.1 ∧ ∀ function args, entry.2 ≠ .call function args) :
    ∀ reply ∈ (s.serve .idle requests).1, reply.Arrives := by
  induction requests generalizing s with
  | nil => exact fun _ mem => by cases mem
  | cons first rest ih =>
    obtain ⟨fuel, request⟩ := first
    rw [List.forall_mem_cons] at plain
    obtain ⟨arrives, kept⟩ := request.answerBy_arrives h
      ((Supply.affordable static fuel).more plain.1.1) plain.1.2
    exact List.forall_mem_cons.mpr ⟨arrives, ih kept plain.2⟩

/-- For all that is laid out, some fuel suffices. -/
theorem exists_affords (quiet : Layout.Quiet s.memory) (known : s.units < s.memory.spaces.size) :
    ∃ n, s.Affords s.memory.spaces.size n := by
  have tame : s.machine.Tame s.memory.spaces.size :=
    ⟨quiet.low, quiet.closure, quiet.inside, quiet.members, quiet.inits, fun u hu => by
      cases hu
      exact known⟩
  have sees : ∀ space < s.memory.spaces.size,
      s.memory.Sees s.memory.spaces.size space s.memory.allCells := fun space _ =>
    ⟨fun id => Memory.mem_allCells.mp, fun id has _ => Memory.mem_allCells.mpr has⟩
  exact ⟨_, known, fun space low => ⟨tame, low, _, sees space low, Nat.lt_succ_self _⟩⟩

/-- **Where nothing runs a function, every request for a definition, a unit or a section is
answered** with a result or an exception, whatever was asked before, and however definitions, names
of blocks and captured symbols refer to one another. The fuel that suffices depends on the program
alone. -/
theorem start_answers {recovery : Bool} {units : UnitSet} (numbered : units.Numbered)
    (analyzed : analyze recovery units = .ok a) (callFree : ∀ e, units.Contains e → ¬e.Runs)
    (options : Code.Options) :
    ∃ s, start options units a = .ok s ∧ ∃ n, ∀ requests : List (Nat × Request),
      (∀ entry ∈ requests, n ≤ entry.1 ∧ ∀ function args, entry.2 ≠ .call function args) →
        ∀ reply ∈ (s.serve .idle requests).1, reply.Arrives := by
  have outlined := analyze_outlined numbered analyzed
  obtain ⟨plans, root⟩ := Compiler.program_plans options outlined
  have compiled := Compiler.program_callFree (c := ⟨a, options⟩) callFree
  obtain ⟨space, l, laid, lays, new, known, -⟩ := Layout.program_lays plans
    (Layout.keeps_quiet compiled.template) root (Layout.quiet_of_spaces compiled.spaces)
  obtain ⟨n, affords⟩ := exists_affords (s := ⟨a, l.memory, space, []⟩) lays.memory known
  exact ⟨_, start_of_program laid, n, fun requests plain => affords.serve requests plain⟩

/-- A module whose definitions refer to themselves and to each other, inside a block, a
comprehension and a function and past a handler. In the notation of the language, with types left
out:

    library l:
      a = b
      b = try a catch c
      c = let x = c in x
      d = for y in [d] do y
      f = () -> f -/
def selfReferring : UnitSet :=
  let node (index : Nat) : Node := ⟨.tree index, default⟩
  let ref (index : Nat) (name : String) : Expr := .reference (node index) ⟨.here, [name]⟩
  [⟨node 0, "m", 0, .module
    { globalName := none, imports := [], aliases := [], exports := []
      libraries := [⟨node 1, "l", false,
        [⟨node 2, "a", .any, ref 3 "b"⟩,
         ⟨node 4, "b", .any, .tryCatch (node 5) (ref 6 "a") (node 7) none none (ref 8 "c")⟩,
         ⟨node 9, "c", .any, .letIn (node 10) [⟨node 11, "x", .any, ref 12 "c"⟩] (ref 13 "x")⟩,
         ⟨node 14, "d", .list, .forEach (node 15)
            [.generator (node 16) "y" .any (.list (node 17) [.value (ref 18 "d")])] (ref 19 "y")⟩,
         ⟨node 20, "f", .function, .function (node 21) [] .any (ref 22 "f")⟩]⟩] }⟩]

/-- Nothing in the module runs a function. -/
theorem selfReferring_callFree : ∀ e, selfReferring.Contains e → ¬e.Runs := by
  have reference : ∀ node r, (Expr.reference node r).CallFree := fun _ _ =>
    .of_parts id fun _ h => by cases h
  rintro e ⟨u, hu, g, hg, v, hv, occurs⟩
  cases List.mem_singleton.mp hu
  cases List.mem_singleton.mp hg
  suffices v.value.CallFree from this e occurs
  simp only [List.mem_cons, List.not_mem_nil, or_false] at hv
  rcases hv with rfl | rfl | rfl | rfl | rfl
  · exact reference _ _
  · exact .of_parts id (List.forall_mem_cons.mpr ⟨reference _ _,
      List.forall_mem_singleton.mpr (reference _ _)⟩)
  · exact .of_parts id (List.forall_mem_cons.mpr ⟨reference _ _,
      List.forall_mem_singleton.mpr (reference _ _)⟩)
  · exact .of_parts id (List.forall_mem_cons.mpr ⟨.of_parts id
      (List.forall_mem_singleton.mpr (reference _ _)), List.forall_mem_singleton.mpr
        (reference _ _)⟩)
  · exact .of_parts id (List.forall_mem_singleton.mpr (reference _ _))

/-- The theorem at this module. -/
theorem start_answers_selfReferring : ∃ a s n, analyze false selfReferring = .ok a ∧
    start ⟨true, true⟩ selfReferring a = .ok s ∧ ∀ requests : List (Nat × Request),
      (∀ entry ∈ requests, n ≤ entry.1 ∧ ∀ function args, entry.2 ≠ .call function args) →
        ∀ reply ∈ (s.serve .idle requests).1, reply.Arrives := by
  have numbered : UnitSet.Numbered selfReferring := by decide +kernel
  have accepted : (analyze false selfReferring).isOk = true := by decide +kernel
  cases h : analyze false selfReferring with
  | error fault =>
    rw [h] at accepted
    cases accepted
  | ok a =>
    obtain ⟨s, started, n, answers⟩ := start_answers numbered h selfReferring_callFree ⟨true, true⟩
    exact ⟨a, s, n, rfl, started, answers⟩

end Session

end CellScript
