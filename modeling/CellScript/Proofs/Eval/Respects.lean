import CellScript.Eval.Demand
import CellScript.Eval.Lemmas
import CellScript.Proofs.Memory.Sealed

/-!
# Steps that respect sealed blocks

A step respects a block if the block is still sealed when the step is over, however it ends. Steps
are put together from steps that respect the block, each of which begins in a later memory than the
one before.

* `Machine.Sealed` — the block is sealed, and the units lie elsewhere
* `Machine.Heeds` — what is evaluated in a space looks at the first cells of a sealed block only
* `Eval.Respects` — the step respects the block
* `Eval.Respects.bind`, `Eval.Respects.attempt`, `Eval.Respects.mapM` — the rules that put steps
  together
* `Eval.resolve_respects` — a reference leads to a cell that may be asked for
-/

namespace CellScript

open Code (Op Template)

variable {α β : Type} {block space : SpaceId} {count : Nat} {M M' M'' : Machine}

/-! ## Machines -/

/-- The block is sealed from a slot on, and is not the space of the units. -/
structure Machine.Sealed (M : Machine) (block : SpaceId) (count : Nat) : Prop where
  memory : M.memory.Sealed block count
  units : ∀ u, M.context.units = some u → M.memory.Apart block u

/-- The second machine is a later one, in which the block is still sealed. -/
structure Machine.Respects (block : SpaceId) (count : Nat) (M M' : Machine) : Prop where
  grows : M.memory.Grows M'.memory
  «sealed» : M'.Sealed block count

/-- A part of an operation that is evaluated in the space looks at the first cells of a sealed block
only. -/
structure Machine.Heeds (M : Machine) (block : SpaceId) (count : Nat) (space : SpaceId)
    (below : Nat → Nat → Prop) : Prop where
  «sealed» : M.Sealed block count
  known : space < M.memory.spaces.size
  heeds : M.memory.Heeds block count space below

namespace Machine

variable {below part : Nat → Nat → Prop}

theorem Sealed.respects (h : M.Sealed block count) : M.Respects block count M := ⟨.refl _, h⟩

theorem Respects.trans (h : M.Respects block count M') (h' : M'.Respects block count M'') :
    M.Respects block count M'' :=
  ⟨h.grows.trans h'.grows, h'.sealed⟩

/-- A change of memory that leaves the block sealed. -/
theorem Sealed.step (h : M.Sealed block count) {m : Memory} (g : M.memory.Grows m)
    (kept : m.Sealed block count) : M.Respects block count { M with memory := m } :=
  ⟨g, kept, fun u hu => (h.units u hu).grows g⟩

/-- What is under way has no part in it, apart from the units. -/
theorem Sealed.context (h : M.Sealed block count) {c : Context}
    (units : c.units = M.context.units) :
    M.Respects block count { M with context := c } :=
  ⟨.refl _, h.memory, fun u hu => h.units u (units ▸ hu)⟩

theorem Heeds.later (h : M.Heeds block count space below) (later : M.Respects block count M') :
    M'.Heeds block count space below :=
  ⟨later.sealed, Nat.lt_of_lt_of_le h.known later.grows.spaces, fun depth outer =>
    h.heeds depth
      (by rwa [Memory.outward?_grows later.grows h.sealed.memory.inside depth h.known] at outer)⟩

theorem Heeds.imp (h : M.Heeds block count space below)
    (imp : ∀ more depth, below more depth → part more depth) : M.Heeds block count space part :=
  ⟨h.sealed, h.known, fun depth outer more later => imp more depth (h.heeds depth outer more later)⟩

theorem Heeds.left {other : Nat → Nat → Prop}
    (h : M.Heeds block count space fun more depth => part more depth ∧ other more depth) :
    M.Heeds block count space part :=
  h.imp fun _ _ h => h.1

theorem Heeds.right {other : Nat → Nat → Prop}
    (h : M.Heeds block count space fun more depth => other more depth ∧ part more depth) :
    M.Heeds block count space part :=
  h.imp fun _ _ h => h.2

/-- The space lies directly inside another one, and is not the block. -/
structure Inside (M : Machine) (block outer space : SpaceId) : Prop where
  apart : M.memory.Apart block space
  enclosing : (M.memory.space space).enclosing = some outer

theorem Inside.later {outer : SpaceId} (h : M.Inside block outer space)
    (later : M.Respects block count M') :
    M'.Inside block outer space :=
  ⟨h.apart.grows later.grows, ((later.grows.space space h.apart.known).enclosing).trans h.enclosing⟩

/-- What stands in a block further inside looks one step further out. -/
theorem Heeds.inside (h : M.Heeds block count space fun more depth => below more (depth + 1))
    {inner : SpaceId} (inside : M.Inside block space inner) : M.Heeds block count inner below := by
  refine ⟨h.sealed, inside.apart.known, fun depth outer => ?_⟩
  cases depth with
  | zero => exact absurd (Option.some.inj outer) inside.apart.other
  | succ depth =>
    rw [Memory.outward?, inside.enclosing] at outer
    exact h.heeds depth outer

/-- A copy of a space lies where the space lies. -/
theorem Heeds.copy (h : M.Heeds block count space below) {copy : SpaceId}
    (apart : M.memory.Apart block copy)
    (same : (M.memory.space copy).enclosing = (M.memory.space space).enclosing) :
    M.Heeds block count copy below := by
  refine ⟨h.sealed, apart.known, fun depth outer => ?_⟩
  cases depth with
  | zero => exact absurd (Option.some.inj outer) apart.other
  | succ depth =>
    rw [Memory.outward?, same] at outer
    exact h.heeds (depth + 1) outer

/-- In the block itself, what waits for the cells of the block looks at the first ones only. -/
theorem Sealed.own (h : M.Sealed block count) {op : Op} (awaits : op.Awaits count) :
    M.Heeds block count block (op.Below · ·) := by
  refine ⟨h, h.memory.known, fun depth outer more later => ?_⟩
  cases depth with
  | zero => exact awaits more later
  | succ depth => exact absurd outer (h.memory.no_return depth)

/-- From a copy of the block no way leads to the block. -/
theorem Sealed.beside (h : M.Sealed block count) (apart : M.memory.Apart block space)
    (same : (M.memory.space space).enclosing = (M.memory.space block).enclosing) :
    M.Heeds block count space below := by
  refine ⟨h, apart.known, fun depth outer => ?_⟩
  cases depth with
  | zero => exact absurd (Option.some.inj outer) apart.other
  | succ depth =>
    rw [Memory.outward?, same] at outer
    exact absurd outer (h.memory.no_return depth)

/-- From the space of a call no way leads outwards. -/
theorem Sealed.root (h : M.Sealed block count) (apart : M.memory.Apart block space)
    (root : (M.memory.space space).enclosing = none) : M.Heeds block count space below := by
  refine ⟨h, apart.known, fun depth outer => ?_⟩
  cases depth with
  | zero => exact absurd (Option.some.inj outer) apart.other
  | succ depth =>
    rw [Memory.outward?, root] at outer
    cases outer

end Machine

/-! ## Steps -/

/-- However the step ends, the block is still sealed; `post` holds of its result. -/
def Eval.Respects (block : SpaceId) (count : Nat) (x : Eval α) (M : Machine)
    (post : α → Machine → Prop) : Prop :=
  (∃ v M', x M = .ok v M' ∧ M.Respects block count M' ∧ post v M') ∨
    ∃ stop M', x M = .error stop M' ∧ M.Respects block count M'

namespace Eval.Respects

variable {x : Eval α} {post P : α → Machine → Prop} {Q : β → Machine → Prop}

theorem of_ok (h : Respects block count x M post) {v : α} (run : x M = .ok v M') :
    M.Respects block count M' := by
  rcases h with ⟨v, M₁, ran, keeps, -⟩ | ⟨stop, M₁, ran, keeps⟩ <;> rw [run] at ran <;> cases ran
  exact keeps

theorem pure {v : α} (now : M.Sealed block count) (h : post v M) :
    Respects block count (Pure.pure v) M post :=
  .inl ⟨v, M, rfl, now.respects, h⟩

theorem stop {stop : Stop} (now : M.Sealed block count) :
    Respects block count (throw stop) M post :=
  .inr ⟨stop, M, rfl, now.respects⟩

theorem raise {e : Exception} (now : M.Sealed block count) :
    Respects block count (Eval.raise e) M post :=
  stop now

theorem ofExcept {r : Except Exception α} (now : M.Sealed block count)
    (h : ∀ v, r = .ok v → post v M) :
    Respects block count (Eval.ofExcept r) M post := by
  cases r with
  | ok v => exact pure now (h v rfl)
  | error e => exact raise now

/-- An outcome of the value library of which nothing more is asked. -/
theorem outcome {r : Except Exception α} (now : M.Sealed block count) :
    Respects block count (Eval.ofExcept r) M fun _ _ => True :=
  ofExcept now fun _ _ => trivial

theorem ask {f : Memory → Except Exception α} (now : M.Sealed block count)
    (h : ∀ v, f M.memory = .ok v → post v M) : Respects block count (Eval.ask f) M post :=
  ofExcept (r := f M.memory) now h

theorem memory {f : Memory → Eval β} (h : Respects block count (f M.memory) M Q) :
    Respects block count (Eval.memory >>= f) M Q := h

theorem context {f : Context → Eval β} (h : Respects block count (f M.context) M Q) :
    Respects block count (Eval.context >>= f) M Q := h

theorem create {f : Memory → α × Memory} (now : M.Sealed block count)
    (g : M.memory.Grows (f M.memory).2) (kept : (f M.memory).2.Sealed block count)
    (h : post (f M.memory).1 { M with memory := (f M.memory).2 }) :
    Respects block count (Eval.create f) M post :=
  .inl ⟨_, _, rfl, now.step g kept, h⟩

theorem modifyMemory {f : Memory → Memory} (now : M.Sealed block count)
    (g : M.memory.Grows (f M.memory)) (kept : (f M.memory).Sealed block count) :
    Respects block count (Eval.modifyMemory f) M fun _ _ => True :=
  .inl ⟨_, _, rfl, now.step g kept, trivial⟩

theorem modifyContext {f : Context → Context} (now : M.Sealed block count)
    (units : (f M.context).units = M.context.units) :
    Respects block count (Eval.modifyContext f) M fun _ _ => True :=
  .inl ⟨_, _, rfl, now.context units, trivial⟩

theorem bind {f : α → Eval β} (h : Respects block count x M P)
    (rest : ∀ v M', M.Respects block count M' → P v M' → Respects block count (f v) M' Q) :
    Respects block count (x >>= f) M Q := by
  rcases h with ⟨v, M', ran, keeps, hv⟩ | ⟨stop, M', ran, keeps⟩
  · rcases rest v M' keeps hv with ⟨w, M'', ran', keeps', hw⟩ | ⟨stop, M'', ran', keeps'⟩
    · exact .inl ⟨w, M'', by rw [Eval.bind_of_ok ran, ran'], keeps.trans keeps', hw⟩
    · exact .inr ⟨stop, M'', by rw [Eval.bind_of_ok ran, ran'], keeps.trans keeps'⟩
  · exact .inr ⟨stop, M', Eval.bind_of_error ran f, keeps⟩

theorem mono (h : Respects block count x M P) (imp : ∀ v M', P v M' → post v M') :
    Respects block count x M post := by
  rcases h with ⟨v, M', ran, keeps, hv⟩ | ended
  · exact .inl ⟨v, M', ran, keeps, imp v M' hv⟩
  · exact .inr ended

/-- A question to memory, and what follows its answer. -/
theorem asked {f : Memory → Except Exception α} {g : α → Eval β} (now : M.Sealed block count)
    (rest : ∀ v, f M.memory = .ok v → Respects block count (g v) M Q) :
    Respects block count (Eval.ask f >>= g) M Q := by
  cases found : f M.memory with
  | ok v =>
    have answered : (Eval.ask f >>= g) M = g v M := Eval.bind_of_ok (Eval.ask_of_ok found) g
    rw [Respects, answered]
    exact rest v found
  | error e =>
    have failed : Eval.ask f M = .error (.raised e) M := by
      show Eval.ofExcept (f M.memory) M = _
      rw [found]
      rfl
    exact .inr ⟨.raised e, M, Eval.bind_of_error failed g, now.respects⟩

/-- A step that is followed by something of which nothing is asked. -/
theorem last {f : α → Eval β} (h : Respects block count x M P)
    (rest : ∀ v M', M'.Sealed block count → Respects block count (f v) M' fun _ _ => True) :
    Respects block count (x >>= f) M fun _ _ => True :=
  h.bind fun v M' keeps _ => rest v M' keeps.sealed

theorem attempt (h : Respects block count x M P) :
    Respects block count (Eval.attempt x) M fun _ _ => True := by
  rcases h with ⟨v, M', ran, keeps, -⟩ | ⟨stop, M', ran, keeps⟩
  · exact .inl ⟨_, M', Eval.attempt_of_ok ran, keeps, trivial⟩
  · cases stop with
    | raised e => exact .inl ⟨_, M', Eval.attempt_of_raised ran, keeps, trivial⟩
    | exhausted => exact .inr ⟨_, M', Eval.attempt_of_exhausted ran, keeps⟩
    | refused => exact .inr ⟨_, M', Eval.attempt_of_refused ran, keeps⟩

theorem located (h : Respects block count x M P) (span : Span) :
    Respects block count (Eval.located span x) M P := by
  rcases h with ⟨v, M', ran, keeps, hv⟩ | ⟨stop, M', ran, keeps⟩
  · exact .inl ⟨v, M', Eval.located_of_ok ran span, keeps, hv⟩
  · cases stop with
    | raised e => exact .inr ⟨_, M', Eval.located_of_raised ran span, keeps⟩
    | exhausted => exact .inr ⟨_, M', Eval.located_of_exhausted ran span, keeps⟩
    | refused => exact .inr ⟨_, M', Eval.located_of_refused ran span, keeps⟩

theorem inFrame {frame : Frame}
    (h : Respects block count x { M with context := M.context.push frame } P) :
    Respects block count (Eval.inFrame frame x) M fun _ _ => True := by
  have left : ∀ {M' : Machine},
      Machine.Respects block count { M with context := M.context.push frame } M' →
        M.Respects block count { M' with context := M'.context.pop } := fun keeps =>
    ⟨keeps.grows, keeps.sealed.memory, keeps.sealed.units⟩
  rcases h with ⟨v, M', ran, keeps, -⟩ | ⟨stop, M', ran, keeps⟩
  · exact .inl ⟨v, _, Eval.inFrame_of_ok ran, left keeps, trivial⟩
  · cases stop with
    | raised e => exact .inr ⟨_, _, Eval.inFrame_of_raised ran, left keeps⟩
    | exhausted => exact .inr ⟨_, _, Eval.inFrame_of_exhausted ran, left keeps⟩
    | refused => exact .inr ⟨_, _, by simp only [Eval.inFrame, ran]; rfl, left keeps⟩

theorem holding (h : Respects block count x M P) (space : SpaceId) :
    Respects block count (Eval.holding space x) M fun _ _ => True := by
  have left : ∀ {M' : Machine}, M.Respects block count M' →
      M.Respects block count (M'.dropped space) :=
    fun keeps => keeps.trans (keeps.sealed.step (Memory.grows_drop ..)
      (keeps.sealed.memory.drop space))
  rcases h with ⟨v, M', ran, keeps, -⟩ | ⟨stop, M', ran, keeps⟩
  · exact .inl ⟨v, _, Eval.holding_of_ok ran space, left keeps, trivial⟩
  · exact .inr ⟨stop, _, Eval.holding_of_error ran space, left keeps⟩

theorem withBuffer {x : List Value → Eval α} (now : M.Sealed block count)
    (h : ∀ buffer M', M'.Sealed block count → Respects block count (x buffer) M' P) :
    Respects block count (Eval.withBuffer x) M fun _ _ => True := by
  have taken := now.step M.memory.grows_rest (now.memory.withScratch _)
  have back : ∀ {M' : Machine}, (M.withScratch M.memory.scratch.rest).Respects block count M' →
      M.Respects block count (M'.withScratch (M'.memory.scratch.give [])) := fun {M'} keeps =>
    (taken.trans keeps).trans (keeps.sealed.step M'.memory.grows_give
      (keeps.sealed.memory.withScratch _))
  rcases h (M.memory.scratch.buffer 0) _ taken.sealed with ⟨v, M', ran, keeps, -⟩ | ⟨stop,
    M', ran, keeps⟩
  · exact .inl ⟨v, _, Eval.withBuffer_of_ok ran, back keeps, trivial⟩
  · exact .inr ⟨stop, _, Eval.withBuffer_of_error ran, back keeps⟩

/-! ## Loops -/

theorem mapM {f : α → Eval β} (as : List α) (now : M.Sealed block count)
    (stable : ∀ w M' M'', M'.Respects block count M'' → Q w M' → Q w M'')
    (step : ∀ v ∈ as, ∀ M', M.Respects block count M' → Respects block count (f v) M' Q) :
    Respects block count (as.mapM f) M fun ws M' => ∀ w ∈ ws, Q w M' := by
  induction as generalizing M with
  | nil =>
    rw [List.mapM_nil]
    exact pure now fun w mem => by cases mem
  | cons v rest ih =>
    rw [List.mapM_cons]
    refine (step v (List.mem_cons_self ..) M now.respects).bind fun w M₁ keeps₁ hw => ?_
    refine (ih keeps₁.sealed fun v hv M' keeps => step v (List.mem_cons_of_mem _ hv) M'
      (keeps₁.trans keeps)).bind fun ws M₂ keeps₂ hws => ?_
    exact pure keeps₂.sealed (List.forall_mem_cons.mpr ⟨stable w _ _ keeps₂ hw, hws⟩)

theorem forM {f : α → Eval PUnit} (as : List α) (now : M.Sealed block count)
    (step : ∀ v ∈ as, ∀ M', M.Respects block count M' →
      Respects block count (f v) M' fun _ _ => True) :
    Respects block count (as.forM f) M fun _ _ => True := by
  induction as generalizing M with
  | nil => exact pure now trivial
  | cons v rest ih =>
    show Respects block count (f v >>= fun _ => rest.forM f) M _
    refine (step v (List.mem_cons_self ..) M now.respects).bind fun _ M₁ keeps₁ _ => ?_
    exact ih keeps₁.sealed fun v hv M' keeps => step v (List.mem_cons_of_mem _ hv) M'
      (keeps₁.trans keeps)

theorem foldlM {f : β → α → Eval β} (as : List α) {b : β} (now : M.Sealed block count)
    (step : ∀ b v M', M'.Sealed block count → Respects block count (f b v) M' fun _ _ => True) :
    Respects block count (as.foldlM f b) M fun _ _ => True := by
  induction as generalizing M b with
  | nil => exact pure now trivial
  | cons v rest ih =>
    rw [List.foldlM_cons]
    exact (step b v M now).last fun b' M₁ now₁ => ih now₁

end Eval.Respects

namespace Eval

variable (now : M.Sealed block count)

include now

/-! ## New values -/

theorem newObject_respects : Respects block count (create Memory.newObject) M fun _ _ => True :=
  .create now (Memory.grows_newObject _) now.memory.newObject trivial

theorem newList_respects (items : List Value) :
    Respects block count (newList items) M fun _ _ => True :=
  (newObject_respects now).last fun _ _ now => .pure now trivial

theorem newDict_respects (entries : Entries Value) :
    Respects block count (newDict entries) M fun _ _ => True :=
  (newObject_respects now).last fun _ _ now => .pure now trivial

theorem cast_respects (v : Value) (ty : Ty) : Respects block count (cast v ty) M fun _ _ => True :=
  (newObject_respects now).last fun _ _ now => .outcome now

theorem newFunction_respects (f : FunctionObject) :
    Respects block count (create (·.newFunction f)) M fun _ _ => True :=
  .create now (Memory.grows_newFunction _ f) (now.memory.newFunction f) trivial

theorem bindList_respects (slot : Option Nat) (items : List Value) :
    Respects block count (bindList slot items) M fun _ _ => True := by
  cases slot with
  | none => exact .pure now trivial
  | some slot => exact (newList_respects now items).last fun _ _ now => .pure now trivial

theorem bindDict_respects (slot : Option Nat) (entries : Entries Value) :
    Respects block count (bindDict slot entries) M fun _ _ => True := by
  cases slot with
  | none => exact .pure now trivial
  | some slot => exact (newDict_respects now entries).last fun _ _ now => .pure now trivial

theorem curry_respects (id : FunctionId) (args : List (String × Value)) :
    Respects block count (curry id args) M fun _ _ => True := by
  refine Respects.memory ((Respects.foldlM args now fun fixed arg M' now => ?_).last
    fun fixed M₁ now => newFunction_respects now _)
  unfold FunctionObject.fix
  split
  · exact (cast_respects now _ _).last fun _ _ now => .pure now trivial
  · exact .raise now

/-- A closure captures cells that may be asked for. -/
theorem newClosure_respects (captured : List Captured)
    (allows : ∀ cell, .pending cell ∈ captured → M.memory.Allows block count cell) :
    Respects block count (newClosure captured) M fun _ _ => True := by
  have made : Respects block count (create (·.newClosure captured)) M fun _ _ => True :=
    .create now (Memory.grows_newClosure _ captured) (now.memory.newClosure allows) trivial
  refine made.last fun closure M₁ now => ?_
  exact (Respects.forM _ now fun d _ M' keeps => .modifyContext keeps.sealed rfl).last
    fun _ _ now => .pure now trivial

theorem bindCell_respects {id : CellId} (early : id.Early block count) (v : Value) :
    Respects block count (bindCell id v) M fun _ _ => True :=
  .modifyMemory now (Memory.grows_bind _ id v) (now.memory.modifyCell early fun _ => ⟨rfl, rfl⟩)

/-! ## Finding cells -/

omit now in
theorem cellIn_respects (now : M.Sealed block count) (space : SpaceId) (slot : Nat)
    (early : space = block → slot < count) : Respects block count (ask (·.cellIn space slot)) M
      fun id M' => id.space = space ∧ M'.memory.Allows block count id := by
  refine .ask now fun id found => ?_
  have place := Memory.hasCell_of_cellIn found
  obtain ⟨-, rfl⟩ := (Memory.cellIn_eq_ok_iff ..).mp found
  exact ⟨rfl, place.1.1, early⟩

theorem walk_respects (name : String) (path : List Nat) {space : SpaceId}
    (apart : M.memory.Apart block space) : Respects block count (walk name space path) M
      fun id M' => M'.memory.Allows block count id := by
  induction path generalizing space M with
  | nil => exact .raise now
  | cons slot rest ih =>
    have first := cellIn_respects now space slot fun same => absurd same apart.other
    cases rest with
    | nil => exact first.mono fun id M' allows => allows.2
    | cons next rest =>
      rw [walk]
      · refine first.bind fun id M₁ keeps allows => Respects.memory ?_
        simp only
        split
        · next members found => exact ih keeps.sealed (keeps.sealed.memory.members id members found)
        · exact .raise keeps.sealed
      · exact fun h => by cases h

theorem units_respects : Respects block count units M fun u M' => M'.memory.Apart block u := by
  refine Respects.context ?_
  split
  · next u hu => exact .pure now (now.units u hu)
  · exact .raise now

theorem absolute_respects (ref : Code.CellRef) (path : List Nat) :
    Respects block count (absolute ref path) M fun id M' => M'.memory.Allows block count id := by
  have walks : Respects block count (units >>= fun u => walk ref.name u path) M
      fun id M' => M'.memory.Allows block count id :=
    (units_respects now).bind fun u M' keeps apart => walk_respects keeps.sealed ref.name path apart
  unfold absolute
  split
  · exact walks
  · next site _ =>
    refine Respects.memory ?_
    split
    · next cell found => exact .pure now (now.memory.pinned site cell found)
    · refine (units_respects now).bind fun u M₁ keeps apart => ?_
      refine (walk_respects keeps.sealed ref.name path apart).bind fun cell M₂ keeps allows => ?_
      refine (Respects.modifyMemory keeps.sealed (M₂.memory.grows_pin site cell)
        (keeps.sealed.memory.pin site allows)).bind
        fun _ M₃ keeps _ => .pure keeps.sealed (allows.grows keeps.grows)

omit now in
/-- **A reference leads to a cell that may be asked for**, if it looks at the first cells of the
block only. -/
theorem resolve_respects {ref : Code.CellRef} (h : M.Heeds block count space (ref.Below · ·)) :
    Respects block count (resolve space ref) M fun id M' => M'.memory.Allows block count id := by
  have now := h.sealed
  have outwards : ∀ depth slot, ref.address.place? = some (depth, slot) →
      Respects block count (do
        let outer ← ask (·.ancestor depth space)
        ask (·.cellIn outer slot)) M fun id M' => M'.memory.Allows block count id := by
    intro depth slot place
    have outer : Respects block count (ask (·.ancestor depth space)) M
        fun outer M' => outer = block → slot < count := by
      refine .ask now fun outer found => ?_
      rintro rfl
      refine h.heeds depth ?_ count (Nat.le_refl _) slot place
      exact Memory.outward?_of_ancestor found
    exact outer.bind fun outer M' keeps early =>
      (cellIn_respects keeps.sealed outer slot early).mono fun id M'' allows => allows.2
  unfold resolve
  cases place : ref.address with
  | closure index => exact .raise now
  | own slot =>
    refine (cellIn_respects now space slot fun same => ?_).mono fun id M' allows => allows.2
    exact h.heeds 0 (congrArg some same) count (Nat.le_refl _) slot (by rw [place]; rfl)
  | parent slot => exact outwards 1 slot (by rw [place]; rfl)
  | frame depth slot => exact outwards depth slot (by rw [place]; rfl)
  | absolute path => exact absolute_respects now ref path

end Eval

end CellScript
