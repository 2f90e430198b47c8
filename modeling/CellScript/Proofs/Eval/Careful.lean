import CellScript.Proofs.Eval.Safe
import CellScript.Proofs.Memory.Provided

/-!
# Steps that ask only for what is bound

`Careful` says of two steps that they are safe, and that they leave definitions computed and the
cells of older spaces unbound, however they end. The rules that put steps together are those of
`Safe`.

* `Machine.Tidy` — a machine from which careful steps go on
* `Careful` — two steps in one machine, with what holds of the result
* `Careful.bind`, `Careful.attempt`, `Careful.inFrame`, `Careful.mapM` — the rules
* `Eval.Still`, `Careful.lift` — a safe step that leaves all spaces alone is careful
-/

namespace CellScript

variable {α β : Type} {a : Analysis} {K : FunctionId → Ty → Prop} {n : Nat}

/-- The machine agrees with analysis, and its memory is neat. The first `n` spaces are there
already. -/
structure Machine.Tidy (a : Analysis) (K : FunctionId → Ty → Prop) (n : Nat) (M : Machine) : Prop
    extends M.Good a K where
  neat : M.memory.Neat a
  low : n ≤ M.memory.spaces.size

/-- However a step ends, memory stays neat and nothing is bound in the first spaces. -/
structure Machine.Minds (a : Analysis) (n : Nat) (M M' : Machine) : Prop where
  neat : M'.memory.Neat a
  abstains : M.memory.Abstains M'.memory n

/-- A careful step is over. -/
structure Machine.Goes (a : Analysis) (K : FunctionId → Ty → Prop) (n : Nat) (M M' : Machine) : Prop
    extends Machine.Passes a K M M', M.Minds a n M'

/-- A space for an evaluation has been laid out with care. -/
structure Machine.Enters (a : Analysis) (K : FunctionId → Ty → Prop) (n : Nat) (M M' : Machine)
    (space : SpaceId) : Prop extends Machine.Opens a K M M' space, M.Minds a n M'

/-- Both steps end alike, as they should, and with care. -/
def Careful (a : Analysis) (K : FunctionId → Ty → Prop) (n : Nat) (x y : Eval α) (M : Machine)
    (post : α → Machine → Prop) : Prop :=
  Safe a K x y M (fun v M' => post v M' ∧ M.Minds a n M') ∧
    ∀ stop M', y M = .error stop M' → M.Minds a n M'

variable {M M' M'' : Machine}

theorem Machine.Good.nests (good : M.Good a K) : M.memory.Nests := good.memory.inside

theorem Machine.Minds.of_spaces (neat : M.memory.Neat a)
    (same : M'.memory.spaces = M.memory.spaces) :
    M.Minds a n M' :=
  ⟨neat.of_spaces same, .of_spaces same⟩

theorem Machine.Goes.trans (h : M.Goes a K n M') (low : n ≤ M.memory.spaces.size)
    (h' : M'.Goes a K n M'') :
    M.Goes a K n M'' :=
  ⟨h.toPasses.trans h'.toPasses, h'.neat, h.abstains.trans h.grows.memory low h'.abstains⟩

namespace Machine.Tidy

theorem refl (tidy : M.Tidy a K n) : M.Goes a K n M :=
  ⟨tidy.toGood.passes, tidy.neat, .of_spaces rfl⟩

theorem later (tidy : M.Tidy a K n) (goes : M.Goes a K n M') : M'.Tidy a K n :=
  ⟨goes.good, goes.neat, Nat.le_trans tidy.low goes.grows.memory.spaces⟩

theorem entered {space : SpaceId} (tidy : M.Tidy a K n) (enters : M.Enters a K n M' space) :
    M'.Tidy a K n :=
  ⟨enters.good, enters.neat, Nat.le_trans tidy.low enters.grows.memory.spaces⟩

/-- The spaces that are there now. -/
theorem now (tidy : M.Tidy a K n) : M.Tidy a K M.memory.spaces.size :=
  ⟨tidy.toGood, tidy.neat, Nat.le_refl _⟩

theorem withStack (tidy : M.Tidy a K n) (stack : List Frame) :
    Machine.Tidy a K n { M with context := { M.context with stack := stack } } :=
  ⟨tidy.toGood.withStack stack, tidy.neat, tidy.low⟩

end Machine.Tidy

namespace Careful

variable {x y : Eval α} {post P : α → Machine → Prop} {Q : β → Machine → Prop}

/-- Nothing is bound in fewer spaces either. -/
theorem weaken {less : Nat} (h : Careful a K n x y M post) (le : less ≤ n) :
    Careful a K less x y M post :=
  ⟨h.1.mono fun _ _ _ _ ⟨holds, minds⟩ => ⟨holds, minds.neat, minds.abstains.mono le⟩,
    fun stop M' hy => ⟨(h.2 stop M' hy).neat, (h.2 stop M' hy).abstains.mono le⟩⟩

/-! ## Single steps -/

theorem pure {v : α} (tidy : M.Tidy a K n) (h : post v M) :
    Careful a K n (Pure.pure v) (Pure.pure v) M post :=
  ⟨.pure tidy.toGood ⟨h, tidy.refl.toMinds⟩, fun _ _ hy => by cases hy⟩

theorem raise {e : Exception} (tidy : M.Tidy a K n) (h : e.Ordinary) :
    Careful a K n (Eval.raise e) (Eval.raise e) M post := by
  refine ⟨.raise tidy.toGood h, fun _ _ hy => ?_⟩
  cases hy
  exact tidy.refl.toMinds

theorem ofExcept {r : Except Exception α} (tidy : M.Tidy a K n) (orderly : Orderly r)
    (h : ∀ v, r = .ok v → post v M) : Careful a K n (Eval.ofExcept r) (Eval.ofExcept r) M post := by
  cases r with
  | ok v => exact pure tidy (h v rfl)
  | error e => exact raise tidy (orderly e rfl).1

/-- An outcome of the value library of which nothing more is asked. -/
theorem orderly {r : Except Exception α} (tidy : M.Tidy a K n) (h : Orderly r) :
    Careful a K n (Eval.ofExcept r) (Eval.ofExcept r) M fun _ _ => True :=
  ofExcept tidy h fun _ _ => trivial

theorem create {f : Memory → α × Memory} (goes : M.Goes a K n { M with memory := (f M.memory).2 })
    (h : post (f M.memory).1 { M with memory := (f M.memory).2 }) :
    Careful a K n (Eval.create f) (Eval.create f) M post :=
  ⟨.create goes.toPasses ⟨h, goes.toMinds⟩, fun _ _ hy => by cases hy⟩

theorem modifyMemory {f : Memory → Memory} {post : PUnit → Machine → Prop}
    (goes : M.Goes a K n { M with memory := f M.memory })
    (h : post ⟨⟩ { M with memory := f M.memory }) :
    Careful a K n (Eval.modifyMemory f) (Eval.modifyMemory f) M post :=
  ⟨.modifyMemory goes.toPasses ⟨h, goes.toMinds⟩, fun _ _ hy => by cases hy⟩

/-! ## Steps put together -/

/-- The result is one that has been computed carefully. -/
theorem goes (h : Careful a K n x y M P) {v : α} (hy : y M = .ok v M') :
    M.Goes a K n M' ∧ P v M' := by
  have outcome := h.1.2
  rw [hy] at outcome
  exact ⟨⟨outcome.1, outcome.2.2.neat, outcome.2.2.abstains⟩, outcome.2.1⟩

theorem mono (h : Careful a K n x y M P) (imp : ∀ v M', M.Goes a K n M' → P v M' → post v M') :
    Careful a K n x y M post := by
  refine ⟨⟨h.1.1, ?_⟩, h.2⟩
  have outcome := h.1.2
  cases hy : y M with
  | ok v M' =>
    obtain ⟨goes, holds⟩ := h.goes hy
    exact ⟨goes.toPasses, imp v M' goes holds, goes.toMinds⟩
  | error stop M' =>
    rw [hy] at outcome
    exact outcome

/-- The second step begins in a machine that the first one has left with care. -/
theorem bind {f g : α → Eval β} (tidy : M.Tidy a K n) (h : Careful a K n x y M P)
    (rest : ∀ v M', M.Goes a K n M' → P v M' → Careful a K n (f v) (g v) M' Q) :
    Careful a K n (x >>= f) (y >>= g) M Q := by
  have after : ∀ {M' M'' : Machine}, M.Goes a K n M' → M'.Minds a n M'' → M.Minds a n M'' :=
    fun goes minds => ⟨minds.neat, goes.abstains.trans goes.grows.memory tidy.low minds.abstains⟩
  refine ⟨h.1.bindPasses fun v M' passes ⟨holds, minds⟩ => ?_, fun stop M'' hyg => ?_⟩
  · have goes : M.Goes a K n M' := ⟨passes, minds.neat, minds.abstains⟩
    exact (rest v M' goes holds).1.mono fun w M'' _ _ ⟨holds', minds'⟩ =>
      ⟨holds', after goes minds'⟩
  · cases hy : y M with
    | ok v M' =>
      obtain ⟨goes, holds⟩ := h.goes hy
      rw [Eval.bind_of_ok hy] at hyg
      exact after goes ((rest v M' goes holds).2 stop M'' hyg)
    | error e M' =>
      rw [Eval.bind_of_error hy] at hyg
      cases hyg
      exact h.2 _ _ hy

/-- The first step leaves the machine as it is. -/
theorem found {v : α} {f g : α → Eval β} (h : x M = .ok v M)
    (rest : Careful a K n (f v) (g v) M Q) :
    Careful a K n (x >>= f) (x >>= g) M Q :=
  ⟨.found h rest.1, fun stop M' hy => rest.2 stop M' (by rwa [Eval.bind_of_ok h] at hy)⟩

theorem modified {f : Memory → Memory} {g g' : PUnit → Eval β} (tidy : M.Tidy a K n)
    (goes : M.Goes a K n { M with memory := f M.memory })
    (rest : Careful a K n (g ⟨⟩) (g' ⟨⟩) { M with memory := f M.memory } Q) :
    Careful a K n (Eval.modifyMemory f >>= g) (Eval.modifyMemory f >>= g') M Q := by
  have first : Careful a K n (Eval.modifyMemory f) (Eval.modifyMemory f) M fun _ M' =>
      M' = { M with memory := f M.memory } := modifyMemory goes rfl
  refine first.bind tidy fun _ M' _ he => ?_
  subst he
  exact rest

theorem memory {f g : Memory → Eval β} (h : Careful a K n (f M.memory) (g M.memory) M Q) :
    Careful a K n (Eval.memory >>= f) (Eval.memory >>= g) M Q := h

theorem context {f g : Context → Eval β} (h : Careful a K n (f M.context) (g M.context) M Q) :
    Careful a K n (Eval.context >>= f) (Eval.context >>= g) M Q := h

/-! ## Exceptions on their way out -/

theorem attempt (h : Careful a K n x y M P) : Careful a K n (Eval.attempt x) (Eval.attempt y) M
    fun r M' => match r with
      | .ok v => P v M'
      | .error e => e.Ordinary := by
  obtain ⟨same, outcome⟩ := h.1.attempt
  refine ⟨⟨same, ?_⟩, fun stop M' hy => ?_⟩
  · cases hy : y M with
    | ok v M' =>
      rw [Eval.attempt_of_ok hy] at outcome ⊢
      exact outcome
    | error stop M' =>
      cases stop with
      | raised e =>
        rw [Eval.attempt_of_raised hy] at outcome ⊢
        exact ⟨outcome.1, outcome.2, h.2 _ M' hy⟩
      | exhausted =>
        rw [Eval.attempt_of_exhausted hy] at outcome ⊢
        exact outcome
      | refused =>
        rw [Eval.attempt_of_refused hy] at outcome ⊢
        exact outcome
  · cases hx : y M with
    | ok v M'' =>
      rw [Eval.attempt_of_ok hx] at hy
      cases hy
    | error e M'' =>
      cases e with
      | raised e =>
        rw [Eval.attempt_of_raised hx] at hy
        cases hy
      | exhausted =>
        rw [Eval.attempt_of_exhausted hx] at hy
        cases hy
        exact h.2 _ _ hx
      | refused =>
        rw [Eval.attempt_of_refused hx] at hy
        cases hy
        exact h.2 _ _ hx

theorem located (h : Careful a K n x y M P) (span : Span) :
    Careful a K n (Eval.located span x) (Eval.located span y) M P := by
  refine ⟨h.1.located span, fun stop M' hy => ?_⟩
  unfold Eval.located at hy
  cases hx : y M with
  | ok v M'' =>
    rw [hx] at hy
    cases hy
  | error e M'' =>
    rw [hx] at hy
    have minds := h.2 _ _ hx
    cases e <;> cases hy <;> exact minds

theorem inFrame {frame : Frame} (h : Careful a K n x y { M with context := M.context.push frame } P)
    (stack : ∀ v M' rest, P v M' → P v { M' with context := { M'.context with stack := rest } }) :
    Careful a K n (Eval.inFrame frame x) (Eval.inFrame frame y) M P := by
  refine ⟨?_, fun stop M' hy => ?_⟩
  · refine (Safe.inFrame h.1 fun v M' rest ⟨holds, minds⟩ => ⟨stack v M' rest holds, ?_⟩).mono
      fun v M' _ _ ⟨holds, minds⟩ => ⟨holds, minds.neat, minds.abstains⟩
    exact ⟨minds.neat, minds.abstains⟩
  · unfold Eval.inFrame at hy
    cases hx : y { M with context := M.context.push frame } with
    | ok v M'' =>
      simp only [hx] at hy
      cases hy
    | error e M'' =>
      simp only [hx] at hy
      have minds := h.2 _ _ hx
      cases e <;> cases hy <;> exact ⟨minds.neat, minds.abstains⟩

/-! ## What is held while a step runs -/

/-- A step in a new space, which is over in the end. -/
theorem within {f : Memory → SpaceId × Memory} {x y : SpaceId → Eval α} (tidy : M.Tidy a K n)
    (enters : M.Enters a K n { M with memory := (f M.memory).2 } (f M.memory).1)
    (h : Careful a K n (x (f M.memory).1) (y (f M.memory).1) { M with memory := (f M.memory).2 } P)
    (kept : ∀ v M' space, P v M' → post v (M'.dropped space)) :
    Careful a K n (Eval.within f x) (Eval.within f y) M post := by
  have left : ∀ {M' : Machine} (space : SpaceId),
      Machine.Minds a n { M with memory := (f M.memory).2 } M' → M.Minds a n (M'.dropped space) :=
    fun _ minds => ⟨minds.neat.of_spaces rfl,
      (enters.abstains.trans enters.grows.memory tidy.low minds.abstains).congr rfl⟩
  refine ⟨Safe.within tidy.toGood enters.toOpens h.1 fun v M' space ⟨holds, minds⟩ =>
    ⟨kept v M' space holds, left space minds⟩, fun stop M' hy => ?_⟩
  rw [Eval.within_apply] at hy
  cases hx : y (f M.memory).1 { M with memory := (f M.memory).2 } with
  | ok v M'' =>
    rw [Eval.holding_of_ok hx] at hy
    cases hy
  | error e M'' =>
    rw [Eval.holding_of_error hx] at hy
    cases hy
    exact left _ (h.2 _ _ hx)

/-- A step that takes a buffer and puts it back. -/
theorem withBuffer {x y : List Value → Eval α}
    (good : M.Good a K)
    (h : ∀ buffer, Careful a K n (x buffer) (y buffer) (M.withScratch M.memory.scratch.rest) P)
    (kept : ∀ v M' pool, P v M' → post v (M'.withScratch pool)) :
    Careful a K n (Eval.withBuffer x) (Eval.withBuffer y) M post := by
  have left : ∀ {M' : Machine} (pool : Pool),
      Machine.Minds a n (M.withScratch M.memory.scratch.rest) M' →
        M.Minds a n (M'.withScratch pool) :=
    fun _ minds => ⟨minds.neat.of_spaces rfl, minds.abstains.congr rfl⟩
  refine ⟨Safe.withBuffer good (fun buffer => (h buffer).1) fun v M' pool ⟨holds, minds⟩ =>
    ⟨kept v M' pool holds, left pool minds⟩, fun stop M' hy => ?_⟩
  cases hx : y (M.memory.scratch.buffer 0) (M.withScratch M.memory.scratch.rest) with
  | ok v M'' =>
    rw [Eval.withBuffer_of_ok hx] at hy
    cases hy
  | error e M'' =>
    rw [Eval.withBuffer_of_error hx] at hy
    cases hy
    exact left _ ((h _).2 _ _ hx)

/-! ## Loops -/

/-- Each item is turned into a result that is related to it, also later on. -/
theorem mapM {R : α → β → Machine → Prop} {f g : α → Eval β} (as : List α) (tidy : M.Tidy a K n)
    (later : ∀ v w M M', Machine.Goes a K n M M' → R v w M → R v w M')
    (step : ∀ v ∈ as, ∀ M', M.Goes a K n M' → Careful a K n (f v) (g v) M' (R v)) :
    Careful a K n (as.mapM f) (as.mapM g) M fun ws M' =>
      List.Forall₂ (fun v w => R v w M') as ws := by
  induction as generalizing M with
  | nil =>
    rw [List.mapM_nil, List.mapM_nil]
    exact pure tidy .nil
  | cons v rest ih =>
    rw [List.mapM_cons, List.mapM_cons]
    refine (step v (List.mem_cons_self ..) M tidy.refl).bind tidy fun w M₁ goes₁ related => ?_
    have tidy₁ := tidy.later goes₁
    refine (ih tidy₁ fun v hv M' goes' => step v (List.mem_cons_of_mem _ hv) M'
      (goes₁.trans tidy.low goes')).bind tidy₁ fun ws M₂ goes₂ all => ?_
    exact pure (tidy₁.later goes₂) (.cons (later _ _ _ _ goes₂ related) all)

/-- What the rounds have reached is known from the items they were made for. -/
theorem forM {P : List α → Machine → Prop} {f g : α → Eval PUnit} (as : List α)
    (tidy : M.Tidy a K n) (start : P [] M)
    (step : ∀ done v rest, as = done ++ v :: rest → ∀ M', M.Goes a K n M' → P done M' →
      Careful a K n (f v) (g v) M' fun _ => P (done ++ [v])) :
    Careful a K n (as.forM f) (as.forM g) M fun _ => P as := by
  -- The induction is on what is left, for any beginning.
  suffices run : ∀ (rest done : List α) (M' : Machine), as = done ++ rest → M.Goes a K n M' →
      P done M' → Careful a K n (rest.forM f) (rest.forM g) M' fun _ => P as from
    run as [] M rfl tidy.refl start
  intro rest
  induction rest with
  | nil =>
    rintro done M' rfl goes holds
    rw [List.append_nil]
    exact pure (tidy.later goes) holds
  | cons v rest ih =>
    intro done M' split goes holds
    show Careful a K n (f v >>= fun _ => rest.forM f) (g v >>= fun _ => rest.forM g) M' _
    refine (step done v rest split M' goes holds).bind (tidy.later goes) fun _ M₁ goes₁ holds₁ => ?_
    exact ih (done ++ [v]) M₁ (by rw [split, List.append_assoc, List.singleton_append])
      (goes.trans tidy.low goes₁) holds₁

end Careful

/-! ## Steps that leave all spaces alone -/

namespace Eval

/-- However the step ends, all spaces are as they were. -/
def Still (x : Eval α) : Prop := ∀ M, match x M with
  | .ok _ M' | .error _ M' => M'.memory.spaces = M.memory.spaces

namespace Still

variable {x : Eval α} {f : α → Eval β}

theorem of_ok (h : Still x) {v : α} (run : x M = .ok v M') :
    M'.memory.spaces = M.memory.spaces := by
  have same := h M
  rw [run] at same
  exact same

theorem of_error (h : Still x) {stop : Stop} (run : x M = .error stop M') :
    M'.memory.spaces = M.memory.spaces := by
  have same := h M
  rw [run] at same
  exact same

theorem pure (v : α) : Still (Pure.pure v) := fun _ => rfl

theorem raise (e : Exception) : Still (Eval.raise e : Eval α) := fun _ => rfl

theorem ofExcept (r : Except Exception α) : Still (Eval.ofExcept r) := by
  cases r with
  | ok v => exact pure v
  | error e => exact raise e

theorem memory : Still Eval.memory := fun _ => rfl

theorem create {g : Memory → α × Memory} (same : ∀ m : Memory, (g m).2.spaces = m.spaces) :
    Still (Eval.create g) :=
  fun M => same M.memory

theorem bind (h : Still x) (rest : ∀ v, Still (f v)) : Still (x >>= f) := by
  intro M
  cases run : x M with
  | ok v M' =>
    rw [bind_of_ok run]
    cases run' : f v M' with
    | ok w M'' => exact ((rest v).of_ok run').trans (h.of_ok run)
    | error stop M'' => exact ((rest v).of_error run').trans (h.of_ok run)
  | error stop M' =>
    rw [bind_of_error run]
    exact h.of_error run

theorem foldlM {g : β → α → Eval β} (as : List α) (b : β) (step : ∀ b v, Still (g b v)) :
    Still (as.foldlM g b) := by
  induction as generalizing b with
  | nil => exact pure b
  | cons v rest ih =>
    rw [List.foldlM_cons]
    exact (step b v).bind ih

theorem newList (items : List Value) : Still (Eval.newList items) :=
  (create (g := Memory.newObject) fun _ => rfl).bind fun _ => pure _

theorem newDict (entries : Entries Value) : Still (Eval.newDict entries) :=
  (create (g := Memory.newObject) fun _ => rfl).bind fun _ => pure _

theorem cast (v : Value) (ty : Ty) : Still (Eval.cast v ty) :=
  (create (g := Memory.newObject) fun _ => rfl).bind fun _ => ofExcept _

theorem curry (id : FunctionId) (args : List (String × Value)) : Still (Eval.curry id args) := by
  refine memory.bind fun m => ?_
  refine (foldlM args _ fun fixed arg => ?_).bind fun fixed => create fun _ => rfl
  unfold FunctionObject.fix
  split
  · exact (cast arg.2 _).bind fun _ => pure _
  · exact raise _

end Still

end Eval

/-- **A safe step that leaves all spaces alone is careful.** -/
theorem Careful.lift {x y : Eval α} {post : α → Machine → Prop} (tidy : M.Tidy a K n)
    (still : Eval.Still y) (safe : Safe a K x y M post) :
    Careful a K n x y M fun v M' => post v M' ∧ M'.memory.spaces = M.memory.spaces := by
  refine ⟨⟨safe.1, ?_⟩, fun stop M' hy => .of_spaces tidy.neat (still.of_error hy)⟩
  have outcome := safe.2
  cases hy : y M with
  | ok v M' =>
    rw [hy] at outcome
    exact ⟨outcome.1, ⟨outcome.2, still.of_ok hy⟩, .of_spaces tidy.neat (still.of_ok hy)⟩
  | error stop M' =>
    rw [hy] at outcome
    exact outcome

end CellScript
