import CellScript.Eval.Basic

/-!
# Equations of the steps of evaluation

What the combinators of `CellScript.Eval.Basic` do with each of the ways in which a step can end.
Running out of fuel and the refusal of an observer pass through all of them untouched.
-/

namespace CellScript.Eval

variable {α β : Type}

/-! ## Sequences -/

theorem pure_apply (a : α) (m : Machine) : (pure a : Eval α) m = .ok a m := rfl

theorem bind_apply (x : Eval α) (f : α → Eval β) (m : Machine) :
    (x >>= f) m = match x m with
      | .ok a m => f a m
      | .error e m => .error e m := by
  show EStateM.bind x f m = _
  unfold EStateM.bind
  cases x m <;> rfl

/-- A step that has ended well goes on with its result. -/
theorem bind_of_ok {x : Eval α} {m m' : Machine} {a : α} (h : x m = .ok a m') (f : α → Eval β) :
    (x >>= f) m = f a m' := by
  rw [bind_apply, h]

/-- Nothing happens after a step that has not ended well. -/
theorem bind_of_error {x : Eval α} {m m' : Machine} {e : Stop} (h : x m = .error e m')
    (f : α → Eval β) : (x >>= f) m = .error e m' := by
  rw [bind_apply, h]

/-- A sequence ends well if both steps do. -/
theorem bind_eq_ok {x : Eval α} {f : α → Eval β} {m m' : Machine} {b : β} :
    (x >>= f) m = .ok b m' ↔ ∃ a m₁, x m = .ok a m₁ ∧ f a m₁ = .ok b m' := by
  rw [bind_apply]
  cases x m with
  | ok a m₁ => exact ⟨fun h => ⟨a, m₁, rfl, h⟩, fun ⟨_, _, hx, hf⟩ => by cases hx; exact hf⟩
  | error e m₁ => exact ⟨fun h => (by cases h), fun ⟨_, _, hx, _⟩ => by cases hx⟩

theorem pure_eq_ok {a b : α} {m m' : Machine} : (pure a : Eval α) m = .ok b m' ↔
    a = b ∧ m = m' := by
  rw [pure_apply]
  exact ⟨fun h => (by cases h; exact ⟨rfl, rfl⟩), fun ⟨ha, hm⟩ => by rw [ha, hm]⟩

theorem ofExcept_ok (a : α) : ofExcept (.ok a) = pure a := rfl

/-- What is asked of memory and is there. -/
theorem ask_of_ok {f : Memory → Except Exception α} {m : Machine} {a : α} (h : f m.memory = .ok a) :
    ask f m = .ok a m := by
  show ofExcept (f m.memory) m = _
  rw [h]
  rfl

/-! ## Exceptions on their way out -/

/-- A region changes nothing about a result. -/
theorem located_of_ok {x : Eval α} {m m' : Machine} {a : α} (h : x m = .ok a m') (span : Span) :
    located span x m = .ok a m' := by
  rw [located, h]

theorem located_of_raised {x : Eval α} {m m' : Machine} {e : Exception}
    (h : x m = .error (.raised e) m') (span : Span) :
    located span x m = .error (.raised (e.orSpan span)) m' := by
  rw [located, h]

theorem located_of_exhausted {x : Eval α} {m m' : Machine} (h : x m = .error .exhausted m')
    (span : Span) : located span x m = .error .exhausted m' := by
  rw [located, h]

theorem located_of_refused {x : Eval α} {m m' : Machine} (h : x m = .error .refused m')
    (span : Span) : located span x m = .error .refused m' := by
  rw [located, h]

theorem attempt_of_ok {x : Eval α} {m m' : Machine} {a : α} (h : x m = .ok a m') :
    attempt x m = .ok (.ok a) m' := by
  rw [attempt, h]

/-- An exception that is attempted becomes a result; what was changed stays changed. -/
theorem attempt_of_raised {x : Eval α} {m m' : Machine} {e : Exception}
    (h : x m = .error (.raised e) m') : attempt x m = .ok (.error e) m' := by
  rw [attempt, h]

theorem attempt_of_exhausted {x : Eval α} {m m' : Machine} (h : x m = .error .exhausted m') :
    attempt x m = .error .exhausted m' := by
  rw [attempt, h]

theorem attempt_of_refused {x : Eval α} {m m' : Machine} (h : x m = .error .refused m') :
    attempt x m = .error .refused m' := by
  rw [attempt, h]

theorem inFrame_of_ok {x : Eval α} {m m' : Machine} {a : α} {frame : Frame}
    (h : x { m with context := m.context.push frame } = .ok a m') :
    inFrame frame x m = .ok a { m' with context := m'.context.pop } := by
  simp only [inFrame, h]

theorem inFrame_of_raised {x : Eval α} {m m' : Machine} {e : Exception} {frame : Frame}
    (h : x { m with context := m.context.push frame } = .error (.raised e) m') :
    inFrame frame x m =
      .error (.raised (e.orTrace m'.context.trace)) { m' with context := m'.context.pop } := by
  simp only [inFrame, h]

theorem inFrame_of_exhausted {x : Eval α} {m m' : Machine} {frame : Frame}
    (h : x { m with context := m.context.push frame } = .error .exhausted m') :
    inFrame frame x m = .error .exhausted { m' with context := m'.context.pop } := by
  simp only [inFrame, h]

/-! ## What is held while a step runs -/

theorem holding_of_ok {x : Eval α} {m m' : Machine} {a : α} (h : x m = .ok a m') (space : SpaceId) :
    holding space x m = .ok a (m'.dropped space) := by
  simp only [holding, h]

theorem holding_of_error {x : Eval α} {m m' : Machine} {e : Stop} (h : x m = .error e m')
    (space : SpaceId) : holding space x m = .error e (m'.dropped space) := by
  simp only [holding, h]

/-- It matters only how the step ends. -/
theorem holding_congr {x y : Eval α} {m m' : Machine} (h : x m = y m') (space : SpaceId) :
    holding space x m = holding space y m' := by
  simp only [holding, h]

theorem within_apply (f : Memory → SpaceId × Memory) (x : SpaceId → Eval α) (m : Machine) :
    within f x m = holding (f m.memory).1 (x (f m.memory).1)
      { m with memory := (f m.memory).2 } := rfl

theorem withBuffer_of_ok {x : List Value → Eval α} {m m' : Machine} {a : α}
    (h : x (m.memory.scratch.buffer 0) (m.withScratch m.memory.scratch.rest) = .ok a m') :
    withBuffer x m = .ok a (m'.withScratch (m'.memory.scratch.give [])) := by
  simp only [withBuffer, h]

theorem withBuffer_of_error {x : List Value → Eval α} {m m' : Machine} {e : Stop}
    (h : x (m.memory.scratch.buffer 0) (m.withScratch m.memory.scratch.rest) = .error e m') :
    withBuffer x m = .error e (m'.withScratch (m'.memory.scratch.give [])) := by
  simp only [withBuffer, h]

end CellScript.Eval
