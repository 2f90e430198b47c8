import CellScript.Value.Basic

/-!
# Buffers

Some calls write their arguments into a buffer. A call takes the buffer on top of a pool, or a new
one if there is none, and puts it back when it is over; a call that is made meanwhile takes the next
one. Since there is no end of new buffers, all of them empty, pools that differ only in how many new
buffers lie at their bottom are the same.

* `Pool.buffer`, `Pool.rest`, `Pool.give` — looking at the buffers, taking one and putting it back
* `Pool.ext` — pools are the same if their buffers are, at every depth
* `Pool.Clear` — all buffers are empty
* `Pool.rest_of_clear`, `Pool.give_of_clear` — of a clear pool an empty buffer is taken and put back
-/

namespace CellScript

/-- Both stacks of buffers hold the same at every depth. -/
def Pool.Same (p q : List (List Value)) : Prop :=
  ∀ depth : Nat, p[depth]?.getD [] = q[depth]?.getD []

/-- Buffers that nobody uses, the one that was put back last on top. -/
def Pool : Type := Quot Pool.Same

namespace Pool

/-- No buffer has been used yet. -/
def unused : Pool := Quot.mk _ []

instance : Inhabited Pool := ⟨unused⟩

/-- What the buffer at a depth holds. -/
def buffer (p : Pool) (depth : Nat) : List Value :=
  Quot.lift (fun buffers : List (List Value) => buffers[depth]?.getD [])
    (fun _ _ same => same depth) p

/-- The pool without the buffer on top. -/
def rest (p : Pool) : Pool :=
  Quot.lift (fun buffers => Quot.mk Same buffers.tail) (fun _ _ same => Quot.sound fun depth => by
    rw [List.getElem?_tail, List.getElem?_tail]
    exact same (depth + 1)) p

/-- Puts a buffer on top. -/
def give (p : Pool) (buffer : List Value) : Pool :=
  Quot.lift (fun buffers => Quot.mk Same (buffer :: buffers))
    (fun _ _ same => Quot.sound fun depth => by
    cases depth with
    | zero => rfl
    | succ depth => exact same depth) p

variable {p q : Pool} {b : List Value}

/-- Pools are the same if they have the same buffers. -/
theorem ext (same : ∀ depth, p.buffer depth = q.buffer depth) : p = q := by
  induction p using Quot.ind with
  | mk buffers =>
    induction q using Quot.ind with
    | mk others => exact Quot.sound same

theorem buffer_rest (p : Pool) (depth : Nat) : p.rest.buffer depth = p.buffer (depth + 1) := by
  induction p using Quot.ind with
  | mk buffers =>
    show buffers.tail[depth]?.getD [] = _
    rw [List.getElem?_tail]
    rfl

theorem buffer_give_zero (p : Pool) (b : List Value) : (p.give b).buffer 0 = b := by
  induction p using Quot.ind with
  | mk buffers => rfl

theorem buffer_give_succ (p : Pool) (b : List Value) (depth : Nat) :
    (p.give b).buffer (depth + 1) = p.buffer depth := by
  induction p using Quot.ind with
  | mk buffers => rfl

/-! ## Clear pools -/

/-- Every buffer in the pool is empty. -/
def Clear (p : Pool) : Prop := ∀ depth, p.buffer depth = []

theorem clear_unused : unused.Clear := fun _ => rfl

theorem Clear.rest (h : p.Clear) : p.rest.Clear := fun depth => by
  rw [buffer_rest, h]

/-- A buffer is cleared before it is put back. -/
theorem Clear.give (h : p.Clear) : (p.give []).Clear := fun depth => by
  cases depth with
  | zero => exact buffer_give_zero p []
  | succ depth => rw [buffer_give_succ, h]

/-- To take an empty buffer from a clear pool leaves the same pool. -/
theorem rest_of_clear (h : p.Clear) : p.rest = p :=
  ext fun depth => (h.rest depth).trans (h depth).symm

/-- So does putting an empty buffer back. -/
theorem give_of_clear (h : p.Clear) : p.give [] = p :=
  ext fun depth => (h.give depth).trans (h depth).symm

end Pool

end CellScript
