import CellScript.Eval.Function

/-!
# Arrangements of arguments

A function with fixed parameters is called with arguments for the others. All adapters put the fixed
values at the places of their parameters and the arguments at the other places, in order.

* `FunctionObject.arrange` — fixed values and arguments at their places
* `Adapter.arguments_select` — all adapters realise this arrangement
* `FunctionObject.arrange_arrange`, `FunctionObject.free_merge` — fixing twice is fixing once
-/

namespace CellScript

namespace FunctionObject

/-- Fixed values at their places, and arguments at the others, in order. -/
def arrange : List (Option Value) → List Value → List Value
  | [], _ => []
  | some v :: fixed, args => v :: arrange fixed args
  | none :: fixed, arg :: args => arg :: arrange fixed args
  | none :: fixed, [] => .nil :: arrange fixed []

/-- The number of parameters that are left. -/
def freeCount (fixed : List (Option Value)) : Nat := fixed.countP (·.isNone)

section Free

variable {α : Type} (fixed : List (Option Value)) (a : α) (all : List α) (v : Value)

@[simp] theorem free_nil : free [] all = [] := rfl

@[simp] theorem free_nil_right : free fixed ([] : List α) = [] := by simp [free]

@[simp] theorem free_some : free (some v :: fixed) (a :: all) = free fixed all := rfl

@[simp] theorem free_none : free (none :: fixed) (a :: all) = a :: free fixed all := rfl

@[simp] theorem freeCount_nil : freeCount [] = 0 := rfl

@[simp] theorem freeCount_some : freeCount (some v :: fixed) = freeCount fixed := by
  simp [freeCount]

@[simp] theorem freeCount_none : freeCount (none :: fixed) = freeCount fixed + 1 := by
  simp [freeCount]

end Free

theorem length_free {α : Type} {fixed : List (Option Value)} {all : List α}
    (h : fixed.length = all.length) : (free fixed all).length = freeCount fixed := by
  induction fixed generalizing all with
  | nil => rfl
  | cons entry fixed ih =>
    cases all with
    | nil => cases h
    | cons a all => cases entry <;> simp [ih (Nat.succ.inj h)]

theorem length_arrange (fixed : List (Option Value)) (args : List Value) :
    (arrange fixed args).length = fixed.length := by
  fun_induction arrange fixed args <;> simp [*]

/-- What is left does not depend on what is fixed, only on where. -/
theorem free_congr {α : Type} {fixed fixed' : List (Option Value)}
    (same : fixed.map (·.isNone) = fixed'.map (·.isNone)) (all : List α) :
    free fixed all = free fixed' all := by
  induction fixed generalizing fixed' all with
  | nil =>
    cases fixed' with
    | nil => rfl
    | cons => cases same
  | cons entry fixed ih =>
    cases fixed' with
    | nil => cases same
    | cons entry' fixed' =>
      obtain ⟨first, rest⟩ := List.cons.inj same
      cases all with
      | nil => rfl
      | cons a all =>
        cases entry <;> cases entry' <;> simp_all [ih rest]

/-! ## Fixing twice -/

/-- Fixes some of the places that are still free. -/
def merge : List (Option Value) → List (Option Value) → List (Option Value)
  | [], _ => []
  | some v :: fixed, more => some v :: merge fixed more
  | none :: fixed, entry :: more => entry :: merge fixed more
  | none :: fixed, [] => none :: merge fixed []

/-- **Arranging twice is arranging once.** -/
theorem arrange_arrange {fixed more : List (Option Value)} (h : more.length = freeCount fixed)
    (args : List Value) : arrange fixed (arrange more args) = arrange (merge fixed more) args := by
  induction fixed generalizing more args with
  | nil => rfl
  | cons entry fixed ih =>
    cases entry with
    | some v =>
      rw [freeCount_some] at h
      rw [arrange, merge, arrange, ih h]
    | none =>
      rw [freeCount_none] at h
      cases more with
      | nil => cases h
      | cons entry more =>
        have rest : more.length = freeCount fixed := Nat.succ.inj h
        rcases entry with _ | v
        · cases args <;> rw [merge, arrange, arrange, arrange, ih rest]
        · rw [merge, arrange, arrange, arrange, ih rest]

/-- What is left of what is left. -/
theorem free_merge {α : Type} {fixed more : List (Option Value)} (h : more.length = freeCount fixed)
    (all : List α) : free (merge fixed more) all = free more (free fixed all) := by
  induction fixed generalizing more all with
  | nil =>
    cases more with
    | nil => rfl
    | cons => cases h
  | cons entry fixed ih =>
    cases all with
    | nil => simp only [free_nil_right]
    | cons a all =>
      cases entry with
      | some v =>
        rw [freeCount_some] at h
        rw [merge, free_some, free_some, ih h]
      | none =>
        rw [freeCount_none] at h
        cases more with
        | nil => cases h
        | cons entry more =>
          have rest : more.length = freeCount fixed := Nat.succ.inj h
          rw [merge, free_none]
          cases entry <;> simp [ih rest]

end FunctionObject

/-! ## Adapters -/

namespace Adapter

open FunctionObject

theorem fill_nil (buffer : List Value) (fixed : List (Option Value)) :
    fill buffer fixed [] = buffer := by
  induction buffer generalizing fixed with
  | nil => cases fixed <;> rfl
  | cons slot buffer ih =>
    rcases fixed with _ | ⟨_ | v, fixed⟩
    · rfl
    · rfl
    · rw [fill, ih]

/-- Writing into a buffer arranges fixed values and arguments. -/
theorem fill_eq_arrange (fixed : List (Option Value)) (args : List Value) :
    fill (fixed.map (·.getD .nil)) fixed args = arrange fixed args := by
  fun_induction arrange fixed args with
  | case1 => rfl
  | case2 _ _ _ ih => simpa [fill] using ih
  | case3 _ _ _ ih => simpa [fill] using ih
  | case4 fixed ih =>
    rw [← ih, fill_nil, fill_nil]
    rfl

theorem select_of_length {fixed : List (Option Value)} (h : 3 < fixed.length) :
    select fixed = generic := by
  match fixed, h with
  | a :: b :: c :: d :: rest, _ =>
    cases a <;> cases b <;> cases c <;> rfl

/-- **All adapters realise the same arrangement**, the generic one with an empty buffer. -/
theorem arguments_select {fixed : List (Option Value)} {args : List Value}
    (h : args.length = freeCount fixed) :
    (select fixed).arguments [] fixed args = arrange fixed args := by
  by_cases large : 3 < fixed.length
  · rw [select_of_length large, arguments, List.nil_append, fill_eq_arrange]
  · -- Each choice of fixed parameters has its adapter.
    rcases fixed with _ | ⟨a, _ | ⟨b, _ | ⟨c, _ | ⟨d, rest⟩⟩⟩⟩
    · exact fill_eq_arrange [] args
    · cases a <;> rcases args with _ | ⟨x, _ | ⟨y, args⟩⟩ <;> first | rfl | simp at h
    · cases a <;> cases b <;> rcases args with _ | ⟨x, _ | ⟨y, _ | ⟨z, args⟩⟩⟩ <;>
        first | rfl | simp at h
    · cases a <;> cases b <;> cases c <;>
        rcases args with _ | ⟨x, _ | ⟨y, _ | ⟨z, _ | ⟨w, args⟩⟩⟩⟩ <;> first | rfl | simp at h
    · exact absurd (by simp) large

end Adapter

end CellScript
