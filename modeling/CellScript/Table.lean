/-!
# Tables

A finite map as a list of pairs, the latest first. Entering a key again hides the earlier entry.
-/

namespace CellScript

/-- Keys with what is entered under them, the latest first. -/
abbrev Table (κ α : Type) := List (κ × α)

namespace Table

variable {κ α : Type} [DecidableEq κ]

/-- What was last entered under a key. -/
def get? (t : Table κ α) (key : κ) : Option α :=
  match t with
  | [] => none
  | (k, a) :: rest => if k = key then some a else get? rest key

/-- Enters a value under a key. -/
def insert (t : Table κ α) (key : κ) (a : α) : Table κ α := (key, a) :: t

/-- Changes the latest entry of a key, if there is one. -/
def update (t : Table κ α) (key : κ) (f : α → α) : Table κ α :=
  match t with
  | [] => []
  | (k, a) :: rest => if k = key then (k, f a) :: rest else (k, a) :: update rest key f

theorem get?_insert (t : Table κ α) (key other : κ) (a : α) :
    (t.insert key a).get? other = if key = other then some a else t.get? other := rfl

theorem get?_update (t : Table κ α) (key other : κ) (f : α → α) :
    (t.update key f).get? other =
      if key = other then (t.get? other).map f else t.get? other := by
  induction t with
  | nil => simp [update, get?]
  | cons entry rest ih =>
    obtain ⟨k, a⟩ := entry
    by_cases hk : k = key <;> by_cases ho : k = other <;> grind [update, get?]

end Table

end CellScript
