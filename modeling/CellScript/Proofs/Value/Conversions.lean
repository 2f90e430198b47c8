import CellScript.Proofs.Value.Kinds

/-!
# Conversions

A conversion gives the value itself or one that depends on it alone, except for the identity of a
new container.

* `cast_cast` — a converted value is not converted again
* `cast_twin` — conversions of a value differ in the identity of what they create
-/

namespace CellScript

namespace Value


variable {i j : ObjectId} {v w x y : Value} {ty : Ty}

/-- **A converted value is not converted again.** -/
theorem cast_cast (h : v.cast i ty = .ok w) : w.cast j ty = .ok w := by
  have holds := cast_holds h
  cases ty with
  | any => rfl
  | void =>
    cases h
    rfl
  | boolean =>
    cases h
    rfl
  | _ =>
    rcases holds with rfl | holds | holds
    · rfl
    · cases holds
    · simp [cast, holds]

/-- The same value, or two containers with the same contents. -/
inductive Twin : Value → Value → Prop
  | same (v : Value) : Twin v v
  | list (i j : ObjectId) (items : List Value) : Twin (.list i items) (.list j items)
  | dict (i j : ObjectId) (entries : Entries Value) : Twin (.dict i entries) (.dict j entries)

/-- Conversions of a value differ in the identity of what they create. -/
theorem cast_twin (h : v.cast i ty = .ok w) (j : ObjectId) :
    ∃ w', v.cast j ty = .ok w' ∧ w.Twin w' := by
  by_cases kept : v.isNil || v.ty == ty
  · refine ⟨w, ?_, .same w⟩
    rw [← h]
    cases ty <;> simp [cast, kept]
  · cases ty with
    | list =>
      simp only [cast, kept, if_false, Bool.false_eq_true] at h ⊢
      cases hv : v.toItems with
      | error e =>
        rw [hv] at h
        cases h
      | ok items =>
        rw [hv] at h
        cases h
        exact ⟨_, rfl, .list i j items⟩
    | dict =>
      simp only [cast, kept, if_false, Bool.false_eq_true] at h ⊢
      cases hv : v.toEntries with
      | error e =>
        rw [hv] at h
        cases h
      | ok entries =>
        rw [hv] at h
        cases h
        exact ⟨_, rfl, .dict i j entries⟩
    | _ =>
      refine ⟨w, ?_, .same w⟩
      rw [← h]
      rfl

/-- Conversion to the type does not tell the values apart. -/
def CastAlike (ty : Ty) (v w : Value) : Prop := ∀ i : ObjectId, v.cast i ty = w.cast i ty

/-- Conversion to the type creates nothing that has an identity of its own. -/
def CastsPlainly (ty : Ty) (v : Value) : Prop := ∀ i j : ObjectId, v.cast i ty = v.cast j ty

theorem CastsPlainly.castAlike (plain : v.CastsPlainly ty) (h : v.cast i ty = .ok w) :
    CastAlike ty v w := fun j => (plain j i).trans (h.trans (cast_cast h).symm)

end Value

end CellScript
