import CellScript.Proofs.Value.Alike

/-!
# Looking into containers

Equality of containers that are the same object is answered without looking into them. Objects have
one contents each, so that looking would give the same answer, if the comparison of scalars finds
everything equal to itself. Equality that always looks into containers has the laws that the
comparison of scalars has.

* `Value.Equality.eq_lookInto` — the shortcut changes nothing
* `Value.lookInto_refl`, `Value.lookInto_symm`, `Value.lookInto_trans` — the laws of an equivalence
* `Value.lookInto_imp` — a finer comparison of scalars
-/

namespace CellScript.Value

/-! ## Everything inside a value -/

section Everywhere

variable (p : Value → Prop)

mutual

/-- The value and everything inside it has the property. -/
def Everywhere : Value → Prop
  | list i items => p (list i items) ∧ everywhereItems items
  | dict i entries => p (dict i entries) ∧ everywhereEntries entries
  | v => p v

def everywhereItems : List Value → Prop
  | [] => True
  | v :: rest => v.Everywhere ∧ everywhereItems rest

def everywhereEntries : List (String × Value) → Prop
  | [] => True
  | (_, v) :: rest => v.Everywhere ∧ everywhereEntries rest

end

end Everywhere

/-- The object that a container is. -/
def object? : Value → Option ObjectId
  | list i _ => some i
  | dict i _ => some i
  | _ => none

/-- Objects have contents, and containers that are the same object have the same contents. -/
def Stored (contents : ObjectId → Value) : Value → Prop :=
  Everywhere fun v => ∀ i, v.object? = some i → contents i = v

/-! ## The comparison that looks into all containers -/

section LookInto

variable (scalars : Value → Value → Bool)

mutual

/-- The comparison that looks into all containers, the same object or not. -/
def lookInto : Value → Value → Bool
  | list _ xs, b =>
    match b with
    | list _ ys => lookIntoItems xs ys
    | _ => false
  | dict _ xs, b =>
    match b with
    | dict _ ys => lookIntoEntries xs ys
    | _ => false
  | a, b => scalars a b

def lookIntoItems : List Value → List Value → Bool
  | [], ys => ys.isEmpty
  | x :: xs, ys =>
    match ys with
    | [] => false
    | y :: ys => lookInto x y && lookIntoItems xs ys

def lookIntoEntries : List (String × Value) → List (String × Value) → Bool
  | [], ys => ys.isEmpty
  | (k, x) :: xs, ys =>
    match ys with
    | [] => false
    | (l, y) :: ys => k == l && lookInto x y && lookIntoEntries xs ys

end

end LookInto

section Laws

variable {p : Value → Prop} {scalars : Value → Value → Bool}

theorem Everywhere.self {v : Value} (h : v.Everywhere p) : p v := by
  cases v with
  | list | dict => exact h.1
  | _ => exact h

mutual

theorem Everywhere.and {q : Value → Prop} :
    ∀ {v : Value}, v.Everywhere p → v.Everywhere q → v.Everywhere fun v => p v ∧ q v
  | .list _ _, h, h' => ⟨⟨h.1, h'.1⟩, everywhereItems_and h.2 h'.2⟩
  | .dict _ _, h, h' => ⟨⟨h.1, h'.1⟩, everywhereEntries_and h.2 h'.2⟩
  | .nil, h, h' | .boolean _, h, h' | .long _, h, h' | .double _, h, h' | .decimal _, h, h'
  | .string _, h, h' | .datetime _, h, h' | .function .., h, h' => ⟨h, h'⟩

theorem everywhereItems_and {q : Value → Prop} :
    ∀ {xs : List Value}, everywhereItems p xs → everywhereItems q xs →
      everywhereItems (fun v => p v ∧ q v) xs
  | [], _, _ => trivial
  | _ :: _, h, h' => ⟨h.1.and h'.1, everywhereItems_and h.2 h'.2⟩

theorem everywhereEntries_and {q : Value → Prop} :
    ∀ {xs : List (String × Value)}, everywhereEntries p xs → everywhereEntries q xs →
      everywhereEntries (fun v => p v ∧ q v) xs
  | [], _, _ => trivial
  | _ :: _, h, h' => ⟨h.1.and h'.1, everywhereEntries_and h.2 h'.2⟩

end

theorem lookInto_scalar {a b : Value} (h : a.object? = none) :
    lookInto scalars a b = scalars a b := by
  cases a with
  | list | dict => cases h
  | _ => rfl

mutual

/-- Looking into containers finds every value equal to itself, if scalars are. -/
theorem lookInto_refl (refl : ∀ v, v.object? = none → p v → scalars v v = true) :
    ∀ a, a.Everywhere p → lookInto scalars a a = true
  | .list _ xs, h => lookIntoItems_refl refl xs h.2
  | .dict _ xs, h => lookIntoEntries_refl refl xs h.2
  | .nil, h | .boolean _, h | .long _, h | .double _, h | .decimal _, h | .string _, h
  | .datetime _, h | .function .., h => refl _ rfl h

theorem lookIntoItems_refl (refl : ∀ v, v.object? = none → p v → scalars v v = true) :
    ∀ xs, everywhereItems p xs → lookIntoItems scalars xs xs = true
  | [], _ => rfl
  | x :: xs, h => by
    rw [lookIntoItems, lookInto_refl refl x h.1, lookIntoItems_refl refl xs h.2]
    rfl

theorem lookIntoEntries_refl (refl : ∀ v, v.object? = none → p v → scalars v v = true) :
    ∀ xs, everywhereEntries p xs → lookIntoEntries scalars xs xs = true
  | [], _ => rfl
  | (k, x) :: xs, h => by
    rw [lookIntoEntries, lookInto_refl refl x h.1, lookIntoEntries_refl refl xs h.2,
      beq_self_eq_true]
    rfl

end

mutual

/-- What scalars that are equal have in common, values equal by looking into containers have. -/
theorem lookInto_imp {scalars' : Value → Value → Bool}
    (imp : ∀ a b, p a → p b → scalars a b = true → scalars' a b = true) :
    ∀ a b, a.Everywhere p → b.Everywhere p → lookInto scalars a b = true →
      lookInto scalars' a b = true
  | .list _ xs, b, ha, hb, h => by
    cases b with
    | list _ ys => exact lookIntoItems_imp imp xs ys ha.2 hb.2 h
    | _ => cases h
  | .dict _ xs, b, ha, hb, h => by
    cases b with
    | dict _ ys => exact lookIntoEntries_imp imp xs ys ha.2 hb.2 h
    | _ => cases h
  | .nil, _, ha, hb, h | .boolean _, _, ha, hb, h | .long _, _, ha, hb, h | .double _, _, ha, hb, h
  | .decimal _, _, ha, hb, h | .string _, _, ha, hb, h | .datetime _, _, ha, hb, h
  | .function .., _, ha, hb, h => imp _ _ ha hb.self h

theorem lookIntoItems_imp {scalars' : Value → Value → Bool}
    (imp : ∀ a b, p a → p b → scalars a b = true → scalars' a b = true) :
    ∀ xs ys, everywhereItems p xs → everywhereItems p ys → lookIntoItems scalars xs ys = true →
      lookIntoItems scalars' xs ys = true
  | [], _, _, _, h => h
  | _ :: _, [], _, _, h => h
  | x :: xs, y :: ys, hx, hy, h => by
    rw [lookIntoItems, Bool.and_eq_true] at h ⊢
    exact ⟨lookInto_imp imp x y hx.1 hy.1 h.1, lookIntoItems_imp imp xs ys hx.2 hy.2 h.2⟩

theorem lookIntoEntries_imp {scalars' : Value → Value → Bool}
    (imp : ∀ a b, p a → p b → scalars a b = true → scalars' a b = true) :
    ∀ xs ys, everywhereEntries p xs → everywhereEntries p ys → lookIntoEntries scalars xs ys =
      true → lookIntoEntries scalars' xs ys = true
  | [], _, _, _, h => h
  | _ :: _, [], _, _, h => h
  | (k, x) :: xs, (l, y) :: ys, hx, hy, h => by
    rw [lookIntoEntries, Bool.and_eq_true, Bool.and_eq_true] at h ⊢
    exact ⟨⟨h.1.1, lookInto_imp imp x y hx.1 hy.1 h.1.2⟩,
      lookIntoEntries_imp imp xs ys hx.2 hy.2 h.2⟩

end

mutual

/-- The order of the two values does not matter, if it does not for scalars. -/
theorem lookInto_symm (apart : ∀ a b, scalars a b = true → b.object? = none)
    (symm : ∀ a b, p a → p b → scalars a b = true → scalars b a = true) :
    ∀ a b, a.Everywhere p → b.Everywhere p → lookInto scalars a b = true →
      lookInto scalars b a = true
  | .list _ xs, b, ha, hb, h => by
    cases b with
    | list _ ys => exact lookIntoItems_symm apart symm xs ys ha.2 hb.2 h
    | _ => cases h
  | .dict _ xs, b, ha, hb, h => by
    cases b with
    | dict _ ys => exact lookIntoEntries_symm apart symm xs ys ha.2 hb.2 h
    | _ => cases h
  | .nil, _, ha, hb, h | .boolean _, _, ha, hb, h | .long _, _, ha, hb, h | .double _, _, ha, hb, h
  | .decimal _, _, ha, hb, h | .string _, _, ha, hb, h | .datetime _, _, ha, hb, h
  | .function .., _, ha, hb, h => by
    rw [lookInto_scalar (apart _ _ h)]
    exact symm _ _ ha hb.self h

theorem lookIntoItems_symm (apart : ∀ a b, scalars a b = true → b.object? = none)
    (symm : ∀ a b, p a → p b → scalars a b = true → scalars b a = true) :
    ∀ xs ys, everywhereItems p xs → everywhereItems p ys → lookIntoItems scalars xs ys = true →
      lookIntoItems scalars ys xs = true
  | [], [], _, _, h => h
  | _ :: _, [], _, _, h | [], _ :: _, _, _, h => by cases h
  | x :: xs, y :: ys, hx, hy, h => by
    rw [lookIntoItems, Bool.and_eq_true] at h ⊢
    exact ⟨lookInto_symm apart symm x y hx.1 hy.1 h.1, lookIntoItems_symm apart symm xs ys
      hx.2 hy.2 h.2⟩

theorem lookIntoEntries_symm (apart : ∀ a b, scalars a b = true → b.object? = none)
    (symm : ∀ a b, p a → p b → scalars a b = true → scalars b a = true) :
    ∀ xs ys, everywhereEntries p xs → everywhereEntries p ys → lookIntoEntries scalars xs ys =
      true → lookIntoEntries scalars ys xs = true
  | [], [], _, _, h => h
  | _ :: _, [], _, _, h | [], _ :: _, _, _, h => by cases h
  | (k, x) :: xs, (l, y) :: ys, hx, hy, h => by
    rw [lookIntoEntries, Bool.and_eq_true, Bool.and_eq_true, beq_iff_eq] at h ⊢
    exact ⟨⟨h.1.1.symm, lookInto_symm apart symm x y hx.1 hy.1 h.1.2⟩,
      lookIntoEntries_symm apart symm xs ys hx.2 hy.2 h.2⟩

end

mutual

/-- Values equal to the same value are equal, if scalars are. -/
theorem lookInto_trans (apart : ∀ a b, scalars a b = true → b.object? = none)
    (trans : ∀ a b c, p a → p b → p c → scalars a b = true → scalars b c = true →
      scalars a c = true) :
    ∀ a b c, a.Everywhere p → b.Everywhere p → c.Everywhere p → lookInto scalars a b = true →
      lookInto scalars b c = true → lookInto scalars a c = true
  | .list _ xs, b, c, ha, hb, hc, h, h' => by
    cases b with
    | list _ ys =>
      cases c with
      | list _ zs => exact lookIntoItems_trans apart trans xs ys zs ha.2 hb.2 hc.2 h h'
      | _ => cases h'
    | _ => cases h
  | .dict _ xs, b, c, ha, hb, hc, h, h' => by
    cases b with
    | dict _ ys =>
      cases c with
      | dict _ zs => exact lookIntoEntries_trans apart trans xs ys zs ha.2 hb.2 hc.2 h h'
      | _ => cases h'
    | _ => cases h
  | .nil, _, _, ha, hb, hc, h, h' | .boolean _, _, _, ha, hb, hc, h, h'
  | .long _, _, _, ha, hb, hc, h, h' | .double _, _, _, ha, hb, hc, h, h'
  | .decimal _, _, _, ha, hb, hc, h, h' | .string _, _, _, ha, hb, hc, h, h'
  | .datetime _, _, _, ha, hb, hc, h, h' | .function .., _, _, ha, hb, hc, h, h' => by
    rw [lookInto_scalar (apart _ _ h)] at h'
    exact trans _ _ _ ha hb.self hc.self h h'

theorem lookIntoItems_trans (apart : ∀ a b, scalars a b = true → b.object? = none)
    (trans : ∀ a b c, p a → p b → p c → scalars a b = true → scalars b c = true →
      scalars a c = true) :
    ∀ xs ys zs, everywhereItems p xs → everywhereItems p ys → everywhereItems p zs →
      lookIntoItems scalars xs ys = true → lookIntoItems scalars ys zs = true →
        lookIntoItems scalars xs zs = true
  | [], [], _, _, _, _, _, h' => h'
  | _ :: _, [], _, _, _, _, h, _ | [], _ :: _, _, _, _, _, h, _ => by cases h
  | _ :: _, _ :: _, [], _, _, _, _, h' => by cases h'
  | x :: xs, y :: ys, z :: zs, hx, hy, hz, h, h' => by
    rw [lookIntoItems, Bool.and_eq_true] at h h' ⊢
    exact ⟨lookInto_trans apart trans x y z hx.1 hy.1 hz.1 h.1 h'.1,
      lookIntoItems_trans apart trans xs ys zs hx.2 hy.2 hz.2 h.2 h'.2⟩

theorem lookIntoEntries_trans (apart : ∀ a b, scalars a b = true → b.object? = none)
    (trans : ∀ a b c, p a → p b → p c → scalars a b = true → scalars b c = true →
      scalars a c = true) :
    ∀ xs ys zs, everywhereEntries p xs → everywhereEntries p ys → everywhereEntries p zs →
      lookIntoEntries scalars xs ys = true → lookIntoEntries scalars ys zs = true →
        lookIntoEntries scalars xs zs = true
  | [], [], _, _, _, _, _, h' => h'
  | _ :: _, [], _, _, _, _, h, _ | [], _ :: _, _, _, _, _, h, _ => by cases h
  | _ :: _, _ :: _, [], _, _, _, _, h' => by cases h'
  | (_, x) :: xs, (_, y) :: ys, (_, z) :: zs, hx, hy, hz, h, h' => by
    rw [lookIntoEntries, Bool.and_eq_true, Bool.and_eq_true, beq_iff_eq] at h h' ⊢
    exact ⟨⟨h.1.1.trans h'.1.1, lookInto_trans apart trans x y z hx.1 hy.1 hz.1 h.1.2 h'.1.2⟩,
      lookIntoEntries_trans apart trans xs ys zs hx.2 hy.2 hz.2 h.2 h'.2⟩

end

section Shortcut

variable {equal : Value → Value → Bool} {equalItems : List Value → List Value → Bool}
  {equalEntries : List (String × Value) → List (String × Value) → Bool}
  {contents : ObjectId → Value}

mutual

/-- **Leaving out a container that is the same object changes nothing**, if scalars equal
themselves. -/
theorem Equality.eq_lookInto (equality : Equality equal equalItems equalEntries scalars)
    (refl : ∀ v, v.object? = none → p v → scalars v v = true) :
    ∀ a b, a.Everywhere p → a.Stored contents → b.Stored contents → equal a b = lookInto scalars a b
  | .list i xs, b, h, ha, hb => by
    by_cases kind : b.ty = .list
    · cases b with
      | list j ys =>
        rw [equality.lists, equality.items_eq_lookInto refl xs ys h.2 ha.2 hb.2]
        by_cases same : i = j
        · have : Value.list i xs = .list j ys := by rw [← ha.1 i rfl, ← hb.1 j rfl, same]
          cases this
          rw [beq_self_eq_true, Bool.true_or]
          exact (lookIntoItems_refl refl xs h.2).symm
        · rw [beq_false_of_ne same]
          rfl
      | _ => cases kind
    · rw [equality.list _ _ _ kind]
      cases b with
      | list => exact absurd rfl kind
      | _ => rfl
  | .dict i xs, b, h, ha, hb => by
    by_cases kind : b.ty = .dict
    · cases b with
      | dict j ys =>
        rw [equality.dicts, equality.entries_eq_lookInto refl xs ys h.2 ha.2 hb.2]
        by_cases same : i = j
        · have : Value.dict i xs = .dict j ys := by rw [← ha.1 i rfl, ← hb.1 j rfl, same]
          cases this
          rw [beq_self_eq_true, Bool.true_or]
          exact (lookIntoEntries_refl refl xs h.2).symm
        · rw [beq_false_of_ne same]
          rfl
      | _ => cases kind
    · rw [equality.dict _ _ _ kind]
      cases b with
      | dict => exact absurd rfl kind
      | _ => rfl
  | .nil, b, _, _, _ | .boolean _, b, _, _, _ | .long _, b, _, _, _ | .double _, b, _, _, _
  | .decimal _, b, _, _, _ | .string _, b, _, _, _ | .datetime _, b, _, _, _
  | .function .., b, _, _, _ => equality.others _ b (by simp [ty]) (by simp [ty])

theorem Equality.items_eq_lookInto (equality : Equality equal equalItems equalEntries scalars)
    (refl : ∀ v, v.object? = none → p v → scalars v v = true) :
    ∀ xs ys, everywhereItems p xs → everywhereItems (fun v => ∀ i, v.object? = some i →
      contents i = v) xs →
      everywhereItems (fun v => ∀ i, v.object? = some i → contents i = v) ys →
      equalItems xs ys = lookIntoItems scalars xs ys
  | [], ys, _, _, _ => equality.noItems ys
  | x :: xs, [], _, _, _ => equality.fewItems x xs
  | x :: xs, y :: ys, h, hx, hy => by
    rw [equality.items, equality.eq_lookInto refl x y h.1 hx.1 hy.1,
      equality.items_eq_lookInto refl xs ys h.2 hx.2 hy.2]
    rfl

theorem Equality.entries_eq_lookInto (equality : Equality equal equalItems equalEntries scalars)
    (refl : ∀ v, v.object? = none → p v → scalars v v = true) :
    ∀ xs ys, everywhereEntries p xs → everywhereEntries (fun v => ∀ i, v.object? = some i →
      contents i = v) xs →
      everywhereEntries (fun v => ∀ i, v.object? = some i → contents i = v) ys →
      equalEntries xs ys = lookIntoEntries scalars xs ys
  | [], ys, _, _, _ => equality.noEntries ys
  | (k, x) :: xs, [], _, _, _ => equality.fewEntries (k, x) xs
  | (k, x) :: xs, (l, y) :: ys, h, hx, hy => by
    rw [equality.entries, equality.eq_lookInto refl x y h.1 hx.1 hy.1,
      equality.entries_eq_lookInto refl xs ys h.2 hx.2 hy.2]
    rfl

end

end Shortcut

end Laws

end CellScript.Value
