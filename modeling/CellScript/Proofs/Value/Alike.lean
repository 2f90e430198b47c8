import CellScript.Proofs.Value.Kinds

/-!
# Values alike

Two evaluations of one operation create their own lists, dictionaries and functions. Their values
are alike if they differ in the identities of what was created and in nothing else. The value
library treats alike values alike. Only equality looks at identities, so that for equality they must
correspond one to one.

* `Value.Alike` — values that differ in identities only
* `Value.cast_alike`, `Value.binaryIn_alike`, `Value.unary_alike` — conversions and operators
* `Value.Alike.equals`, `Value.Alike.identical` — equality, when identities correspond one to one
-/

namespace CellScript

/-- Which identities of objects and functions stand for each other. -/
structure Identities where
  objects : ObjectId → ObjectId → Prop
  functions : FunctionId → FunctionId → Prop

/-- Identities stand for each other one to one. -/
structure Identities.OneToOne (I : Identities) : Prop where
  objects : ∀ {i i' j j' : ObjectId}, I.objects i j → I.objects i' j' → (i = i' ↔ j = j')
  functions : ∀ {f f' g g' : FunctionId}, I.functions f g → I.functions f' g' → (f = f' ↔ g = g')

/-- Both outcomes are results that are related, or both the same exception. -/
inductive BothEnd {α β : Type} (R : α → β → Prop) : Except Exception α → Except Exception β → Prop
  | ok {v : α} {w : β} (h : R v w) : BothEnd R (.ok v) (.ok w)
  | error (e : Exception) : BothEnd R (.error e) (.error e)

section BothEnd

variable {α β γ δ : Type} {R : α → β → Prop} {S : γ → δ → Prop}

theorem BothEnd.map {x : Except Exception α} {y : Except Exception β} (h : BothEnd R x y)
    {f : α → γ} {g : β → δ} (hf : ∀ v w, R v w → S (f v) (g w)) :
    BothEnd S (x.map f) (y.map g) := by
  cases h with
  | ok h => exact .ok (hf _ _ h)
  | error e => exact .error e

/-- The same outcome twice. -/
theorem BothEnd.same {R : α → α → Prop} (refl : ∀ v, R v v) (x : Except Exception α) :
    BothEnd R x x := by
  cases x with
  | ok v => exact .ok (refl v)
  | error e => exact .error e

end BothEnd

/-- More identities stand for each other. -/
structure Identities.Le (I J : Identities) : Prop where
  objects : ∀ i j, I.objects i j → J.objects i j
  functions : ∀ f g, I.functions f g → J.functions f g

namespace Value

/-- The value has no identity. -/
def IsScalar : Value → Prop
  | list .. | dict .. | function .. => False
  | _ => True

section Relation

variable (I : Identities)

mutual

/-- The values differ in identities that stand for each other, and in nothing else. -/
inductive Alike : Value → Value → Prop
  | scalar {v : Value} (h : v.IsScalar) : Alike v v
  | list {i j : ObjectId} {xs ys : List Value} (same : I.objects i j) (items : AlikeItems xs ys) :
      Alike (.list i xs) (.list j ys)
  | dict {i j : ObjectId} {xs ys : List (String × Value)} (same : I.objects i j)
      (entries : AlikeEntries xs ys) : Alike (.dict i xs) (.dict j ys)
  | function {f g : FunctionId} (s : Signature) (same : I.functions f g) :
      Alike (.function f s) (.function g s)

inductive AlikeItems : List Value → List Value → Prop
  | nil : AlikeItems [] []
  | cons {v w : Value} {xs ys : List Value} (first : Alike v w) (rest : AlikeItems xs ys) :
      AlikeItems (v :: xs) (w :: ys)

inductive AlikeEntries : List (String × Value) → List (String × Value) → Prop
  | nil : AlikeEntries [] []
  | cons {v w : Value} {xs ys : List (String × Value)} (key : String) (first : Alike v w)
      (rest : AlikeEntries xs ys) : AlikeEntries ((key, v) :: xs) ((key, w) :: ys)

end

end Relation

variable {I : Identities} {v w a b a' b' : Value} {xs ys xs' ys' : List Value}
  {es fs es' fs' : Entries Value}

mutual

/-- Alike values stay alike when more identities stand for each other. -/
theorem Alike.mono {I J : Identities} (le : I.Le J) : ∀ {v w : Value}, Alike I v w → Alike J v w
  | _, _, .scalar h => .scalar h
  | _, _, .list same items => .list (le.objects _ _ same) (items.mono le)
  | _, _, .dict same entries => .dict (le.objects _ _ same) (entries.mono le)
  | _, _, .function s same => .function s (le.functions _ _ same)

theorem AlikeItems.mono {I J : Identities} (le : I.Le J) :
    ∀ {xs ys : List Value}, AlikeItems I xs ys → AlikeItems J xs ys
  | _, _, .nil => .nil
  | _, _, .cons first rest => .cons (first.mono le) (rest.mono le)

theorem AlikeEntries.mono {I J : Identities} (le : I.Le J) :
    ∀ {xs ys : List (String × Value)}, AlikeEntries I xs ys → AlikeEntries J xs ys
  | _, _, .nil => .nil
  | _, _, .cons key first rest => .cons key (first.mono le) (rest.mono le)

end

/-! ## What is the same about alike values -/

theorem Alike.isNil (h : Alike I v w) : v.isNil = w.isNil := by cases h <;> rfl

theorem Alike.ty (h : Alike I v w) : v.ty = w.ty := by cases h <;> rfl

theorem Alike.plainText? (h : Alike I v w) : v.plainText? = w.plainText? := by cases h <;> rfl

theorem Alike.truthy (h : Alike I v w) : v.truthy = w.truthy := by
  cases h with
  | scalar => rfl
  | list _ items => cases items <;> rfl
  | dict _ entries => cases entries <;> rfl
  | function => rfl

/-- A value of a kind without identities is alike to itself only. -/
theorem Alike.eq (h : Alike I v w) (scalar : v.IsScalar) : v = w := by
  cases h with
  | scalar => rfl
  | _ => cases scalar

/-- The exceptions about kinds of values are the same. -/
theorem Alike.cannotCast (h : Alike I v w) (ty : Ty) :
    Exception.cannotCast v ty = Exception.cannotCast w ty := by
  rw [Exception.cannotCast, Exception.cannotCast, h.ty]

theorem Alike.toPlainText (h : Alike I v w) : v.toPlainText = w.toPlainText := by
  rw [Value.toPlainText, Value.toPlainText, h.plainText?, h.cannotCast]

theorem Alike.toKey (h : Alike I v w) : v.toKey = w.toKey := by
  rw [Value.toKey, Value.toKey, h.isNil, h.toPlainText]

theorem Alike.isOf (h : Alike I v w) (ty : Ty) : v.isOf ty = w.isOf ty := by
  rw [Value.isOf, Value.isOf, h.ty]

theorem Alike.toLong (h : Alike I v w) : v.toLong = w.toLong := by cases h <;> rfl

theorem Alike.toDouble (h : Alike I v w) : v.toDouble = w.toDouble := by cases h <;> rfl

theorem Alike.toDecimal (h : Alike I v w) : v.toDecimal = w.toDecimal := by cases h <;> rfl

theorem Alike.toInstant (h : Alike I v w) : v.toInstant = w.toInstant := by cases h <;> rfl

/-! ## Containers -/

theorem AlikeItems.append (h : AlikeItems I xs ys) (h' : AlikeItems I xs' ys') :
    AlikeItems I (xs ++ xs') (ys ++ ys') := by
  induction xs generalizing ys with
  | nil =>
    cases h
    exact h'
  | cons v xs ih =>
    cases h with
    | cons first rest => exact .cons first (ih rest)

theorem AlikeItems.length (h : AlikeItems I xs ys) : xs.length = ys.length := by
  induction xs generalizing ys with
  | nil =>
    cases h
    rfl
  | cons v xs ih =>
    cases h with
    | cons _ rest => exact congrArg (· + 1) (ih rest)

theorem AlikeEntries.insert (h : AlikeEntries I es fs) (key : String) (first : Alike I v w) :
    AlikeEntries I (es.insert key v) (fs.insert key w) := by
  induction es generalizing fs with
  | nil =>
    cases h
    exact .cons key first .nil
  | cons entry es ih =>
    cases h with
    | cons other there rest =>
      rw [Entries.insert, Entries.insert]
      split
      · exact .cons key first (.cons other there rest)
      · split
        · exact .cons key first rest
        · exact .cons other there (ih rest)

theorem AlikeEntries.merge (h : AlikeEntries I es fs) (h' : AlikeEntries I es' fs') :
    AlikeEntries I (es.merge es') (fs.merge fs') := by
  induction es' generalizing es fs fs' with
  | nil =>
    cases h'
    exact h
  | cons entry es' ih =>
    cases h' with
    | cons key first rest =>
      show AlikeEntries I ((es.insert key _).merge _) ((fs.insert key _).merge _)
      exact ih (h.insert key first) rest

/-- A list of scalars. -/
theorem alikeItems_of_scalars (scalars : ∀ v ∈ xs, v.IsScalar) : AlikeItems I xs xs := by
  induction xs with
  | nil => exact .nil
  | cons v rest ih =>
    rw [List.forall_mem_cons] at scalars
    exact .cons (.scalar scalars.1) (ih scalars.2)

/-- Entries of scalars. -/
theorem alikeEntries_of_scalars (scalars : ∀ entry ∈ es, entry.2.IsScalar) :
    AlikeEntries I es es := by
  induction es with
  | nil => exact .nil
  | cons entry rest ih =>
    rw [List.forall_mem_cons] at scalars
    exact .cons entry.1 (.scalar scalars.1) (ih scalars.2)

theorem spreadItems_alike (h : Alike I v w) :
    BothEnd (AlikeItems I) v.spreadItems w.spreadItems := by
  cases h with
  | @scalar v scalar =>
    cases v with
    | nil => exact .ok .nil
    | list | dict | function => cases scalar
    | _ => exact .error _
  | list _ items => exact .ok items
  | _ => exact .error _

theorem spreadEntries_alike (h : Alike I v w) :
    BothEnd (AlikeEntries I) v.spreadEntries w.spreadEntries := by
  cases h with
  | @scalar v scalar =>
    cases v with
    | nil => exact .ok .nil
    | list | dict | function => cases scalar
    | _ => exact .error _
  | dict _ entries => exact .ok entries
  | _ => exact .error _

/-! ## Conversions -/

theorem AlikeEntries.itemsOfEntries (h : AlikeEntries I es fs) :
    AlikeItems I (Value.itemsOfEntries es) (Value.itemsOfEntries fs) := by
  induction es generalizing fs with
  | nil =>
    cases h
    exact .nil
  | cons entry es ih =>
    cases h with
    | cons key first rest => exact .cons (.scalar trivial) (.cons first (ih rest))

theorem toItems_alike (h : Alike I v w) : BothEnd (AlikeItems I) v.toItems w.toItems := by
  cases h with
  | @scalar v scalar =>
    cases v with
    | string s =>
      refine .ok (alikeItems_of_scalars fun v mem => ?_)
      obtain ⟨c, -, rfl⟩ := List.mem_map.mp mem
      trivial
    | list | dict | function => cases scalar
    | _ => exact .error _
  | list _ items => exact .ok items
  | dict _ entries => exact .ok entries.itemsOfEntries
  | function => exact .error _

theorem entriesOfItems_alike (h : AlikeItems I xs ys) (h' : AlikeEntries I es fs) :
    BothEnd (AlikeEntries I) (entriesOfItems xs es) (entriesOfItems ys fs) := by
  induction xs, es using entriesOfItems.induct generalizing ys fs with
  | case1 es key value rest text ht ih =>
    cases h with
    | cons first more =>
      cases more with
      | cons second more =>
        rw [entriesOfItems, entriesOfItems, ← first.toPlainText, ht]
        exact ih more (h'.insert _ second)
  | case2 es key value rest e ht =>
    cases h with
    | cons first more =>
      cases more with
      | cons second more =>
        rw [entriesOfItems, entriesOfItems, ← first.toPlainText, ht]
        exact .error e
  | case3 xs es few => 
    cases h with
    | nil => exact .ok h'
    | cons first more =>
      cases more with
      | nil => exact .ok h'
      | cons => exact (few _ _ _ rfl).elim

theorem toEntries_alike (h : Alike I v w) : BothEnd (AlikeEntries I) v.toEntries w.toEntries := by
  cases h with
  | @scalar v scalar =>
    cases v with
    | datetime t =>
      -- All that can be asked of an instant are numbers and texts.
      refine .ok (AlikeEntries.nil.merge (alikeEntries_of_scalars fun entry mem => ?_))
      simp only [List.mem_cons, List.not_mem_nil, or_false] at mem
      rcases mem with rfl | rfl | rfl | rfl | rfl | rfl | rfl | rfl | rfl | rfl | rfl | rfl <;>
        trivial
    | list | dict | function => cases scalar
    | _ => exact .error _
  | list _ items =>
    rw [toEntries, toEntries, items.length]
    split
    · exact .error _
    · exact entriesOfItems_alike items .nil
  | dict _ entries => exact .ok entries
  | function => exact .error _

/-- **Conversions treat alike values alike.** -/
theorem cast_alike (h : Alike I v w) {i j : ObjectId} (same : I.objects i j) (ty : Ty) :
    BothEnd (Alike I) (v.cast i ty) (w.cast j ty) := by
  have scalars : ∀ {α : Type} {f : α → Value} (x : Except Exception α), (∀ a, (f a).IsScalar) →
      BothEnd (Alike I) (x.map f) (x.map f) := fun x scalar =>
    (BothEnd.same (fun _ => rfl) x).map fun _ _ same => same ▸ .scalar (scalar _)
  unfold cast
  split
  · exact .ok h
  · exact .ok (.scalar trivial)
  · rw [h.truthy]
    exact .ok (.scalar trivial)
  · rw [h.isNil, h.ty]
    split
    · exact .ok h
    · split
      · rw [h.toLong]
        exact scalars _ fun _ => trivial
      · rw [h.toDouble]
        exact scalars _ fun _ => trivial
      · rw [h.toDecimal]
        exact scalars _ fun _ => trivial
      · rw [h.toPlainText]
        exact scalars _ fun _ => trivial
      · rw [h.toInstant]
        exact scalars _ fun _ => trivial
      · exact (toItems_alike h).map fun _ _ items => .list same items
      · exact (toEntries_alike h).map fun _ _ entries => .dict same entries
      · rw [h.cannotCast]
        exact .error _

/-! ## Operators -/

theorem divDoubles_scalar (a b : Value) (x y : Float) : (divDoubles a b x y).IsScalar := by
  unfold divDoubles
  repeat' split
  all_goals trivial

theorem modDoubles_scalar {a b : Value} (ha : a.IsScalar) (x y : Float) :
    (modDoubles a b x y).IsScalar := by
  unfold modDoubles
  repeat' split
  all_goals first | exact ha | trivial

/-- Arithmetic gives scalars. -/
theorem arithmetic_scalar {op : BinaryOp} (arithmetic : op.isArithmetic = true) (ha : a.IsScalar)
    (h : binary op a b = .ok v) : v.IsScalar := by
  cases op with
  | add | sub | mul | pow =>
    obtain ⟨o, rfl⟩ := map_eq_ok h
    cases o <;> trivial
  | div =>
    rw [binary, div] at h
    split at h
    · cases h
    · cases h
      trivial
    · cases h
      trivial
    · cases h
      exact divDoubles_scalar ..
    · split at h
      · cases h
      · cases h
        trivial
  | mod =>
    rw [binary, mod] at h
    split at h
    · cases h
    · cases h
      trivial
    · split at h
      · cases h
      · cases h
        trivial
    · cases h
      exact modDoubles_scalar ha ..
    · split at h
      · cases h
      · cases h
        trivial
  | intDiv =>
    rcases intDiv_admits h with (rfl | h | h) | ⟨h, -⟩
    · trivial
    · cases h
    · cases v <;> trivial
    · cases h
  | _ => cases arithmetic

/-- The value is a number or nil. -/
def IsOperand (v : Value) : Prop := v.isNil = true ∨ v.isNumeric = true

/-- Arithmetic on anything but numbers and nil is an error that tells of kinds only. -/
theorem arithmetic_fails (op : BinaryOp) (arithmetic : op.isArithmetic = true) :
    ∃ verb, ∀ a b : Value,
    ¬ (a.IsOperand ∧ b.IsOperand) → binary op a b = .error (.wrongOperands verb a b) := by
  have fails : ∀ verb a b, ¬ (a.IsOperand ∧ b.IsOperand) →
      operands verb a b = .error (.wrongOperands verb a b) := by
    intro verb a b h
    cases ha : a.isNil <;> cases hb : b.isNil <;> cases hn : a.isNumeric <;>
      cases hm : b.isNumeric <;>
      simp_all [operands, IsOperand]
  cases op with
  | add => exact ⟨_, fun a b h => by rw [binary, add, fails _ a b h]; rfl⟩
  | sub => exact ⟨_, fun a b h => by rw [binary, sub, fails _ a b h]; rfl⟩
  | mul => exact ⟨_, fun a b h => by rw [binary, mul, fails _ a b h]; rfl⟩
  | pow => exact ⟨_, fun a b h => by rw [binary, pow, fails _ a b h]; rfl⟩
  | div => exact ⟨_, fun a b h => by rw [binary, div, fails _ a b h]⟩
  | mod => exact ⟨_, fun a b h => by rw [binary, mod, fails _ a b h]⟩
  | intDiv =>
    refine ⟨"integer-divide", fun a b h => ?_⟩
    rw [binary]
    unfold intDiv
    rw [fails _ a b h]
    split
    · rfl
    · split
      all_goals first | rfl | exact absurd ⟨.inr rfl, .inr rfl⟩ h
  | _ => cases arithmetic

theorem neg_alike (h : Alike I v w) : BothEnd (Alike I) v.neg w.neg := by
  cases h with
  | @scalar v scalar =>
    cases v with
    | nil | long | double | decimal => exact .ok (.scalar trivial)
    | list | dict | function => cases scalar
    | _ => exact .error _
  | _ => exact .error _

/-- **Unary operators treat alike values alike.** -/
theorem unary_alike (op : UnaryOp) (h : Alike I v w) :
    BothEnd (Alike I) (unary op v) (unary op w) := by
  cases op with
  | negate => exact neg_alike h
  | not =>
    rw [unary, unary, h.truthy]
    exact .ok (.scalar trivial)

theorem Alike.scalar_of_operand (h : Alike I v w) (operand : v.IsOperand) : v.IsScalar := by
  cases h with
  | scalar h => exact h
  | _ => rcases operand with h | h <;> cases h

theorem Alike.isOperand (h : Alike I v w) : v.IsOperand ↔ w.IsOperand := by
  rw [IsOperand, IsOperand, h.isNil, isNumeric_eq_ty_isNumeric, isNumeric_eq_ty_isNumeric, h.ty]

theorem arithmetic_alike {op : BinaryOp} (arithmetic : op.isArithmetic = true) (left : Alike I a a')
    (right : Alike I b b') : BothEnd (Alike I) (binary op a b) (binary op a' b') := by
  by_cases operands : a.IsOperand ∧ b.IsOperand
  · have ha := left.scalar_of_operand operands.1
    obtain rfl := left.eq ha
    obtain rfl := right.eq (right.scalar_of_operand operands.2)
    cases h : binary op a b with
    | error e => exact .error e
    | ok v => exact .ok (.scalar (arithmetic_scalar arithmetic ha h))
  · obtain ⟨verb, fails⟩ := arithmetic_fails op arithmetic
    rw [fails a b operands, fails a' b' (by rwa [← left.isOperand, ← right.isOperand]),
      Exception.wrongOperands, Exception.wrongOperands, left.ty, right.ty]
    exact .error _

theorem compare?_alike (left : Alike I a a') (right : Alike I b b') :
    compare? a b = compare? a' b' := by
  have wrong : Exception.cannotCompare a b = Exception.cannotCompare a' b' := by
    rw [Exception.cannotCompare, Exception.cannotCompare, left.ty, right.ty]
  cases left with
  | scalar h =>
    cases right with
    | scalar => rfl
    | _ => cases a <;> rfl
  | _ =>
    cases right with
    | scalar => cases b <;> rfl
    | _ => rfl

theorem ordered_alike (accept : Ordering → Bool) (left : Alike I a a') (right : Alike I b b') :
    BothEnd (Alike I) (ordered accept a b) (ordered accept a' b') := by
  rw [ordered, ordered, compare?_alike left right]
  exact (BothEnd.same (fun _ => rfl) _).map fun _ _ same => same ▸ .scalar trivial

theorem concat_alike (left : Alike I a a') (right : Alike I b b') :
    BothEnd (Alike I) (concat a b) (concat a' b') := by
  rw [concat, concat, left.isNil, right.isNil, left.toPlainText, right.toPlainText]
  split
  · exact .ok (.scalar trivial)
  · split
    · exact .ok (.scalar trivial)
    · exact .error _
    · exact .error _

/-! ## Equality -/

/-- What `==` and `===` have in common: containers that are not the same object are looked into. -/
structure Equality (equal : Value → Value → Bool) (equalItems : List Value → List Value → Bool)
    (equalEntries : List (String × Value) → List (String × Value) → Bool)
    (scalars : Value → Value → Bool) : Prop where
  lists : ∀ i j xs ys, equal (.list i xs) (.list j ys) = (i == j || equalItems xs ys)
  list : ∀ i xs b, b.ty ≠ .list → equal (.list i xs) b = false
  dicts : ∀ i j xs ys, equal (.dict i xs) (.dict j ys) = (i == j || equalEntries xs ys)
  dict : ∀ i xs b, b.ty ≠ .dict → equal (.dict i xs) b = false
  others : ∀ a b, a.ty ≠ .list → a.ty ≠ .dict → equal a b = scalars a b
  noItems : ∀ ys, equalItems [] ys = ys.isEmpty
  fewItems : ∀ x xs, equalItems (x :: xs) [] = false
  items : ∀ x y xs ys, equalItems (x :: xs) (y :: ys) = (equal x y && equalItems xs ys)
  noEntries : ∀ ys, equalEntries [] ys = ys.isEmpty
  fewEntries : ∀ x xs, equalEntries (x :: xs) [] = false
  entries : ∀ k l x y xs ys, equalEntries ((k, x) :: xs) ((l, y) :: ys) =
    (k == l && equal x y && equalEntries xs ys)

theorem equality_identical [Decimal.Library] [Instant.Library] :
    Equality identical identicalItems identicalEntries identicalScalars where
  lists _ _ _ _ := by rw [identical]
  list i xs b h := by cases b <;> first | rfl | exact absurd rfl h
  dicts _ _ _ _ := by rw [identical]
  dict i xs b h := by cases b <;> first | rfl | exact absurd rfl h
  others a b h h' := by cases a <;> first | rfl | exact absurd rfl h | exact absurd rfl h'
  noItems _ := by rw [identicalItems]
  fewItems _ _ := by rw [identicalItems]
  items _ _ _ _ := by rw [identicalItems]
  noEntries _ := by rw [identicalEntries]
  fewEntries _ _ := by rw [identicalEntries]
  entries _ _ _ _ _ _ := by rw [identicalEntries]

theorem equality_equals [Decimal.Library] [Instant.Library] :
    Equality equals equalItems equalEntries equalScalars where
  lists _ _ _ _ := by rw [equals]
  list i xs b h := by cases b <;> first | rfl | exact absurd rfl h
  dicts _ _ _ _ := by rw [equals]
  dict i xs b h := by cases b <;> first | rfl | exact absurd rfl h
  others a b h h' := by cases a <;> first | rfl | exact absurd rfl h | exact absurd rfl h'
  noItems _ := by rw [equalItems]
  fewItems _ _ := by rw [equalItems]
  items _ _ _ _ := by rw [equalItems]
  noEntries _ := by rw [equalEntries]
  fewEntries _ _ := by rw [equalEntries]
  entries _ _ _ _ _ _ := by rw [equalEntries]

theorem identicalScalars_alike (one : I.OneToOne) (left : Alike I a a') (right : Alike I b b') :
    identicalScalars a b = identicalScalars a' b' := by
  cases left with
  | @scalar a ha =>
    cases right with
    | scalar => rfl
    | _ => cases a <;> first | rfl | cases ha
  | function s same =>
    cases right with
    | @scalar b hb => cases b <;> first | rfl | cases hb
    | function s' same' =>
      show (_ == _) = (_ == _)
      rw [Bool.eq_iff_iff, beq_iff_eq, beq_iff_eq]
      exact one.functions same same'
    | _ => rfl
  | _ =>
    cases right with
    | scalar => cases b <;> rfl
    | _ => rfl

theorem equalScalars_alike (one : I.OneToOne) (left : Alike I a a') (right : Alike I b b') :
    equalScalars a b = equalScalars a' b' := by
  rw [equalScalars, equalScalars, identicalScalars_alike one left right]
  cases left with
  | @scalar a ha =>
    cases right with
    | scalar => rfl
    | _ => simp [isNumeric]
  | _ => simp [isNumeric]

section Equality

variable {equal : Value → Value → Bool} {equalItems : List Value → List Value → Bool}
  {equalEntries : List (String × Value) → List (String × Value) → Bool}
  {scalars : Value → Value → Bool}

theorem Equality.others_alike (equality : Equality equal equalItems equalEntries scalars)
    (same : ∀ a a' b b', Alike I a a' → Alike I b b' → scalars a b = scalars a' b')
    (h : a.ty ≠ .list) (h' : a.ty ≠ .dict) (left : Alike I a a') (right : Alike I b b') :
    equal a b = equal a' b' := by
  rw [equality.others a b h h', equality.others a' b' (left.ty ▸ h) (left.ty ▸ h'),
    same _ _ _ _ left right]

mutual

/-- **Equality sees no difference where identities stand for each other one to one.** -/
theorem Equality.alike (equality : Equality equal equalItems equalEntries scalars)
    (one : I.OneToOne) (same : ∀ a a' b b', Alike I a a' → Alike I b b' →
      scalars a b = scalars a' b') :
    ∀ a {a' b b' : Value}, Alike I a a' → Alike I b b' → equal a b = equal a' b'
  | .list i xs, _, b, b', .list known items, right => by
    by_cases h : b.ty = .list
    · cases right with
      | list known' items' =>
        rw [equality.lists, equality.lists, equality.items_alike one same xs items items',
          Bool.eq_iff_iff, Bool.or_eq_true, Bool.or_eq_true, beq_iff_eq, beq_iff_eq,
          one.objects known known']
      | @scalar b hb => cases b <;> first | exact False.elim hb | cases h
      | _ => cases h
    · rw [equality.list _ _ _ h, equality.list _ _ _ (right.ty ▸ h)]
  | .dict i xs, _, b, b', .dict known entries, right => by
    by_cases h : b.ty = .dict
    · cases right with
      | dict known' entries' =>
        rw [equality.dicts, equality.dicts, equality.entries_alike one same xs entries entries',
          Bool.eq_iff_iff, Bool.or_eq_true, Bool.or_eq_true, beq_iff_eq, beq_iff_eq,
          one.objects known known']
      | @scalar b hb => cases b <;> first | exact False.elim hb | cases h
      | _ => cases h
    · rw [equality.dict _ _ _ h, equality.dict _ _ _ (right.ty ▸ h)]
  | .nil, _, _, _, left, right
  | .boolean _, _, _, _, left, right
  | .long _, _, _, _, left, right
  | .double _, _, _, _, left, right
  | .decimal _, _, _, _, left, right
  | .string _, _, _, _, left, right
  | .datetime _, _, _, _, left, right
  | .function _ _, _, _, _, left, right =>
    equality.others_alike same (by simp [ty]) (by simp [ty]) left right

theorem Equality.items_alike (equality : Equality equal equalItems equalEntries scalars)
    (one : I.OneToOne) (same : ∀ a a' b b', Alike I a a' → Alike I b b' →
      scalars a b = scalars a' b') :
    ∀ xs {xs' ys ys' : List Value}, AlikeItems I xs xs' → AlikeItems I ys ys' →
      equalItems xs ys = equalItems xs' ys'
  | [], _, _, _, .nil, right => by
    rw [equality.noItems, equality.noItems]
    cases right <;> rfl
  | x :: xs, _, _, _, .cons first rest, right => by
    cases right with
    | nil => rw [equality.fewItems, equality.fewItems]
    | cons first' rest' =>
      rw [equality.items, equality.items, equality.alike one same x first first',
        equality.items_alike one same xs rest rest']

theorem Equality.entries_alike (equality : Equality equal equalItems equalEntries scalars)
    (one : I.OneToOne) (same : ∀ a a' b b', Alike I a a' → Alike I b b' →
      scalars a b = scalars a' b') :
    ∀ xs {xs' ys ys' : List (String × Value)}, AlikeEntries I xs xs' → AlikeEntries I ys ys' →
      equalEntries xs ys = equalEntries xs' ys'
  | [], _, _, _, .nil, right => by
    rw [equality.noEntries, equality.noEntries]
    cases right <;> rfl
  | (k, x) :: xs, _, _, _, .cons _ first rest, right => by
    cases right with
    | nil => rw [equality.fewEntries, equality.fewEntries]
    | cons l first' rest' =>
      rw [equality.entries, equality.entries, equality.alike one same x first first',
        equality.entries_alike one same xs rest rest']

end

end Equality

theorem Alike.equals (one : I.OneToOne) (left : Alike I a a') (right : Alike I b b') :
    a.equals b = a'.equals b' :=
  equality_equals.alike one (fun _ _ _ _ => equalScalars_alike one) a left right

theorem Alike.identical (one : I.OneToOne) (left : Alike I a a') (right : Alike I b b') :
    a.identical b = a'.identical b' :=
  equality_identical.alike one (fun _ _ _ _ => identicalScalars_alike one) a left right

/-- **Operators treat alike values alike**, if identities stand for each other one to one or the
operator does not look at them. -/
theorem binary_alike (op : BinaryOp)
    (one : op ∈ [.equal, .notEqual, .identical, .notIdentical] → I.OneToOne) (left : Alike I a a')
    (right : Alike I b b') : BothEnd (Alike I) (binary op a b) (binary op a' b') := by
  cases op with
  | equal | notEqual =>
    rw [binary, binary, left.equals (one (by simp)) right]
    exact .ok (.scalar trivial)
  | identical | notIdentical =>
    rw [binary, binary, left.identical (one (by simp)) right]
    exact .ok (.scalar trivial)
  | less | lessEqual | greater | greaterEqual => exact ordered_alike _ left right
  | and | or =>
    rw [binary, binary, left.truthy, right.truthy]
    exact .ok (.scalar trivial)
  | concat => exact concat_alike left right
  | _ => exact arithmetic_alike rfl left right

end Value

end CellScript
