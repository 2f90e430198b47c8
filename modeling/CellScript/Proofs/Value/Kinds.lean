import CellScript.Code.Static
import CellScript.Eval.Binary
import CellScript.Eval.Function
import CellScript.Value.Cast
import CellScript.Value.Literal

/-!
# Kinds of values that operators and conversions give

What is known about the kind of a value before evaluation agrees with the values that come out, with
one exception: where a decimal is expected there may be a double, because a decimal meets a double
that is not finite as a double. The value library fails with ordinary exceptions only.

* `Ty.Holds`, `Ty.Admits` — values of a declared type, and of a type known before evaluation
* `Value.binary_admits` — the result of an operator is of the kind that is known for it
* `Value.binaryIn_eq` — the modes of arithmetic make no difference
* `Orderly` — an outcome that is never an internal error
-/

namespace CellScript

namespace Ty

/-- The value may stand in a variable of the type. -/
def Holds (ty : Ty) (v : Value) : Prop := v = .nil ∨ ty = .any ∨ v.ty = ty

/-- The value may be the result of an operation of the type: where a decimal is expected, also a
double. -/
def Admits (ty : Ty) (v : Value) : Prop := ty.Holds v ∨ ty = .decimal ∧ v.ty = .double

theorem Holds.admits {ty : Ty} {v : Value} (h : ty.Holds v) : ty.Admits v := .inl h

theorem holds_nil (ty : Ty) : ty.Holds .nil := .inl rfl

theorem holds_any (v : Value) : any.Holds v := .inr (.inl rfl)

theorem holds_ty (v : Value) : v.ty.Holds v := .inr (.inr rfl)

theorem admits_nil (ty : Ty) : ty.Admits .nil := (holds_nil ty).admits

theorem admits_any (v : Value) : any.Admits v := (holds_any v).admits

theorem admits_ty (v : Value) : v.ty.Admits v := (holds_ty v).admits

/-- A value other than nil leaves little choice for its type. -/
theorem Admits.cases {ty : Ty} {v : Value} (h : ty.Admits v) (some : v.isNil = false) :
    ty = any ∨ ty = v.ty ∨ ty = decimal ∧ v.ty = double := by
  rcases h with (rfl | h | h) | h
  · cases some
  · exact .inl h
  · exact .inr (.inl h.symm)
  · exact .inr (.inr h)

end Ty

/-! ## Outcomes of the value library -/

/-- The exception does not tell of a broken invariant. -/
def Exception.Ordinary (e : Exception) : Prop := e.code ≠ .internalError

namespace Exception

theorem ordinary_of {code : ErrorCode} (message : String) (h : code ≠ .internalError) :
    (of code message).Ordinary := h

theorem Ordinary.orSpan {e : Exception} (h : e.Ordinary) (span : Span) :
    (e.orSpan span).Ordinary := by
  unfold Exception.orSpan
  split <;> exact h

theorem Ordinary.orTrace {e : Exception} (h : e.Ordinary) (trace : List Frame) :
    (e.orTrace trace).Ordinary := by
  unfold Exception.orTrace
  split <;> exact h

end Exception

/-- The outcome is a result or an ordinary exception that no program has thrown. -/
def Orderly {α : Type} (x : Except Exception α) : Prop :=
  ∀ e, x = .error e → e.Ordinary ∧ e.thrown = none

section Orderly

variable {α β : Type}

theorem orderly_ok (a : α) : Orderly (.ok a) := fun _ h => by cases h

theorem orderly_error {e : Exception} (h : e.Ordinary ∧ e.thrown = none) :
    Orderly (.error e : Except Exception α) := by
  rintro _ ⟨⟩
  exact h

/-- Exceptions of the value library have a code of their own. -/
theorem orderly_of {code : ErrorCode} {message : String} (h : code ≠ .internalError) :
    Orderly (.error (.of code message) : Except Exception α) :=
  orderly_error ⟨h, rfl⟩

theorem Orderly.map {x : Except Exception α} (h : Orderly x) (f : α → β) : Orderly (x.map f) := by
  cases x with
  | ok a => exact orderly_ok _
  | error e => exact orderly_error (h e rfl)

theorem Orderly.bind {x : Except Exception α} {f : α → Except Exception β} (h : Orderly x)
    (hf : ∀ a, Orderly (f a)) : Orderly (x >>= f) := by
  cases x with
  | ok a => exact hf a
  | error e => exact orderly_error (h e rfl)

theorem orderly_foldlM {f : β → α → Except Exception β} (h : ∀ b a, Orderly (f b a)) (as : List α)
    (b : β) : Orderly (as.foldlM f b) := by
  induction as generalizing b with
  | nil => exact orderly_ok b
  | cons a rest ih =>
    rw [List.foldlM_cons]
    exact (h b a).bind fun b => ih b

end Orderly

namespace Value

/-! ## Conversions -/

theorem toLong_orderly (v : Value) : Orderly v.toLong := by
  unfold toLong
  split
  · exact orderly_ok _
  · exact orderly_ok _
  · exact orderly_ok _
  · split
    · exact orderly_ok _
    · exact orderly_of (by decide)
  · split
    · exact orderly_ok _
    · exact orderly_of (by decide)
  · exact orderly_of (by decide)

theorem toDouble_orderly (v : Value) : Orderly v.toDouble := by
  unfold toDouble
  split
  · exact orderly_ok _
  · exact orderly_ok _
  · exact orderly_ok _
  · exact orderly_ok _
  · split
    · exact orderly_ok _
    · exact orderly_of (by decide)
  · exact orderly_of (by decide)

theorem toDecimal_orderly (v : Value) : Orderly v.toDecimal := by
  unfold toDecimal
  split
  · exact orderly_ok _
  · exact orderly_ok _
  · exact orderly_ok _
  · exact orderly_ok _
  · split
    · exact orderly_ok _
    · exact orderly_of (by decide)
  · exact orderly_of (by decide)

theorem toInstant_orderly (v : Value) : Orderly v.toInstant := by
  unfold toInstant
  split
  · exact orderly_ok _
  · split
    · exact orderly_ok _
    · exact orderly_of (by decide)
  · exact orderly_of (by decide)

theorem toPlainText_orderly (v : Value) : Orderly v.toPlainText := by
  unfold toPlainText
  split
  · exact orderly_ok _
  · exact orderly_of (by decide)

theorem toItems_orderly (v : Value) : Orderly v.toItems := by
  unfold toItems
  split
  all_goals first | exact orderly_ok _ | exact orderly_of (by decide)

theorem entriesOfItems_orderly (items : List Value) (entries : Entries Value) :
    Orderly (entriesOfItems items entries) := by
  fun_induction entriesOfItems items entries with
  | case1 key value rest entries text h ih => exact ih
  | case2 key value rest entries e h => exact orderly_error (toPlainText_orderly key e h)
  | case3 items entries h => exact orderly_ok _

theorem toEntries_orderly (v : Value) : Orderly v.toEntries := by
  unfold toEntries
  split
  · exact orderly_ok _
  · split
    · exact orderly_of (by decide)
    · exact entriesOfItems_orderly _ _
  · exact orderly_ok _
  · exact orderly_of (by decide)

theorem cast_orderly (fresh : ObjectId) (v : Value) (ty : Ty) : Orderly (v.cast fresh ty) := by
  unfold cast
  split
  · exact orderly_ok _
  · exact orderly_ok _
  · exact orderly_ok _
  · split
    · exact orderly_ok _
    · split
      · exact (toLong_orderly v).map _
      · exact (toDouble_orderly v).map _
      · exact (toDecimal_orderly v).map _
      · exact (toPlainText_orderly v).map _
      · exact (toInstant_orderly v).map _
      · exact (toItems_orderly v).map _
      · exact (toEntries_orderly v).map _
      · exact orderly_of (by decide)

theorem map_eq_ok {α β : Type} {x : Except Exception α} {f : α → β} {b : β}
    (h : x.map f = .ok b) : ∃ a, b = f a := by
  cases x with
  | ok a =>
    cases h
    exact ⟨a, rfl⟩
  | error e => cases h

/-- **A conversion gives a value of the type it converts to, or nil.** -/
theorem cast_holds {fresh : ObjectId} {v w : Value} {ty : Ty} (h : v.cast fresh ty = .ok w) :
    ty.Holds w := by
  unfold cast at h
  split at h
  · exact Ty.holds_any w
  · cases h
    exact Ty.holds_nil _
  · cases h
    exact .inr (.inr rfl)
  · split at h
    · next kept =>
      cases h
      rcases Bool.or_eq_true_iff.mp kept with isNil | same
      · cases v <;> first | exact Ty.holds_nil _ | cases isNil
      · exact .inr (.inr (eq_of_beq same))
    · split at h
      all_goals first
        | (obtain ⟨a, rfl⟩ := map_eq_ok h; exact .inr (.inr rfl))
        | cases h

/-! ## Arithmetic -/

theorem operands_orderly (verb : String) (a b : Value) : Orderly (operands verb a b) := by
  unfold operands
  split
  · split
    · exact orderly_ok _
    · exact orderly_of (by decide)
  · split
    · split
      · exact orderly_ok _
      · split <;> exact orderly_ok _
      · split <;> exact orderly_ok _
      · exact orderly_ok _
    · exact orderly_of (by decide)

/-- What the common kind of two operands says about each of them. -/
def Operands.Of (a b : Value) : Operands → Prop
  | .nil => True
  | .longs _ _ => a.ty = .long ∧ b.ty = .long
  | .doubles _ _ => a.isNumeric = true ∧ b.isNumeric = true ∧ ¬ (a.ty = .long ∧ b.ty = .long)
  | .decimals _ _ => a.isNumeric = true ∧ b.isNumeric = true ∧ (a.ty = .decimal ∨ b.ty = .decimal)

theorem operands_of {verb : String} {a b : Value} {o : Operands} (h : operands verb a b = .ok o) :
    o.Of a b := by
  unfold operands at h
  split at h
  · split at h
    · cases h
      trivial
    · cases h
  · split at h
    · next numeric =>
      obtain ⟨ha, hb⟩ := Bool.and_eq_true_iff.mp numeric
      cases a <;> first | (cases ha; done) | skip
      all_goals cases b <;> first | (cases hb; done) | skip
      all_goals
        simp only at h
        first
          | (cases h; simp [Operands.Of, ty, isNumeric])
          | (split at h <;> cases h <;> simp [Operands.Of, ty, isNumeric])
    · cases h

theorem isNil_of_isNumeric {v : Value} (h : v.isNumeric = true) : v.isNil = false := by
  cases v <;> first | rfl | cases h

theorem isNil_of_ty {v : Value} {ty : Ty} (h : v.ty = ty) (some : ty ≠ .void) :
    v.isNil = false := by
  cases v <;> first | rfl | exact absurd h.symm some

variable {a b v : Value} {s t : Ty}

/-- Two longs are known to be longs or not known at all. -/
theorem numericResult_longs (ha : s.Admits a) (hb : t.Admits b) (o : a.ty = .long ∧ b.ty = .long) :
    Ty.numericResult s t = .any ∨ Ty.numericResult s t = .long := by
  have ha := ha.cases (isNil_of_ty o.1 (by decide))
  have hb := hb.cases (isNil_of_ty o.2 (by decide))
  rw [o.1] at ha
  rw [o.2] at hb
  rcases ha with rfl | rfl | ⟨-, h⟩ <;> rcases hb with rfl | rfl | ⟨-, h'⟩ <;>
    first | exact .inl rfl | exact .inr rfl | cases h | cases h'

/-- The type of arithmetic is never long, unless both operands are known to be longs. -/
theorem numericResult_cases (s t : Ty) : (s = .long ∧ t = .long) ∨ Ty.numericResult s t = .any ∨
    Ty.numericResult s t = .double ∨ Ty.numericResult s t = .decimal := by
  cases s <;> cases t <;> decide

theorem numericResult_doubles (ha : s.Admits a) (hb : t.Admits b) (na : a.isNumeric = true)
    (nb : b.isNumeric = true) (o : ¬ (a.ty = .long ∧ b.ty = .long)) (x : Float) :
    (Ty.numericResult s t).Admits (double x) := by
  rcases numericResult_cases s t with ⟨rfl, rfl⟩ | h | h | h
  · exfalso
    have ha := ha.cases (isNil_of_isNumeric na)
    have hb := hb.cases (isNil_of_isNumeric nb)
    refine o ⟨?_, ?_⟩
    · rcases ha with h | h | ⟨h, -⟩ <;> first | exact h.symm | cases h
    · rcases hb with h | h | ⟨h, -⟩ <;> first | exact h.symm | cases h
  · rw [h]
    exact Ty.admits_any _
  · rw [h]
    exact Ty.admits_ty _
  · rw [h]
    exact .inr ⟨rfl, rfl⟩

theorem numericResult_decimals (ha : s.Admits a) (hb : t.Admits b)
    (o : a.ty = .decimal ∨ b.ty = .decimal) :
    Ty.numericResult s t = .any ∨ Ty.numericResult s t = .decimal := by
  rcases o with o | o
  · have ha := ha.cases (isNil_of_ty o (by decide))
    rw [o] at ha
    rcases ha with rfl | rfl | ⟨-, h⟩
    · exact .inl (by cases t <;> rfl)
    · cases t <;> first | exact .inl rfl | exact .inr rfl
    · cases h
  · have hb := hb.cases (isNil_of_ty o (by decide))
    rw [o] at hb
    rcases hb with rfl | rfl | ⟨-, h⟩
    · exact .inl (by cases s <;> rfl)
    · cases s <;> first | exact .inl rfl | exact .inr rfl
    · cases h

theorem admits_of_cases {ty other : Ty} (h : ty = .any ∨ ty = other) (hv : v.ty = other) :
    ty.Admits v := by
  rcases h with rfl | rfl
  · exact Ty.admits_any v
  · exact hv ▸ Ty.admits_ty v

/-- Sums, differences, products and remainders are of the common kind of their operands. -/
theorem common_admits (ha : s.Admits a) (hb : t.Admits b) {o : Operands} (of : o.Of a b)
    (hv : match o with
      | .nil => v = nil
      | .longs _ _ => v.ty = .long
      | .doubles _ _ => (∃ x, v = double x) ∨ a.ty = .decimal ∧ v.ty = .decimal
      | .decimals _ _ => v.ty = .decimal) :
    (Ty.numericResult s t).Admits v := by
  cases o with
  | nil =>
    subst hv
    exact Ty.admits_nil _
  | longs m n => exact admits_of_cases (numericResult_longs ha hb of) hv
  | doubles x y =>
    rcases hv with ⟨x, rfl⟩ | ⟨kind, hv⟩
    · exact numericResult_doubles ha hb of.1 of.2.1 of.2.2 x
    · exact admits_of_cases (numericResult_decimals ha hb (.inl kind)) hv
  | decimals c d => exact admits_of_cases (numericResult_decimals ha hb of.2.2) hv

/-- Whatever is computed from operands brought to a common kind is of that kind. -/
theorem map_operands_admits {verb : String} {f : Operands → Value} (ha : s.Admits a)
    (hb : t.Admits b) (absent : f .nil = nil) (longs : ∀ m n, (f (.longs m n)).ty = .long)
    (doubles : ∀ x y, ∃ z, f (.doubles x y) = double z)
    (decimals : ∀ c d, (f (.decimals c d)).ty = .decimal)
    (h : (operands verb a b).map f = .ok v) : (Ty.numericResult s t).Admits v := by
  cases ho : operands verb a b with
  | error e =>
    rw [ho] at h
    cases h
  | ok o =>
    rw [ho] at h
    cases h
    refine common_admits ha hb (operands_of ho) ?_
    cases o with
    | nil => exact absent
    | longs m n => exact longs m n
    | doubles x y => exact .inl (doubles x y)
    | decimals c d => exact decimals c d

theorem modDoubles_cases (a b : Value) (x y : Float) :
    (∃ z, modDoubles a b x y = double z) ∨ a.ty = .decimal ∧
      (modDoubles a b x y).ty = .decimal := by
  unfold modDoubles
  split
  · split <;> exact .inl ⟨_, rfl⟩
  · split
    · exact .inr ⟨rfl, rfl⟩
    · exact .inl ⟨_, rfl⟩
  · exact .inl ⟨_, rfl⟩

theorem mod_admits (ha : s.Admits a) (hb : t.Admits b) (h : mod a b = .ok v) :
    (Ty.numericResult s t).Admits v := by
  unfold mod at h
  cases ho : operands "divide" a b with
  | error e =>
    rw [ho] at h
    cases h
  | ok o =>
    rw [ho] at h
    refine common_admits ha hb (operands_of ho) ?_
    cases o with
    | nil =>
      cases h
      rfl
    | longs m n =>
      simp only at h
      split at h
      · cases h
      · cases h
        rfl
    | doubles x y =>
      cases h
      exact modDoubles_cases a b x y
    | decimals c d =>
      simp only at h
      split at h
      · cases h
      · cases h
        rfl

theorem divDoubles_cases (a b : Value) (x y : Float) :
    (∃ z, divDoubles a b x y = double z) ∨ a.ty = .decimal ∧
      (divDoubles a b x y).ty = .decimal := by
  unfold divDoubles
  split
  · split <;> exact .inl ⟨_, rfl⟩
  · split
    · exact .inr ⟨rfl, rfl⟩
    · exact .inl ⟨_, rfl⟩
  · exact .inl ⟨_, rfl⟩

/-- The type of a quotient is a double, unless it is that of other arithmetic with a decimal. -/
theorem binaryType_div_cases (s t : Ty) :
    Code.binaryType .div s t = .any ∨ Code.binaryType .div s t = .double ∨
      Code.binaryType .div s t = .decimal := by
  cases s <;> cases t <;> decide

theorem binaryType_div_double (s t : Ty) (x : Float) :
    (Code.binaryType .div s t).Admits (double x) := by
  rcases binaryType_div_cases s t with h | h | h
  · rw [h]
    exact Ty.admits_any _
  · rw [h]
    exact Ty.admits_ty _
  · rw [h]
    exact .inr ⟨rfl, rfl⟩

theorem binaryType_div_decimal (ha : s.Admits a) (hb : t.Admits b)
    (o : a.ty = .decimal ∨ b.ty = .decimal) :
    Code.binaryType .div s t = .any ∨ Code.binaryType .div s t = .decimal := by
  rcases o with o | o
  · have ha := ha.cases (isNil_of_ty o (by decide))
    rw [o] at ha
    rcases ha with rfl | rfl | ⟨-, h⟩
    · exact .inl (by cases t <;> rfl)
    · cases t <;> first | exact .inl rfl | exact .inr rfl
    · cases h
  · have hb := hb.cases (isNil_of_ty o (by decide))
    rw [o] at hb
    rcases hb with rfl | rfl | ⟨-, h⟩
    · exact .inl (by cases s <;> rfl)
    · cases s <;> first | exact .inl rfl | exact .inr rfl
    · cases h

theorem div_admits (ha : s.Admits a) (hb : t.Admits b) (h : div a b = .ok v) :
    (Code.binaryType .div s t).Admits v := by
  unfold div at h
  cases ho : operands "divide" a b with
  | error e =>
    rw [ho] at h
    cases h
  | ok o =>
    rw [ho] at h
    have of := operands_of ho
    cases o with
    | nil =>
      cases h
      exact Ty.admits_nil _
    | longs m n =>
      cases h
      exact binaryType_div_double s t _
    | doubles x y =>
      cases h
      rcases divDoubles_cases a b x y with ⟨z, hz⟩ | ⟨kind, hz⟩
      · rw [hz]
        exact binaryType_div_double s t z
      · exact admits_of_cases (binaryType_div_decimal ha hb (.inl kind)) hz
    | decimals c d =>
      simp only at h
      split at h
      · cases h
      · cases h
        exact admits_of_cases (binaryType_div_decimal ha hb of.2.2) rfl

theorem intDiv_admits (h : intDiv a b = .ok v) : Ty.long.Admits v := by
  unfold intDiv at h
  split at h
  · obtain ⟨_, rfl⟩ := map_eq_ok h
    exact Ty.admits_nil _
  · split at h
    all_goals first
      | cases h
      | skip
    all_goals
      split at h
      · split at h
        · cases h
        · cases h
          exact Ty.admits_ty _
      · cases h
      · cases h

theorem pow_admits (h : pow a b = .ok v) : Ty.double.Admits v := by
  unfold pow at h
  obtain ⟨o, rfl⟩ := map_eq_ok h
  cases o with
  | nil => exact Ty.admits_nil _
  | longs | doubles | decimals => exact Ty.admits_ty _

theorem concat_admits (h : concat a b = .ok v) : Ty.string.Admits v := by
  unfold concat at h
  split at h
  · cases h
    exact Ty.admits_nil _
  · split at h
    · cases h
      exact Ty.admits_ty _
    · cases h
    · cases h

theorem ordered_admits {accept : Ordering → Bool} (h : ordered accept a b = .ok v) :
    Ty.boolean.Admits v := by
  unfold ordered at h
  obtain ⟨_, rfl⟩ := map_eq_ok h
  exact Ty.admits_ty _

/-- **The result of an operator is of the kind that is known for it before evaluation.** -/
theorem binary_admits {op : BinaryOp} (ha : s.Admits a) (hb : t.Admits b)
    (h : binary op a b = .ok v) :
    (Code.binaryType op s t).Admits v := by
  cases op with
  | add | sub | mul =>
    exact map_operands_admits ha hb rfl (fun _ _ => rfl) (fun _ _ => ⟨_, rfl⟩) (fun _ _ => rfl) h
  | div => exact div_admits ha hb h
  | intDiv => exact intDiv_admits h
  | mod => exact mod_admits ha hb h
  | pow => exact pow_admits h
  | equal | notEqual | identical | notIdentical | and | or =>
    cases h
    exact Ty.admits_ty _
  | less | lessEqual | greater | greaterEqual => exact ordered_admits h
  | concat => exact concat_admits h

/-- A number is negated to a number of its kind. -/
theorem neg_ty (h : neg a = .ok v) : v.ty = a.ty := by
  cases a <;> cases h <;> rfl

theorem unary_admits {op : UnaryOp} (ha : s.Admits a) (h : unary op a = .ok v) :
    (match op with
      | .negate => s
      | .not => .boolean).Admits v := by
  cases op with
  | not =>
    cases h
    exact Ty.admits_ty _
  | negate =>
    have same := neg_ty h
    rcases ha with (rfl | ha | ha) | ha
    · cases h
      exact Ty.admits_nil _
    · exact .inl (.inr (.inl ha))
    · exact .inl (.inr (.inr (same.trans ha)))
    · exact .inr ⟨ha.1, same.trans ha.2⟩

/-! ## Modes -/

theorem computeLongs?_eq {op : BinaryOp} {m n : Int64} (h : computeLongs? op m n = some v) :
    binary op (long m) (long n) = .ok v := by
  cases op <;> cases h <;> rfl

theorem computeDoubles?_eq {op : BinaryOp} {x y : Float} (h : computeDoubles? op x y = some v) :
    binary op (double x) (double y) = .ok v := by
  cases op <;> cases h <;> rfl

/-- **Arithmetic gives the same result in every mode.** -/
theorem binaryIn_eq (mode : Code.NumericMode) (op : BinaryOp) (a b : Value) :
    binaryIn mode op a b = binary op a b := by
  unfold binaryIn
  split
  · next v h =>
    unfold compute? at h
    split at h
    · exact (computeLongs?_eq h).symm
    · exact (computeDoubles?_eq h).symm
    · cases h
  · rfl

/-! ## Operators fail with ordinary exceptions -/

theorem compare?_orderly (a b : Value) : Orderly (compare? a b) := by
  unfold compare?
  split
  · exact orderly_ok _
  · split
    · exact orderly_ok _
    · split
      · exact orderly_ok _
      · exact orderly_ok _
      · exact orderly_of (by decide)

theorem div_orderly (a b : Value) : Orderly (div a b) := by
  unfold div
  cases ho : operands "divide" a b with
  | error e => exact orderly_error (operands_orderly _ a b e ho)
  | ok o =>
    cases o with
    | nil | longs | doubles => exact orderly_ok _
    | decimals c d =>
      simp only
      split
      · exact orderly_of (by decide)
      · exact orderly_ok _

theorem mod_orderly (a b : Value) : Orderly (mod a b) := by
  unfold mod
  cases ho : operands "divide" a b with
  | error e => exact orderly_error (operands_orderly _ a b e ho)
  | ok o =>
    cases o with
    | nil | doubles => exact orderly_ok _
    | longs m n | decimals c d =>
      simp only
      split
      · exact orderly_of (by decide)
      · exact orderly_ok _

theorem intDiv_orderly (a b : Value) : Orderly (intDiv a b) := by
  unfold intDiv
  split
  · exact (operands_orderly _ a b).map _
  · split
    all_goals first
      | exact orderly_of (by decide)
      | skip
    all_goals
      split
      · split
        · exact orderly_of (by decide)
        · exact orderly_ok _
      · next h => exact orderly_error (toLong_orderly _ _ h)
      · next h _ => exact orderly_error (toLong_orderly _ _ h)

theorem concat_orderly (a b : Value) : Orderly (concat a b) := by
  unfold concat
  split
  · exact orderly_ok _
  · split
    · exact orderly_ok _
    · next h => exact orderly_error (toPlainText_orderly _ _ h)
    · next h _ => exact orderly_error (toPlainText_orderly _ _ h)

theorem binary_orderly (op : BinaryOp) (a b : Value) : Orderly (binary op a b) := by
  cases op with
  | add | sub | mul | pow => exact (operands_orderly _ a b).map _
  | div => exact div_orderly a b
  | intDiv => exact intDiv_orderly a b
  | mod => exact mod_orderly a b
  | equal | notEqual | identical | notIdentical | and | or => exact orderly_ok _
  | less | lessEqual | greater | greaterEqual => exact (compare?_orderly a b).map _
  | concat => exact concat_orderly a b

theorem unary_orderly (op : UnaryOp) (v : Value) : Orderly (unary op v) := by
  cases op with
  | not => exact orderly_ok _
  | negate => cases v <;> first | exact orderly_ok _ | exact orderly_of (by decide)

/-! ## Containers and arguments -/

theorem toKey_orderly (v : Value) : Orderly v.toKey := by
  unfold toKey
  split
  · exact orderly_of (by decide)
  · exact toPlainText_orderly v

theorem spreadItems_orderly (v : Value) : Orderly v.spreadItems := by
  cases v <;> first | exact orderly_ok _ | exact orderly_of (by decide)

theorem spreadEntries_orderly (v : Value) : Orderly v.spreadEntries := by
  cases v <;> first | exact orderly_ok _ | exact orderly_of (by decide)

theorem generated_orderly (v : Value) : Orderly v.generated := by
  cases v <;> first | exact orderly_ok _ | exact orderly_of (by decide)

theorem access_orderly (container key : Value) : Orderly (container.access key) := by
  unfold access
  split
  · split
    · exact orderly_ok _
    · exact (toPlainText_orderly key).map _
  · split
    · exact orderly_ok _
    · exact (toLong_orderly key).map _
  · exact orderly_ok _
  · exact orderly_of (by decide)

theorem accessAll_orderly (container : Value) (keys : List Value) :
    Orderly (container.accessAll keys) := by
  induction keys generalizing container with
  | nil => exact orderly_ok _
  | cons key rest ih =>
    rw [accessAll]
    split
    · exact orderly_ok _
    · split
      · exact ih _
      · next h => exact orderly_error (access_orderly _ _ _ h)

theorem ofLiteral_orderly (l : Literal) : Orderly (ofLiteral l) := by
  unfold ofLiteral
  split
  all_goals first
    | exact orderly_ok _
    | (split <;> first | exact orderly_ok _ | exact orderly_of (by decide))

/-- Literals are no functions. -/
theorem ofLiteral_ty {l : Literal} {v : Value} (h : ofLiteral l = .ok v) : v.ty ≠ .function := by
  unfold ofLiteral at h
  split at h
  all_goals first
    | (cases h; exact fun h => by cases h)
    | (split at h <;> cases h <;> exact fun h => by cases h)

end Value

namespace Arguments

theorem bindPosition_orderly (signature : Signature) (args : Arguments) (v : Value) :
    Orderly (args.bindPosition signature v) := by
  unfold bindPosition
  split
  · exact orderly_of (by decide)
  · split
    · exact orderly_ok _
    · exact orderly_of (by decide)

theorem bindName_orderly (signature : Signature) (args : Arguments) (name : String) (v : Value) :
    Orderly (args.bindName signature name v) := by
  unfold bindName
  split
  · exact orderly_ok _
  · exact orderly_of (by decide)

theorem bind_orderly (signature : Signature) (args : Arguments) (arg : CallArgument) :
    Orderly (args.bind signature arg) := by
  unfold bind
  split
  · exact bindPosition_orderly signature args _
  · exact bindName_orderly signature args _ _
  · exact orderly_ok _
  · exact orderly_foldlM (fun args v => bindPosition_orderly signature args v) _ _
  · exact orderly_foldlM (fun args (entry : String × Value) =>
      bindName_orderly signature args entry.1 entry.2) _ _
  · exact orderly_of (by decide)

end Arguments

theorem FunctionObject.bind_orderly (f : FunctionObject) (args : List CallArgument) :
    Orderly (f.bind args) :=
  (orderly_foldlM (fun bound arg => Arguments.bind_orderly f.signature bound arg) _ _).bind
    fun _ => orderly_ok _

end CellScript
