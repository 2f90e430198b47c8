import CellScript.Library
import CellScript.Proofs.Decimal.Number
import Mathlib.Data.Prod.Lex

/-!
# What the libraries promise

The documentation of the two libraries, as laws about the numbers that decimals stand for and the
places in time that instants denote. Nothing is said about how the library compares two decimals for
equality, except that every decimal equals itself and that the order of the two does not matter. The
libraries that programs run with keep the laws.

* `Decimal.LawfulOrder` — equality and order of decimals
* `Decimal.LawfulForms` — other forms of the same number
* `Decimal.LawfulArithmetic` — the operations, on the numbers
* `Instant.LawfulLibrary` — equality and order of instants
-/

namespace CellScript

namespace Decimal

/-- Equality of decimals is reflexive and symmetric, and their order is that of the numbers. -/
class LawfulOrder [Library] : Prop where
  equal_self : ∀ d : Decimal, Library.equal d d = true
  equal_comm : ∀ a b : Decimal, Library.equal a b = Library.equal b a
  cmp_eq : ∀ a b : Decimal, Library.cmp a b = compare a.toRat b.toRat

/-- More fraction digits leave the number as it is, and so does dropping the zeros at the end, of
which none is left. -/
class LawfulForms [Library] : Prop where
  scale_withScale : ∀ (d : Decimal) (scale : Int), (Library.withScale d scale).scale = scale
  toRat_withScale : ∀ (d : Decimal) (scale : Int), d.scale ≤ scale →
    (Library.withScale d scale).toRat = d.toRat
  toRat_normalized : ∀ d : Decimal, (Library.normalized d).toRat = d.toRat
  normalized_shortest : ∀ d b : Decimal, d.unscaled ≠ 0 → b.toRat = d.toRat →
    (Library.normalized d).scale ≤ b.scale

/-- The operations are exact. Scales are added up in 64 bits. -/
class LawfulArithmetic [Library] : Prop where
  toRat_neg : ∀ d : Decimal, (Library.neg d).toRat = -d.toRat
  toRat_add : ∀ a b : Decimal, (Library.add a b).toRat = a.toRat + b.toRat
  toRat_sub : ∀ a b : Decimal, (Library.sub a b).toRat = a.toRat - b.toRat
  toRat_mul : ∀ a b : Decimal, scaleFits (a.scale + b.scale) = true →
    (Library.mul a b).toRat = a.toRat * b.toRat

theorem LawfulOrder.cmp_eq_eq_iff [Library] [LawfulOrder] {a b : Decimal} :
    Library.cmp a b = .eq ↔ a.toRat = b.toRat := by
  rw [cmp_eq, compare_eq_iff_eq]

instance : LawfulOrder where
  equal_self := identical_self
  equal_comm := identical_comm
  cmp_eq := cmp_eq

instance : LawfulForms where
  scale_withScale _ _ := scale_withScale
  toRat_withScale _ _ := toRat_withScale
  toRat_normalized := toRat_normalized
  normalized_shortest _ _ := normalized_shortest

instance : LawfulArithmetic where
  toRat_neg := toRat_neg
  toRat_add := toRat_add
  toRat_sub := toRat_sub
  toRat_mul _ _ := toRat_mul

end Decimal

namespace Instant

/-- The place of an instant in time. -/
def place (t : Instant) : ℤ ×ₗ ℕ := toLex (t.epochSecond, t.nanosecond)

/-- Instants are compared by their places in time. -/
class LawfulLibrary [Library] : Prop where
  same_iff : ∀ s t : Instant, Library.same s t = true ↔ s.place = t.place
  cmp_eq : ∀ s t : Instant, Library.cmp s t = compare s.place t.place

instance : LawfulLibrary where
  same_iff s t := by
    show s.same t = true ↔ _
    rw [place, place, toLex_inj, Prod.mk.injEq, same, Bool.and_eq_true, beq_iff_eq, beq_iff_eq]
  cmp_eq _ _ := rfl

end Instant

end CellScript
