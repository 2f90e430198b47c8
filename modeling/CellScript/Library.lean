import CellScript.Decimal.Basic
import CellScript.Decimal.Identity
import CellScript.Decimal.Text
import CellScript.Instant

/-!
# Libraries

Programs compute with decimals and instants through two libraries. What is asked of them is listed
here, and values are defined for any two libraries. Programs run with the two given at the end.
-/

namespace CellScript

/-- What is asked of a library of decimals. Its decimals are integers with a scale. -/
class Decimal.Library where
  /-- The library's own equality, which looks at two decimals only. -/
  equal : Decimal → Decimal → Bool
  cmp : Decimal → Decimal → Ordering
  neg : Decimal → Decimal
  add : Decimal → Decimal → Decimal
  sub : Decimal → Decimal → Decimal
  mul : Decimal → Decimal → Decimal
  /-- Remainder of the truncated quotient. The divisor is not zero. -/
  rem : Decimal → Decimal → Decimal
  /-- The decimal at another scale. -/
  withScale : Decimal → Int → Decimal
  /-- The form without trailing zeros. -/
  normalized : Decimal → Decimal
  /-- The long inside a decimal after cutting the fraction. -/
  toLong? : Decimal → Option Int64
  toDouble : Decimal → Float
  text : Decimal → String
  read? : String → Option Decimal

/-- What is asked of a library of instants. Its instants are local times with an offset. -/
class Instant.Library where
  cmp : Instant → Instant → Ordering
  /-- The library's own equality. -/
  same : Instant → Instant → Bool
  dayOfYear : Instant → Nat
  /-- Day of the week, Monday being 1. -/
  weekday : Instant → Nat
  isoWeek : Instant → Nat
  /-- The text of the offset. -/
  zone : Instant → String
  text : Instant → String
  read? : String → Option Instant

instance Decimal.library : Decimal.Library where
  equal := Decimal.identical
  cmp := Decimal.cmp
  neg := Decimal.neg
  add := Decimal.add
  sub := Decimal.sub
  mul := Decimal.mul
  rem := Decimal.rem
  withScale := Decimal.withScale
  normalized := Decimal.normalized
  toLong? := Decimal.toLong?
  toDouble := Decimal.toDouble
  text := Decimal.text
  read? := Decimal.read?

instance Instant.library : Instant.Library where
  cmp := Instant.cmp
  same := Instant.same
  dayOfYear t := t.date.dayOfYear
  weekday t := t.date.weekday
  isoWeek t := t.date.isoWeek
  zone t := String.ofList (Instant.zoneText t.offset)
  text := Instant.text
  read? := Instant.read?

end CellScript
