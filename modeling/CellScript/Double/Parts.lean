/-!
# The number inside a double

A finite double is `± mantissa · 2 ^ exponent`. `Double.parts` reads sign, mantissa and exponent off
the 64 bits, so that everything exact about doubles can be said in integers. `Double.ofRatio` rounds
a fraction to the nearest double, a tie going to the even mantissa; every exact number (a long, a
decimal, a remainder) becomes a double through it.
-/

namespace CellScript.Double

/-- What a double stands for. -/
inductive Parts where
  | nan
  | infinite (negative : Bool)
  /-- The number `mantissa · 2 ^ exponent`, negated if `negative`; zero has a sign too. -/
  | finite (negative : Bool) (mantissa : Nat) (exponent : Int)
  deriving DecidableEq, Repr

/-- Least exponent of a finite double. -/
def minExponent : Int := -1074

/-- The number of mantissas of one binary order, `2 ^ 52`. -/
def hiddenBit : Nat := Nat.pow 2 52

/-- Reads the 64 bits of a double. -/
def partsOfBits (bits : Nat) : Parts :=
  let negative := bits / Nat.pow 2 63 % 2 == 1
  let biased := bits / hiddenBit % 2048
  let fraction := bits % hiddenBit
  if biased == 2047 then
    if fraction == 0 then .infinite negative else .nan
  else if biased == 0 then .finite negative fraction minExponent
  else .finite negative (hiddenBit + fraction) ((biased : Int) - 1075)

/-- Sign, mantissa and exponent of a double. -/
def parts (x : Float) : Parts := partsOfBits x.toBits.toNat

def isNaN (x : Float) : Bool := parts x == .nan

def isInfinite (x : Float) : Bool :=
  match parts x with
  | .infinite _ => true
  | _ => false

def isFinite (x : Float) : Bool :=
  match parts x with
  | .finite .. => true
  | _ => false

/-- Zero of either sign. -/
def isZero (x : Float) : Bool :=
  match parts x with
  | .finite _ mantissa _ => mantissa == 0
  | _ => false

/-- The one NaN that results are given as. -/
def nan : Float := Float.ofBits 0x7ff8000000000000

def infinity (negative : Bool) : Float :=
  Float.ofBits (if negative then 0xfff0000000000000 else 0x7ff0000000000000)

/-- The integer part, toward zero, of `mantissa · 2 ^ exponent`. -/
def wholePart (mantissa : Nat) (exponent : Int) : Nat :=
  if 0 ≤ exponent then mantissa * Nat.pow 2 exponent.toNat
  else mantissa / Nat.pow 2 (-exponent).toNat

/-- The number has no fraction. -/
def isWhole (mantissa : Nat) (exponent : Int) : Bool :=
  0 ≤ exponent || mantissa % Nat.pow 2 (-exponent).toNat == 0

/-- The long nearest to `n`: numbers that do not fit become the least or greatest long. -/
def clampToLong (n : Int) : Int64 :=
  if n < -Int.pow 2 63 then Int64.minValue
  else if Int.pow 2 63 ≤ n then Int64.maxValue
  else Int64.ofInt n

/-- A double as a long: the fraction is dropped, numbers out of range are clamped, and NaN counts
as zero. -/
def toLong (x : Float) : Int64 :=
  match parts x with
  | .nan => 0
  | .infinite true => Int64.minValue
  | .infinite false => Int64.maxValue
  | .finite negative mantissa exponent =>
    let whole : Int := wholePart mantissa exponent
    clampToLong (if negative then -whole else whole)

/-! ## The nearest double -/

/-- `num / den` rounded to the nearest integer, a tie going to the even one. -/
def roundHalfEven (num den : Nat) : Nat :=
  let q := num / den
  let r := num % den
  if 2 * r < den then q
  else if den < 2 * r then q + 1
  else q + q % 2

/-- The mantissa of `num / den` at the given exponent, rounded. -/
def mantissaAt (num den : Nat) (exponent : Int) : Nat :=
  if 0 ≤ exponent then roundHalfEven num (den * Nat.pow 2 exponent.toNat)
  else roundHalfEven (num * Nat.pow 2 (-exponent).toNat) den

/-- The exponent at which the mantissa of `num / den` has 53 bits, or the least exponent for
numbers too small for that. -/
def exponentFor (num den : Nat) : Int :=
  let guess : Int := (num.log2 : Int) - (den.log2 : Int) - 52
  let fits :=
    if 0 ≤ guess then den * hiddenBit * Nat.pow 2 guess.toNat ≤ num
    else den * hiddenBit ≤ num * Nat.pow 2 (-guess).toNat
  max (if fits then guess else guess - 1) minExponent

/-- The bits, without sign, of the double nearest to `num / den`. -/
def magnitudeBits (num den : Nat) : Nat :=
  if num == 0 then 0
  else
    let exponent := exponentFor num den
    let bits := (exponent - minExponent).toNat * hiddenBit + mantissaAt num den exponent
    min bits (2047 * hiddenBit)

/-- The double nearest to `num / den`, negated if `negative`. Numbers beyond the greatest double
become infinite. -/
def ofRatio (negative : Bool) (num den : Nat) : Float :=
  Float.ofBits (UInt64.ofNat ((if negative then Nat.pow 2 63 else 0) + magnitudeBits num den))

/-- The double nearest to an integer. -/
def ofInt (n : Int) : Float := ofRatio (n < 0) n.natAbs 1

/-- The number `mantissa · 2 ^ exponent` as a double. -/
def ofBinary (negative : Bool) (mantissa : Nat) (exponent : Int) : Float :=
  if 0 ≤ exponent then ofRatio negative (mantissa * Nat.pow 2 exponent.toNat) 1
  else ofRatio negative mantissa (Nat.pow 2 (-exponent).toNat)

/-- The double nearest to `digits · 10 ^ exponent`. Exponents far outside the range of doubles are
settled without computing the power of ten. -/
def ofDecimal (negative : Bool) (digits : Nat) (exponent : Int) : Float :=
  let size : Int := (Nat.repr digits).length
  if digits == 0 || size + exponent < -400 then ofRatio negative 0 1
  else if 400 < size + exponent then infinity negative
  else if 0 ≤ exponent then ofRatio negative (digits * Nat.pow 10 exponent.toNat) 1
  else ofRatio negative digits (Nat.pow 10 (-exponent).toNat)

/-- Remainder of the truncated quotient: exact, with the sign of the dividend. There is none for
an infinite dividend or a zero divisor; an infinite divisor leaves the dividend as it is. -/
def remainder (x y : Float) : Float :=
  match parts x, parts y with
  | .finite negative m e, .finite _ n f =>
    if n == 0 then nan
    else
      let low := min e f
      ofBinary negative
        (m * Nat.pow 2 (e - low).toNat % (n * Nat.pow 2 (f - low).toNat)) low
  | .finite .., .infinite _ => x
  | _, _ => nan

end CellScript.Double
