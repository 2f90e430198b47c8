import CellScript.Double.Parts

/-!
# Doubles as text

A double is written with the fewest decimal digits that still denote the same double, and among
those the decimal nearest to it. The reals that round to `mantissa · 2 ^ exponent` form an interval,
closed exactly when the mantissa is even. For 1, 2, … 17 digits the two neighbours of the number on
that decimal grid are tested against the interval; the first grid with a hit gives the answer.

There are two ways of writing these digits. Programs see `Double.text`, which never uses an
exponent. Exchange documents use `Double.exchangeText`, which keeps the point and turns to an
exponent for very large and very small numbers. They are read back quickly rather than exactly: all
digits are taken as one integer, rounded to a double, and scaled by a power of ten in floating-point
arithmetic. A double with many digits can therefore come back as one of its neighbours.
-/

namespace CellScript.Double

/-- Which of two equally near decimals is taken. -/
inductive Tie where
  | up
  | even
  deriving DecidableEq, Repr

/-- The decimal number `digits · 10 ^ exponent`. -/
structure Scientific where
  digits : Nat
  exponent : Int
  deriving DecidableEq, Repr

/-- Drops trailing zeros of the digits, adjusting the exponent. At most `fuel` zeros go. -/
def Scientific.strip : Nat → Scientific → Scientific
  | 0, s => s
  | fuel + 1, s =>
    if s.digits != 0 && s.digits % 10 == 0 then
      Scientific.strip fuel ⟨s.digits / 10, s.exponent + 1⟩
    else s

/-- A fraction of integers, for exact comparison. -/
structure Fraction where
  num : Nat
  den : Nat
  deriving Repr

namespace Fraction

def le (a b : Fraction) : Bool := a.num * b.den ≤ b.num * a.den

def lt (a b : Fraction) : Bool := a.num * b.den < b.num * a.den

/-- `n · base ^ e` as a fraction. -/
def scaled (n base : Nat) (e : Int) : Fraction :=
  if 0 ≤ e then ⟨n * Nat.pow base e.toNat, 1⟩ else ⟨n, Nat.pow base (-e).toNat⟩

def floorDiv (a b : Fraction) : Nat := (a.num * b.den) / (a.den * b.num)

end Fraction

/-- The reals that round to a double: ends, and whether the ends belong. -/
structure Interval where
  low : Fraction
  high : Fraction
  closed : Bool

/-- The reals that round to `mantissa · 2 ^ exponent`. Below a power of two the doubles lie twice
as close, so the interval reaches down half as far. -/
def roundingInterval (mantissa : Nat) (exponent : Int) : Interval :=
  let down := if mantissa == hiddenBit && exponent != minExponent then 1 else 2
  { low := .scaled (4 * mantissa - down) 2 (exponent - 2)
    high := .scaled (4 * mantissa + 2) 2 (exponent - 2)
    closed := mantissa % 2 == 0 }

def Interval.mem (i : Interval) (x : Fraction) : Bool :=
  if i.closed then i.low.le x && x.le i.high else i.low.lt x && x.lt i.high

/-- `e` with `10 ^ e ≤ x < 10 ^ (e + 1)`, for positive `x` that are not below `10 ^ -400`. -/
def order (x : Fraction) : Int :=
  ((Nat.repr (x.num * Nat.pow 10 400 / x.den)).length : Int) - 401

/-- The decimal with `count` digits that denotes the same double, if there is one; of two, the
nearer, and of two equally near the one that `tie` says. -/
def withDigits? (tie : Tie) (value : Fraction) (interval : Interval) (top : Int) (count : Nat) :
    Option Scientific :=
  let exponent := top - count + 1
  let unit := Fraction.scaled 1 10 exponent
  let below := value.floorDiv unit
  let at' (n : Nat) := Fraction.scaled n 10 exponent
  match interval.mem (at' below), interval.mem (at' (below + 1)) with
  | false, false => none
  | true, false => some ⟨below, exponent⟩
  | false, true => some ⟨below + 1, exponent⟩
  | true, true =>
    let middle := Fraction.scaled (10 * below + 5) 10 (exponent - 1)
    if value.lt middle then some ⟨below, exponent⟩
    else if middle.lt value then some ⟨below + 1, exponent⟩
    else match tie with
      | .up => some ⟨below + 1, exponent⟩
      | .even => some ⟨below + below % 2, exponent⟩

/-- The shortest decimal that denotes the double `mantissa · 2 ^ exponent`. -/
def shortest (tie : Tie) (mantissa : Nat) (exponent : Int) : Scientific :=
  if mantissa == 0 then ⟨0, 0⟩
  else
    let value := Fraction.scaled mantissa 2 exponent
    let interval := roundingInterval mantissa exponent
    let top := order value
    let found := (List.range 17).findSome? fun i => withDigits? tie value interval top (i + 1)
    (found.getD ⟨mantissa, 0⟩).strip 17

/-! ## Writing digits -/

/-- A row of zeros. -/
def zeros (n : Nat) : List Char := List.replicate n '0'

/-- The digits of a number. -/
def digitsOf (n : Nat) : List Char := (Nat.repr n).toList

/-- `digits · 10 ^ exponent` without an exponent; a whole number gets no point. -/
def positional (s : Scientific) : List Char :=
  let digits := digitsOf s.digits
  if 0 ≤ s.exponent then digits ++ zeros s.exponent.toNat
  else
    let places := (-s.exponent).toNat
    if digits.length ≤ places then '0' :: '.' :: zeros (places - digits.length) ++ digits
    else digits.take (digits.length - places) ++ '.' :: digits.drop (digits.length - places)

def signed (negative : Bool) (cs : List Char) : String :=
  String.ofList (if negative then '-' :: cs else cs)

/-- Shortest digits without an exponent, as the text of a finite double. -/
def plainText (negative : Bool) (mantissa : Nat) (exponent : Int) : String :=
  signed negative (positional (shortest .up mantissa exponent))

/-- Whole numbers from here on are written without `.0`. -/
def wholeLimit : Nat := Nat.pow 10 16

/-- The text of a double in programs: whole numbers below `10 ^ 16` keep one decimal, everything
else has its shortest digits. -/
def text (x : Float) : String :=
  match parts x with
  | .nan => "NaN"
  | .infinite negative => signed negative "Infinity".toList
  | .finite negative mantissa exponent =>
    if isWhole mantissa exponent && wholePart mantissa exponent < wholeLimit then
      signed negative (digitsOf (wholePart mantissa exponent) ++ ['.', '0'])
    else plainText negative mantissa exponent

/-- `d.ddde+x`: one digit before the point and a signed exponent. -/
def exponential (s : Scientific) : List Char :=
  let digits := digitsOf s.digits
  let power : Int := s.exponent + digits.length - 1
  let tail := digits.drop 1
  digits.take 1 ++ (if tail.isEmpty then [] else '.' :: tail) ++
    ['e', if power < 0 then '-' else '+'] ++ digitsOf power.natAbs

/-- The text of a finite double in exchange documents: positional from `10 ^ -5` up to `10 ^ 16`,
with `.0` on whole numbers, and with an exponent outside. -/
def exchangeText (negative : Bool) (mantissa : Nat) (exponent : Int) : String :=
  let s := shortest .even mantissa exponent
  let power : Int := s.exponent + (digitsOf s.digits).length - 1
  if s.digits == 0 then signed negative "0.0".toList
  else if -5 ≤ power && power < 16 then
    signed negative (positional s ++ if 0 ≤ s.exponent then ['.', '0'] else [])
  else signed negative (exponential s)

/-! ## Doubles that went through a document -/

/-- Greatest power of ten that is scaled by in one step. -/
def scaleStep : Nat := 308

/-- The double `10 ^ n`. -/
def powerOfTen (n : Nat) : Float := ofDecimal false 1 n

/-- Scales by `10 ^ exponent` in steps of at most `10 ^ 308`, taking at most `fuel` steps before the
last. -/
def scaleByTen : Nat → Float → Int → Float
  | 0, x, _ => x
  | fuel + 1, x, exponent =>
    if exponent.natAbs ≤ scaleStep then
      if 0 ≤ exponent then x * powerOfTen exponent.toNat else x / powerOfTen exponent.natAbs
    else if 0 ≤ exponent then infinity false
    else scaleByTen fuel (x / powerOfTen scaleStep) (exponent + scaleStep)

/-- The number that a document holding the finite double `x` gives when read back. Whole numbers in
positional notation are read with the zero behind their point. -/
def reread (x : Float) : Float :=
  match parts x with
  | .finite negative mantissa exponent =>
    let s := shortest .even mantissa exponent
    let power : Int := s.exponent + (digitsOf s.digits).length - 1
    let read :=
      if 0 ≤ s.exponent && power < 16 then
        scaleByTen 3 (ofInt (s.digits * Nat.pow 10 (s.exponent.toNat + 1))) (-1)
      else scaleByTen 3 (ofInt s.digits) s.exponent
    if negative then -read else read
  | _ => x

end CellScript.Double
