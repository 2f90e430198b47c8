import CellScript.Decimal.Basic
import CellScript.Double.Reader
import CellScript.Double.Text

/-!
# Decimals as text

Writing shows the scale: `1.50` has two fraction digits. Very small decimals are written with a
capital `E`, and decimals with many zeros before the point with `e+`. Reading takes optional
fraction, exponent and digit separators.
-/

namespace CellScript.Decimal

open CellScript.Double (zeros digitsOf)

/-- More leading zeros than this after the point, and the number is written with an exponent. -/
def leadingZeroLimit : Int := 5

/-- More zeros than this before the point, and the number is written with an exponent. -/
def trailingZeroLimit : Int := 15

/-- `d.ddE-x` for digits at a scale. -/
def scientific (digits : List Char) (scale : Int) : List Char :=
  let power : Int := digits.length - 1 - scale
  let tail := digits.drop 1
  digits.take 1 ++ (if tail.isEmpty then [] else '.' :: tail) ++
    'E' :: (if power < 0 then ['-'] else []) ++ digitsOf power.natAbs

/-- Digits with exactly `scale` fraction digits, or `-scale` zeros appended. -/
def plain (digits : List Char) (scale : Int) : List Char :=
  if scale ≤ 0 then digits ++ zeros (-scale).toNat
  else
    let places := scale.toNat
    if digits.length ≤ places then '0' :: '.' :: zeros (places - digits.length) ++ digits
    else digits.take (digits.length - places) ++ '.' :: digits.drop (digits.length - places)

/-- The text of a decimal. Zero is `0` at every scale. -/
def text (d : Decimal) : String :=
  if d.unscaled == 0 then "0"
  else
    let digits := digitsOf d.unscaled.natAbs
    let body :=
      if leadingZeroLimit < d.scale - digits.length then scientific digits d.scale
      else if trailingZeroLimit < -d.scale then
        digits ++ 'e' :: '+' :: digitsOf d.scale.natAbs
      else plain digits d.scale
    Double.signed (d.unscaled < 0) body

/-! ## Reading -/

/-- Digits in which `_` may stand anywhere but first. -/
def readSeparated? (cs : List Char) : Option Nat :=
  match cs with
  | [] => none
  | '_' :: _ => none
  | _ => if cs.all (fun c => c.isDigit || c == '_') then
      some ((cs.filter (· != '_')).foldl (fun n c => 10 * n + (c.toNat - '0'.toNat)) 0)
    else none

/-- A signed integer with digit separators. -/
def readUnscaled? (cs : List Char) : Option Int :=
  match cs with
  | '-' :: rest => (readSeparated? rest).map fun n => -(n : Int)
  | '+' :: rest => (readSeparated? rest).map fun n => (n : Int)
  | _ => (readSeparated? cs).map fun n => (n : Int)

/-- The mantissa: its digits without the point, and how many digits stand behind the point. -/
def splitPoint (cs : List Char) : List Char × Nat :=
  match cs.dropWhile (· != '.') with
  | [] => (cs, 0)
  | _ :: fraction =>
    (cs.takeWhile (· != '.') ++ fraction, (fraction.filter (· != '_')).length)

/-- An exponent: a signed integer of at most 128 bits. -/
def readExponent? (cs : List Char) : Option Int :=
  match Text.readInt? cs with
  | none => none
  | some n => if -Int.pow 2 127 ≤ n && n < Int.pow 2 127 then some n else none

/-- The decimal written in a text. -/
def read? (s : String) : Option Decimal :=
  let cs := s.toList
  let isMark (c : Char) := c == 'e' || c == 'E'
  let (digits, places) := splitPoint (cs.takeWhile (!isMark ·))
  let power? : Option Int :=
    match cs.dropWhile (!isMark ·) with
    | [] => some 0
    | _ :: rest => readExponent? rest
  match readUnscaled? digits, power? with
  | some unscaled, some power =>
    let scale : Int := places - power
    if scaleFits scale then some ⟨unscaled, scale⟩ else none
  | _, _ => none

end CellScript.Decimal

namespace CellScript.Double

/-- The decimal with the shortest digits of a finite double. -/
def toDecimal? (x : Float) : Option Decimal :=
  match parts x with
  | .finite negative mantissa exponent =>
    let s := shortest .up mantissa exponent
    let unscaled : Int := s.digits * Int.pow 10 s.exponent.toNat
    some ⟨if negative then -unscaled else unscaled, max 0 (-s.exponent)⟩
  | _ => none

end CellScript.Double
