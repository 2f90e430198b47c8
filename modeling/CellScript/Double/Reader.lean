import CellScript.Double.Parts
import CellScript.Text.Unprintable

/-!
# Reading numbers from text

Longs and doubles as programs may write them in strings. White space around the number is ignored.
-/

namespace CellScript

namespace Text

/-- A leading sign, if there is one, and what follows it. -/
def splitSign : List Char → Bool × List Char
  | '-' :: rest => (true, rest)
  | '+' :: rest => (false, rest)
  | cs => (false, cs)

/-- The number written by ASCII digits; none for an empty text or any other character. -/
def readDigits? (cs : List Char) : Option Nat :=
  if cs.isEmpty || !cs.all Char.isDigit then none
  else some (cs.foldl (fun n c => 10 * n + (c.toNat - '0'.toNat)) 0)

/-- An integer with an optional sign. -/
def readInt? (cs : List Char) : Option Int :=
  let (negative, digits) := splitSign cs
  (readDigits? digits).map fun n => if negative then -(n : Int) else n

end Text

/-- The long written in a text; none if the text is not an integer or does not fit. -/
def readLong? (s : String) : Option Int64 :=
  match Text.readInt? (Text.trim s.toList) with
  | none => none
  | some n => if -Int.pow 2 63 ≤ n && n < Int.pow 2 63 then some (Int64.ofInt n) else none

namespace Double

/-- The words for values that have no digits, in lower case. -/
def readWord? (negative : Bool) (cs : List Char) : Option Float :=
  let word := String.ofList (cs.map Char.toLower)
  if word == "inf" || word == "infinity" then some (infinity negative)
  else if word == "nan" then some nan
  else none

/-- Digits with at most one point: the digits without it, and how many stood behind it. -/
def readMantissa? (cs : List Char) : Option (Nat × Nat) :=
  let whole := cs.takeWhile (· != '.')
  let fraction := (cs.dropWhile (· != '.')).drop 1
  (Text.readDigits? (whole ++ fraction)).map fun n => (n, fraction.length)

/-- The double written in a text: decimal digits with optional sign, point and exponent, or one of
the words. The nearest double is taken. -/
def read? (s : String) : Option Float :=
  let (negative, cs) := Text.splitSign (Text.trim s.toList)
  match readWord? negative cs with
  | some x => some x
  | none =>
    let isMark (c : Char) := c == 'e' || c == 'E'
    let mantissa := cs.takeWhile (!isMark ·)
    let power? : Option Int :=
      match cs.dropWhile (!isMark ·) with
      | [] => some 0
      | _ :: digits => Text.readInt? digits
    match readMantissa? mantissa, power? with
    | some (n, places), some power => some (ofDecimal negative n (power - places))
    | _, _ => none

end Double

end CellScript
