import CellScript.Double.Text

/-!
# Instants

A moment as a local date and time together with the offset from universal time. Two instants are the
same when they denote the same moment, whatever their offsets. Dates are those of the Gregorian
calendar, extended backwards to year 0, with the counts that programs can ask for: day of the year,
day of the week and ISO week.

As text, instants have the date-time format of RFC 3339. Reading is a chain of small readers, each
giving what it read and the rest of the text.
-/

namespace CellScript

/-! ## The calendar -/

namespace Calendar

def isLeap (year : Nat) : Bool := year % 4 == 0 && (year % 100 != 0 || year % 400 == 0)

def daysInMonth (year month : Nat) : Nat :=
  if month == 2 then (if isLeap year then 29 else 28)
  else if month == 4 || month == 6 || month == 9 || month == 11 then 30
  else 31

def daysInYear (year : Nat) : Nat := if isLeap year then 366 else 365

/-- A day of the calendar. -/
structure Date where
  year : Nat
  month : Nat
  day : Nat
  deriving DecidableEq, Repr, Inhabited

/-- The date exists. -/
def Date.isValid (d : Date) : Bool :=
  1 ≤ d.month && d.month ≤ 12 && 1 ≤ d.day && d.day ≤ daysInMonth d.year d.month

/-- Days from the first day of year 0 to the first day of `year`. -/
def daysBeforeYear (year : Nat) : Nat :=
  if year == 0 then 0
  else
    let past := year - 1
    365 * year + past / 4 - past / 100 + past / 400 + 1

/-- Day of the year, from 1. -/
def Date.dayOfYear (d : Date) : Nat :=
  (List.range (d.month - 1)).foldl (fun days m => days + daysInMonth d.year (m + 1)) d.day

/-- Days since the first day of year 0. -/
def Date.dayNumber (d : Date) : Nat := daysBeforeYear d.year + d.dayOfYear - 1

/-- Day of the week of a day number, Monday being 1. The first day of year 0 was a Saturday. -/
def weekdayOf (dayNumber : Nat) : Nat := (dayNumber + 5) % 7 + 1

/-- Day of the week, Monday being 1. -/
def Date.weekday (d : Date) : Nat := weekdayOf d.dayNumber

/-- Number of ISO weeks of a year: 53 if its first day is a Thursday, or a Wednesday in a leap
year. -/
def weeksInYear (year : Nat) : Nat :=
  let first := weekdayOf (daysBeforeYear year)
  if first == 4 || (first == 3 && isLeap year) then 53 else 52

/-- The calendar repeats after this many years. -/
def period : Nat := 400

/-- ISO week number. Days before the first week belong to the last week of the year before, and
days after the last week to the first week of the next one. -/
def Date.isoWeek (d : Date) : Nat :=
  let week := (d.dayOfYear + 10 - d.weekday) / 7
  if week == 0 then weeksInYear (d.year + period - 1)
  else if weeksInYear d.year < week then 1
  else week

end Calendar

/-! ## Moments -/

open Calendar (Date)

/-- A moment, in local time. A leap second is second 59 with a nanosecond of at least `10 ^ 9`. -/
structure Instant where
  date : Date
  hour : Nat
  minute : Nat
  second : Nat
  nanosecond : Nat
  /-- Minutes by which local time is ahead of universal time. -/
  offset : Int
  deriving DecidableEq, Repr, Inhabited

namespace Instant

/-- Seconds since the first day of year 0, in universal time. -/
def epochSecond (t : Instant) : Int :=
  (((t.date.dayNumber * 24 + t.hour) * 60 + t.minute) * 60 + t.second : Nat) - t.offset * 60

/-- Order in time. -/
def cmp (a b : Instant) : Ordering :=
  (compare a.epochSecond b.epochSecond).then (compare a.nanosecond b.nanosecond)

/-- The same moment. -/
def same (a b : Instant) : Bool :=
  a.epochSecond == b.epochSecond && a.nanosecond == b.nanosecond

/-! ## Instants as text -/

open CellScript.Double (zeros digitsOf)

/-! ## Reading -/

/-- Exactly `count` ASCII digits. -/
def readNumber? (count : Nat) (cs : List Char) : Option (Nat × List Char) :=
  let digits := cs.take count
  if digits.length == count && digits.all Char.isDigit then
    some (digits.foldl (fun n c => 10 * n + (c.toNat - '0'.toNat)) 0, cs.drop count)
  else none

/-- One character of a set. -/
def readOneOf? (set : List Char) (cs : List Char) : Option (List Char) :=
  match cs with
  | c :: rest => if set.contains c then some rest else none
  | [] => none

/-- `YYYY-MM-DD`, not yet checked against the calendar. -/
def readDate? (cs : List Char) : Option (Date × List Char) := do
  let (year, cs) ← readNumber? 4 cs
  let cs ← readOneOf? ['-'] cs
  let (month, cs) ← readNumber? 2 cs
  let cs ← readOneOf? ['-'] cs
  let (day, cs) ← readNumber? 2 cs
  return (⟨year, month, day⟩, cs)

/-- Digits of a fraction as nanoseconds; digits past the ninth are ignored. -/
def nanosOf (digits : List Char) : Nat :=
  let kept := digits.take 9
  kept.foldl (fun n c => 10 * n + (c.toNat - '0'.toNat)) 0 * Nat.pow 10 (9 - kept.length)

/-- An optional fraction of a second: a point and at least one digit. -/
def readFraction? (cs : List Char) : Option (Nat × List Char) :=
  match cs with
  | '.' :: rest =>
    let digits := rest.takeWhile Char.isDigit
    if digits.isEmpty then none else some (nanosOf digits, rest.dropWhile Char.isDigit)
  | _ => some (0, cs)

/-- Offset of local time in minutes: `Z`, or a sign with hours and minutes below 24 hours. -/
def readOffset? (cs : List Char) : Option (Int × List Char) :=
  match cs with
  | [] => none
  | c :: rest =>
    if c == 'Z' || c == 'z' then some (0, rest)
    else if c == '+' || c == '-' || c == '\u2212' then do
      let (hours, rest) ← readNumber? 2 rest
      let rest ← readOneOf? [':'] rest
      let (minutes, rest) ← readNumber? 2 rest
      if 60 ≤ minutes || 24 ≤ hours then none
      else
        let total : Int := hours * 60 + minutes
        some (if c == '+' then total else -total, rest)
    else none

/-- The instant written in a text. Second 60 is read as a leap second. -/
def read? (s : String) : Option Instant := do
  let (date, cs) ← readDate? s.toList
  let cs ← readOneOf? ['T', 't', ' '] cs
  let (hour, cs) ← readNumber? 2 cs
  let cs ← readOneOf? [':'] cs
  let (minute, cs) ← readNumber? 2 cs
  let cs ← readOneOf? [':'] cs
  let (second, cs) ← readNumber? 2 cs
  let (nanos, cs) ← readFraction? cs
  let (offset, cs) ← readOffset? cs
  if !cs.isEmpty || !date.isValid || 24 ≤ hour || 60 ≤ minute || 60 < second then none
  else if second == 60 then some ⟨date, hour, minute, 59, Nat.pow 10 9 + nanos, offset⟩
  else some ⟨date, hour, minute, second, nanos, offset⟩

/-! ## Writing -/

/-- A number in at least `width` digits. -/
def padded (width n : Nat) : List Char :=
  let digits := digitsOf n
  zeros (width - digits.length) ++ digits

/-- The fraction in 0, 3, 6 or 9 digits, as many as it needs. -/
def fractionText (nanos : Nat) : List Char :=
  if nanos == 0 then []
  else if nanos % Nat.pow 10 6 == 0 then '.' :: padded 3 (nanos / Nat.pow 10 6)
  else if nanos % Nat.pow 10 3 == 0 then '.' :: padded 6 (nanos / Nat.pow 10 3)
  else '.' :: padded 9 nanos

/-- `+hh:mm` or `-hh:mm`. -/
def zoneText (offset : Int) : List Char :=
  (if offset < 0 then '-' else '+') ::
    padded 2 (offset.natAbs / 60) ++ ':' :: padded 2 (offset.natAbs % 60)

/-- The text of an instant, in its own offset. -/
def text (t : Instant) : String :=
  let leap := Nat.pow 10 9 ≤ t.nanosecond
  let second := if leap then t.second + 1 else t.second
  let nanos := if leap then t.nanosecond - Nat.pow 10 9 else t.nanosecond
  String.ofList <|
    padded 4 t.date.year ++ '-' :: padded 2 t.date.month ++ '-' :: padded 2 t.date.day ++
    'T' :: padded 2 t.hour ++ ':' :: padded 2 t.minute ++ ':' :: padded 2 second ++
    fractionText nanos ++ zoneText t.offset

end Instant

end CellScript
