import CellScript.Exception

/-!
# Conversions and containers

`Value.cast` converts a value to a type. Nil passes through every conversion except the one to
boolean, and a value that already has the type is returned as the same object. A conversion creates
at most one new list or dictionary, which gets the identity `fresh`.

What else programs do with lists and dictionaries: spreading one into another, running through the
items, and looking up keys.
-/

namespace CellScript.Value

variable [Decimal.Library] [Instant.Library]

/-- The value as a long. -/
def toLong : Value → Except Exception Int64
  | long n => .ok n
  | boolean b => .ok (if b then 1 else 0)
  | double x => .ok (Double.toLong x)
  | decimal d =>
    match Decimal.Library.toLong? d with
    | some n => .ok n
    | none => .error (.cannotCastValue (.decimal d) .long)
  | string s =>
    match readLong? s with
    | some n => .ok n
    | none => .error (.cannotCastValue (.string s) .long)
  | v => .error (.cannotCast v .long)

/-- The value as a double, the nearest one for exact numbers. -/
def toDouble : Value → Except Exception Float
  | double x => .ok x
  | long n => .ok (Double.ofInt n.toInt)
  | boolean b => .ok (Double.ofInt (if b then 1 else 0))
  | decimal d => .ok (Decimal.Library.toDouble d)
  | string s =>
    match Double.read? s with
    | some x => .ok x
    | none => .error (.cannotCastValue (.string s) .double)
  | v => .error (.cannotCast v .double)

/-- The value as a decimal. A double gives its shortest digits; one that is not finite gives
zero. -/
def toDecimal : Value → Except Exception Decimal
  | decimal d => .ok d
  | long n => .ok (.ofInt n.toInt)
  | boolean b => .ok (.ofInt (if b then 1 else 0))
  | double x => .ok ((Double.toDecimal? x).getD .zero)
  | string s =>
    match Decimal.Library.read? (String.ofList (Text.trim s.toList)) with
    | some d => .ok d
    | none => .error (.cannotCastValue (.string s) .decimal)
  | v => .error (.cannotCast v .decimal)

/-- The value as a string. -/
def toPlainText (v : Value) : Except Exception String :=
  match v.plainText? with
  | some s => .ok s
  | none => .error (.cannotCast v .string)

/-- Reads keys and values alternately; later values of a key replace earlier ones. -/
def entriesOfItems : List Value → Entries Value → Except Exception (Entries Value)
  | key :: value :: rest, entries =>
    match key.toPlainText with
    | .ok key => entriesOfItems rest (entries.insert key value)
    | .error e => .error e
  | _, entries => .ok entries

/-- Keys and values of a dictionary, alternately. -/
def itemsOfEntries (entries : Entries Value) : List Value :=
  entries.flatMap fun entry => [.string entry.1, entry.2]

/-- What can be asked of an instant, as a dictionary. -/
def entriesOfInstant (t : Instant) : Entries Value :=
  let number (n : Nat) : Value := .long (Int64.ofNat n)
  Entries.ofList [
    ("year", number t.date.year),
    ("month", number t.date.month),
    ("day_of_month", number t.date.day),
    ("hour", number t.hour),
    ("minute", number t.minute),
    ("second", number t.second),
    ("nano_of_second", number t.nanosecond),
    ("day_of_year", number (Instant.Library.dayOfYear t)),
    ("day_of_week", number (Instant.Library.weekday t)),
    ("week_of_year", number (Instant.Library.isoWeek t)),
    ("offset_seconds", .long (Int64.ofInt (t.offset * 60))),
    ("zone", .string (Instant.Library.zone t))]

/-- The value as an instant. -/
def toInstant : Value → Except Exception Instant
  | datetime t => .ok t
  | string s =>
    match Instant.Library.read? s with
    | some t => .ok t
    | none => .error (.cannotCastValue (.string s) .datetime)
  | v => .error (.cannotCast v .datetime)

/-- Items of the list a value becomes: keys and values of a dictionary, characters of a string. -/
def toItems : Value → Except Exception (List Value)
  | list _ items => .ok items
  | dict _ entries => .ok (itemsOfEntries entries)
  | string s => .ok (s.toList.map fun c => .string (String.singleton c))
  | v => .error (.cannotCast v .list)

/-- Entries of the dictionary a value becomes. -/
def toEntries : Value → Except Exception (Entries Value)
  | dict _ entries => .ok entries
  | list _ items => if items.length % 2 != 0 then .error .oddItems else entriesOfItems items []
  | datetime t => .ok (entriesOfInstant t)
  | v => .error (.cannotCast v .dict)

/-- Converts a value to a type; `fresh` is the identity of an object created on the way. -/
def cast (fresh : ObjectId) (v : Value) (target : Ty) : Except Exception Value :=
  match target with
  | .any => .ok v
  | .void => .ok nil
  | .boolean => .ok (boolean v.truthy)
  | _ =>
    if v.isNil || v.ty == target then .ok v
    else match target with
      | .long => v.toLong.map long
      | .double => v.toDouble.map double
      | .decimal => v.toDecimal.map decimal
      | .string => v.toPlainText.map string
      | .datetime => v.toInstant.map datetime
      | .list => v.toItems.map (list fresh)
      | .dict => v.toEntries.map (dict fresh)
      | _ => .error (.cannotCast v target)

/-! ## Taking containers apart -/

/-- The key under which a value enters a dictionary. -/
def toKey (v : Value) : Except Exception String :=
  if v.isNil then .error .nilKey else v.toPlainText

/-- What a value spreads into a list: the items of a list, and nothing for nil. -/
def spreadItems : Value → Except Exception (List Value)
  | nil => .ok []
  | list _ items => .ok items
  | v => .error (.cannotSplat v "a list")

/-- What a value spreads into a dictionary: the entries of a dictionary, and nothing for nil. -/
def spreadEntries : Value → Except Exception (Entries Value)
  | nil => .ok []
  | dict _ entries => .ok entries
  | v => .error (.cannotSplat v "a dict")

/-- What a comprehension runs through: items of a list, values of a dictionary, nothing for nil. -/
def generated : Value → Except Exception (List Value)
  | nil => .ok []
  | list _ items => .ok items
  | dict _ entries => .ok (entries.map (·.2))
  | v => .error (.cannotGenerate v)

/-- The item of a list at an index; nil outside the list. -/
def itemAt (items : List Value) (index : Int64) : Value :=
  if index < 0 then nil else (items[index.toInt.toNat]?).getD nil

/-- One step of container access. The key is converted to what the container asks for; a nil key or
a missing entry gives nil. -/
def access (container key : Value) : Except Exception Value :=
  match container with
  | dict _ entries =>
    if key.isNil then .ok nil
    else key.toPlainText.map fun key => (Entries.get? entries key).getD nil
  | list _ items => if key.isNil then .ok nil else key.toLong.map (itemAt items)
  | nil => .ok nil
  | v => .error (.noAccess v)

/-- Container access with several keys; the walk ends at nil. -/
def accessAll (container : Value) : List Value → Except Exception Value
  | [] => .ok container
  | key :: rest =>
    if container.isNil then .ok nil
    else match container.access key with
      | .ok v => v.accessAll rest
      | .error e => .error e

end CellScript.Value
