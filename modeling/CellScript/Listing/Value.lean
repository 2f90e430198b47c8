import CellScript.Exception
import CellScript.Listing.Basic

/-!
# Listings of values and exceptions

Unlike the exchange form, a listing keeps all kinds of values apart and loses nothing: doubles are
shown by their bits and decimals with their scale. Function objects live in memory, so how they are
listed is given as a parameter.
-/

namespace CellScript

/-- How function objects are listed. -/
abbrev FunctionListing := FunctionId → Signature → Json

namespace Double

/-- The 64 bits in hexadecimal; all NaNs look alike. -/
def bitsText (x : Float) : String :=
  if isNaN x then "nan" else String.ofList (Text.hexPadded 16 x.toBits.toNat)

end Double

namespace Value

mutual

/-- Shows a value in full. -/
def listing (functions : FunctionListing) : Value → Json
  | nil => .null
  | boolean b => .bool b
  | long n => .object [("long", .string (toString n.toInt))]
  | double x => .object [("double", .string (Double.bitsText x))]
  | decimal d => .object [("decimal", .array [.string (toString d.unscaled), .int d.scale])]
  | string s => .string s
  | datetime t => .object [("datetime", .string t.text)]
  | list _ items => .array (itemListings functions items)
  | dict _ entries => .object [("dict", .array (entryListings functions entries))]
  | function id signature => .object [("function", functions id signature)]

def itemListings (functions : FunctionListing) : List Value → List Json
  | [] => []
  | item :: rest => item.listing functions :: itemListings functions rest

def entryListings (functions : FunctionListing) : List (String × Value) → List Json
  | [] => []
  | (key, item) :: rest =>
    .array [.string key, item.listing functions] :: entryListings functions rest

end

/-- Shows the kind of a value, with the size of containers. -/
def kindListing (v : Value) : Json :=
  let (items, entries) := match v with
    | list _ items => (Json.nat items.length, Json.null)
    | dict _ entries => (Json.null, Json.nat entries.length)
    | _ => (Json.null, Json.null)
  .object [("type", .string v.ty.name), ("nil", .bool v.isNil), ("numeric", .bool v.isNumeric),
    ("list", items), ("dict", entries), ("function", .bool (v.ty == .function))]

end Value

/-- Shows an exception in full. -/
def Exception.listing (functions : FunctionListing) (e : Exception) : Json :=
  .object ([("error", .string e.code.name), ("message", .string e.message),
    ("span", Json.orNull Span.listing e.span), ("trace", Json.strings (e.trace.map Frame.text))] ++
    e.thrown.toList.map fun v => ("thrown", v.listing functions))

/-- Shows an exception with all that can become of it; `fresh` and the number after it name the
objects that are created for this. -/
def Exception.summary (functions : FunctionListing) (e : Exception) (fresh : ObjectId) : Json :=
  .object [("raised", e.listing functions), ("text", .string e.text),
    ("caught", (e.caughtValue fresh).listing functions),
    ("trace_value", (e.traceValue (fresh + 1)).listing functions),
    ("core", .string e.toFailure.text)]

/-- Shows the outcome of an evaluation: the value with its text, or the exception. -/
def listOutcome (functions : FunctionListing) : Except Exception Value → Json
  | .ok v => .object [("value", v.listing functions), ("show", .string v.text)]
  | .error e => e.listing functions

/-- For values that hold no functions. -/
def noFunctions : FunctionListing := fun _ _ => .null

end CellScript
