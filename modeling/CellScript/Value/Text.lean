import CellScript.Value.Basic
import CellScript.Library
import CellScript.Json

/-!
# Values as text

`Value.text` is how a value is shown: strings are quoted, decimals end in `d`, dictionary keys start
with a colon. `Value.plainText?` is the text a value has as a string, which containers and functions
lack. `Value.toJson` is the exchange form.
-/

namespace CellScript.Value

variable [Decimal.Library] [Instant.Library]

mutual

/-- How a value is shown. -/
def text : Value → String
  | nil => "nil"
  | boolean b => toString b
  | long n => toString n.toInt
  | double x => Double.text x
  | decimal d => Decimal.Library.text d ++ "d"
  | string s => Text.quoted s
  | datetime t => Instant.Library.text t
  | list _ items => "[" ++ ", ".intercalate (itemTexts items) ++ "]"
  | dict _ entries => "\x7b" ++ ", ".intercalate (entryTexts entries) ++ "\x7d"
  | function _ signature => "function" ++ signature.text

def itemTexts : List Value → List String
  | [] => []
  | item :: rest => item.text :: itemTexts rest

def entryTexts : List (String × Value) → List String
  | [] => []
  | (key, item) :: rest => (":" ++ key ++ " " ++ item.text) :: entryTexts rest

end

/-- The text of a value as a string, without quotes or marks. -/
def plainText? : Value → Option String
  | nil => some "nil"
  | boolean b => some (toString b)
  | long n => some (toString n.toInt)
  | double x => some (Double.text x)
  | decimal d => some (Decimal.Library.text d)
  | string s => some s
  | datetime t => some (Instant.Library.text t)
  | list .. | dict .. | function .. => none

mutual

/-- The exchange form. Numbers that documents cannot hold become null, decimals and instants become
strings. -/
def toJson : Value → Json
  | nil => .null
  | boolean b => .bool b
  | long n => .int n.toInt
  | double x => if Double.isFinite x then .double x else .null
  | decimal d => .string (Decimal.Library.text d)
  | string s => .string s
  | datetime t => .string (Instant.Library.text t)
  | list _ items => .array (itemsToJson items)
  | dict _ entries => .object (entriesToJson entries)
  | function .. => .string "function"

def itemsToJson : List Value → List Json
  | [] => []
  | item :: rest => item.toJson :: itemsToJson rest

def entriesToJson : List (String × Value) → List (String × Json)
  | [] => []
  | (key, item) :: rest => (key, item.toJson) :: entriesToJson rest

end

end CellScript.Value
