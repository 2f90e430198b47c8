import CellScript.Diagnostic
import CellScript.Json
import CellScript.Ty

/-!
# Listings of regions, faults and diagnostics

A listing is a document that shows something in full, for tools and for people who debug programs.
-/

namespace CellScript

namespace Json

def nat (n : Nat) : Json := int n

/-- Null, or the listing of what is there. -/
def orNull {α : Type} (f : α → Json) : Option α → Json
  | none => null
  | some a => f a

def strings (l : List String) : Json := array (l.map string)

def nats (l : List Nat) : Json := array (l.map nat)

/-- Minus one, zero or one; null if there is no order. -/
def ordering : Option Ordering → Json
  | none => null
  | some .lt => int (-1)
  | some .eq => int 0
  | some .gt => int 1

end Json

open Json (orNull nat strings)

/-- All seven numbers of a region. -/
def Span.listing (s : Span) : Json :=
  Json.nats [s.file, s.lo, s.hi, s.line, s.column, s.endLine, s.endColumn]

/-- Shows a region as text, with what can be asked about it. -/
def Span.summary (s : Span) : Json :=
  .object [("text", .string s.text), ("null", .bool s.isNull), ("position", .bool s.hasPosition),
    ("eq_null", .bool (s == null))]

def Ty.summary (t : Ty) : Json :=
  .object [("text", .string t.name), ("numeric", .bool t.isNumeric)]

def ErrorCode.summary (c : ErrorCode) : Json :=
  .object [("text", .string c.name), ("analysis", .bool c.isAnalysis)]

def Fault.listing (f : Fault) : Json :=
  .object [("error", .string f.code.name), ("message", .string f.message),
    ("span", orNull Span.listing f.span)]

def Failure.listing : Failure → Json
  | .analysis f => f.listing
  | .generic m => .object [("error", .string "Generic"), ("message", .string m)]

/-- The text of a failure and its code, if it has one. -/
def Failure.summary (f : Failure) : List (String × Json) :=
  [("text", .string f.text), ("code", orNull (.string ·.name) f.code?)]

/-- Shows a fault with the text it has on its own and as a failure. -/
def Fault.summary (f : Fault) : Json :=
  .object (("raised", f.listing) :: ("wrapped", .string (Failure.analysis f).text) ::
    ("text", .string f.text) :: (Failure.analysis f).summary.tail)

def Severity.name : Severity → String
  | .info => "info"
  | .warning => "warning"
  | .error => "error"

/-- The severity of that name. -/
def Severity.ofName? (name : String) : Option Severity :=
  [info, warning, error].find? (·.name == name)

def Diagnostic.listing (d : Diagnostic) : Json :=
  .object [("level", .string d.severity.name), ("message", .string d.message),
    ("span", orNull Span.listing d.span), ("suggestions", strings d.suggestions),
    ("context", orNull .string d.context), ("code", orNull .string d.code),
    ("text", .string d.text)]

end CellScript
