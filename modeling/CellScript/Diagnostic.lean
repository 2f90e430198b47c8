import CellScript.ErrorCode
import CellScript.SourceMap

/-!
# Diagnostics

Messages for people: what is wrong, where, and what could be done. `Diagnostic.render` lays one out
in lines; a `Report` pairs a result with the diagnostics of the pass that computed it.
-/

namespace CellScript

inductive Severity where
  | info
  | warning
  | error
  deriving DecidableEq, Repr, Inhabited

/-- A message for people. -/
structure Diagnostic where
  severity : Severity
  message : String
  span : Option Span
  suggestions : List String
  /-- The part of the program that reports it. -/
  context : Option String
  code : Option String
  deriving DecidableEq, Repr, Inhabited

namespace Diagnostic

/-- An error with nothing known but its message. -/
def ofMessage (message : String) : Diagnostic := ⟨.error, message, none, [], none, none⟩

/-- The diagnostic of a fault. -/
def ofFault (fault : Fault) : Diagnostic :=
  ⟨.error, fault.message, fault.span, [], none, some fault.code.name⟩

def withContext (d : Diagnostic) (context : String) : Diagnostic :=
  { d with context := some context }

/-- One line: message, code and hints. -/
def text (d : Diagnostic) : String :=
  d.message ++
    (match d.code with
      | some code => " [" ++ code ++ "]"
      | none => "") ++
    (if d.suggestions.isEmpty then ""
      else " (hints: " ++ "; ".intercalate d.suggestions ++ ")")

/-! ## Layout -/

/-- The marks of a layout: one for each severity, and one for suggestions. -/
structure Marks where
  info : String
  warning : String
  error : String
  suggestion : String
  deriving Repr

def Marks.ofSeverity (marks : Marks) : Severity → String
  | .info => marks.info
  | .warning => marks.warning
  | .error => marks.error

/-- Marks for terminals that show pictures. -/
def pretty : Marks := ⟨"ℹ️ ", "⚠️ ", "❌", "💡"⟩

/-- Marks in plain words. -/
def plain : Marks := ⟨"INFO:", "WARNING:", "ERROR:", "suggestion:"⟩

/-- The context of diagnostics that have none. -/
def defaultContext : String := "lazuli"

/-- A region for people: the path of its file with its position or offsets. -/
def describeSpan (files : SourceMap) (span : Span) : String :=
  match files.path? span.file with
  | some path =>
    if span.hasPosition then
      path ++ ":" ++ toString span.line ++ ":" ++ toString span.column
    else path ++ " [" ++ toString span.lo ++ ".." ++ toString span.hi ++ "]"
  | none => span.text

/-- The lines of a diagnostic. Information is hidden unless `verbose`; a diagnostic without context
takes `fallback`. -/
def render (files : SourceMap) (marks : Marks) (verbose : Bool) (fallback : Option String)
    (d : Diagnostic) : Option (List String) :=
  if d.severity == .info && !verbose then none
  else
    let context := (d.context.or fallback).getD defaultContext
    let header := "[" ++ context ++ "] " ++ marks.ofSeverity d.severity ++ " " ++ d.message ++
      (match d.code with
        | some code => " (" ++ code ++ ")"
        | none => "")
    let place := d.span.toList.map fun span => "   at " ++ describeSpan files span
    let hints := d.suggestions.map fun hint => "   " ++ marks.suggestion ++ " " ++ hint
    some (header :: place ++ hints)

/-- There is an error among the diagnostics. -/
def anyError (ds : List Diagnostic) : Bool := ds.any (·.severity == .error)

end Diagnostic

/-- A result with the diagnostics of the pass that computed it; a failed pass has no result. -/
structure Report (α : Type) where
  value : Option α
  diagnostics : List Diagnostic

namespace Report

variable {α : Type}

def success (value : α) : Report α := ⟨some value, []⟩

/-- A pass that failed with one error, reported by `context`. -/
def failure (context message : String) : Report α :=
  ⟨none, [(Diagnostic.ofMessage message).withContext context]⟩

def hasErrors (r : Report α) : Bool := Diagnostic.anyError r.diagnostics

end Report

/-- Reports a message: the failure to return, and the diagnostics with one more at the end. -/
def reportError (diagnostics : List Diagnostic) (message : String) : Failure × List Diagnostic :=
  (.generic message, diagnostics ++ [.ofMessage message])

end CellScript
