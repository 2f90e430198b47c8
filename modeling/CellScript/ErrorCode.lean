import CellScript.Span

/-!
# Errors

`ErrorCode` is the stable classification of everything that can go wrong. A `Fault` is an error
found before evaluation, while scopes are built and names are resolved. `Failure` is the error
type of whole passes: a fault, or a message from elsewhere.
-/

namespace CellScript

/-- Machine-checkable classification of errors. -/
inductive ErrorCode where
  | alreadyDefined
  | unresolvedReference
  | invalidReferenceTarget
  | cyclicReference
  | cannotFindExport
  | divisionByZero
  | castError
  | callingNonFunction
  | unexpectedArgument
  | cannotCurry
  | cyclicEvaluation
  | nilError
  | customError
  /-- A broken invariant of evaluation; no program can raise it. -/
  | internalError
  deriving DecidableEq, Repr, Inhabited

namespace ErrorCode

def all : List ErrorCode :=
  [alreadyDefined, unresolvedReference, invalidReferenceTarget, cyclicReference, cannotFindExport,
   divisionByZero, castError, callingNonFunction, unexpectedArgument, cannotCurry,
   cyclicEvaluation, nilError, customError, internalError]

/-- The name under which a code is reported. -/
def name : ErrorCode → String
  | alreadyDefined => "ALREADY_DEFINED"
  | unresolvedReference => "UNRESOLVED_REFERENCE"
  | invalidReferenceTarget => "INVALID_REFERENCE_TARGET"
  | cyclicReference => "CYCLIC_REFERENCE"
  | cannotFindExport => "CANNOT_FIND_EXPORT"
  | divisionByZero => "DIVISION_BY_ZERO"
  | castError => "CAST_ERROR"
  | callingNonFunction => "CALLING_NON_FUNCTION"
  | unexpectedArgument => "UNEXPECTED_ARGUMENT"
  | cannotCurry => "CANNOT_CURRY"
  | cyclicEvaluation => "CYCLIC_EVALUATION"
  | nilError => "NIL_ERROR"
  | customError => "CUSTOM_ERROR"
  | internalError => "INTERNAL_ERROR"

/-- The code of that name. -/
def ofName? (name : String) : Option ErrorCode := all.find? (·.name == name)

theorem ofName?_name (c : ErrorCode) : ofName? c.name = some c := by cases c <;> decide

/-- Codes raised while scopes are built and names are linked, before any evaluation. -/
def isAnalysis : ErrorCode → Bool
  | alreadyDefined | unresolvedReference | invalidReferenceTarget | cyclicReference
  | cannotFindExport => true
  | _ => false

end ErrorCode

/-- An error found before evaluation. -/
structure Fault where
  code : ErrorCode
  message : String
  span : Option Span
  deriving DecidableEq, Repr, Inhabited

namespace Fault

def text (f : Fault) : String := f.code.name ++ ": " ++ f.message

end Fault

/-- Why a whole pass failed. -/
inductive Failure where
  | analysis (fault : Fault)
  | generic (message : String)
  deriving DecidableEq, Repr, Inhabited

namespace Failure

def text : Failure → String
  | analysis fault => fault.text
  | generic message => "Generic error: " ++ message

def code? : Failure → Option ErrorCode
  | analysis fault => some fault.code
  | generic _ => none

end Failure

end CellScript
