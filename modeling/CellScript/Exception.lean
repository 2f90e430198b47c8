import CellScript.ErrorCode
import CellScript.Value.Text

/-!
# Exceptions

An error raised while evaluating. It knows where it happened, which definitions and calls were under
way, and, if the program itself threw it, the thrown value. Exceptions are caught only by programs.
-/

namespace CellScript

/-- One entry of the evaluation stack. -/
structure Frame where
  location : String
  span : Option Span
  deriving DecidableEq, Repr, Inhabited

namespace Frame

/-- A frame keeps a region only if it has a position. -/
def at' (location : String) (span : Span) : Frame := ⟨location, span.positioned?⟩

def text (f : Frame) : String :=
  match f.span.bind Span.positioned? with
  | some span => f.location ++ " at " ++ span.text
  | none => f.location

end Frame

/-- An error raised while evaluating. -/
structure Exception where
  code : ErrorCode
  message : String
  span : Option Span
  /-- The stack when the error was first seen, outermost first. -/
  trace : List Frame
  /-- The value given to `throw`. -/
  thrown : Option Value
  deriving Inhabited

namespace Exception

/-- An error that does not know yet where it happened. -/
def of (code : ErrorCode) (message : String) : Exception := ⟨code, message, none, [], none⟩

/-- Adds a region with a position, unless a more precise one is known already. -/
def orSpan (e : Exception) (span : Span) : Exception :=
  if e.span.isNone && span.hasPosition then { e with span := some span } else e

/-- Adds a stack, unless an earlier and therefore deeper one is known already. -/
def orTrace (e : Exception) (trace : List Frame) : Exception :=
  if e.trace.isEmpty then { e with trace := trace } else e

/-- An error with a region. -/
def at' (code : ErrorCode) (message : String) (span : Span) : Exception :=
  (of code message).orSpan span

/-- The error of a `throw`. -/
def ofThrown [Decimal.Library] [Instant.Library] (value : Value) : Exception :=
  { of .customError value.text with thrown := some value }

/-- A fault that evaluation runs into. -/
def ofFault (fault : Fault) : Exception :=
  { of fault.code fault.message with span := fault.span }

def text (e : Exception) : String := e.code.name ++ ": " ++ e.message

/-- What a catch clause binds: the thrown value, or code and message of any other error. -/
def caughtValue (e : Exception) (fresh : ObjectId) : Value :=
  match e.thrown with
  | some value => value
  | none => .dict fresh [("code", .string e.code.name), ("message", .string e.message)]

/-- The stack as a list of texts. -/
def traceValue (e : Exception) (fresh : ObjectId) : Value :=
  .list fresh (e.trace.map fun frame => .string frame.text)

/-- The error of a pass that ended with this exception. -/
def toFailure (e : Exception) : Failure :=
  match e.span.bind Span.positioned? with
  | some span => .generic (e.text ++ " at " ++ span.text)
  | none => .generic e.text

/-! ## Causes -/

def divisionByZero : Exception := of .divisionByZero "division by zero"

/-- The operation named by `verb` is not defined for these two kinds. -/
def wrongOperands (verb : String) (left right : Value) : Exception :=
  of .castError ("Cannot " ++ verb ++ " types: " ++ left.ty.name ++ " and " ++ right.ty.name)

def cannotNegate (v : Value) : Exception :=
  of .castError ("Cannot negate type: " ++ v.ty.name)

def cannotCompare (a b : Value) : Exception :=
  of .castError ("Cannot compare " ++ a.ty.name ++ " and " ++ b.ty.name)

/-- No value of this kind can become one of type `ty`. -/
def cannotCast (v : Value) (ty : Ty) : Exception :=
  of .castError ("Cannot cast " ++ v.ty.name ++ " to " ++ ty.name)

/-- This value, unlike others of its kind, cannot become one of type `ty`. -/
def cannotCastValue [Decimal.Library] [Instant.Library] (v : Value) (ty : Ty) : Exception :=
  of .castError ("Cannot cast " ++ v.text ++ " to " ++ ty.name)

def oddItems : Exception :=
  of .castError "Cannot cast list with odd number of items to dict"

/-- Only some kinds can be spread out with `...` into `what`. -/
def cannotSplat (v : Value) (what : String) : Exception :=
  of .castError ("Cannot splat " ++ v.ty.name ++ " into " ++ what)

def nilKey : Exception := of .nilError "dict key cannot be nil"

def noAccess (v : Value) : Exception :=
  of .castError ("container access not defined for type " ++ v.ty.name)

def cannotGenerate (v : Value) : Exception :=
  of .castError ("Cannot generate items from " ++ v.ty.name)

def notCallable [Decimal.Library] [Instant.Library] (v : Value) : Exception :=
  of .callingNonFunction ("Cannot call " ++ v.text ++ ". Not a function.")

def notCurryable [Decimal.Library] [Instant.Library] (v : Value) : Exception :=
  of .cannotCurry ("Cannot curry " ++ v.text ++ ". Not a function.")

def undeclaredParameter (name : String) : Exception :=
  of .unexpectedArgument ("Cannot curry undeclared parameter " ++ name ++ ".")

def tooManyArguments (arity given : Nat) : Exception :=
  of .unexpectedArgument ("Too many arguments: function takes " ++ toString arity ++
    " parameters, got " ++ toString given)

def noParameterLeft (arity : Nat) : Exception :=
  of .unexpectedArgument ("Too many arguments: function takes " ++ toString arity ++ " parameters")

def positionalAfterNamed : Exception :=
  of .unexpectedArgument "Positional argument cannot follow named arguments."

def unknownParameter (name : String) : Exception :=
  of .unexpectedArgument ("Function does not have parameter named: " ++ name)

def cyclicEvaluation (name : String) (span : Span) : Exception :=
  at' .cyclicEvaluation ("Cyclic evaluation of " ++ name) span

/-- A cell is to be computed whose space is gone. -/
def outlivedSpace (name : String) (span : Span) : Exception :=
  at' .internalError (name ++ " outlived its space") span

/-- A broken invariant of evaluation. -/
def internal (message : String) : Exception := of .internalError message

end Exception

end CellScript
