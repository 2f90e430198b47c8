import CellScript.Exception
import CellScript.Syntax.Basic

/-!
# Literals as values

Decimal and datetime literals are read when they are compiled, so they can fail.
-/

namespace CellScript.Value

variable [Decimal.Library] [Instant.Library]

/-- The value of a literal. -/
def ofLiteral : Literal → Except Exception Value
  | .nil => .ok nil
  | .boolean b => .ok (boolean b)
  | .long n => .ok (long n)
  | .double x => .ok (double x)
  | .decimal text =>
    match Decimal.Library.read? text with
    | some d => .ok (decimal d)
    | none => .error (.of .castError ("Invalid decimal literal " ++ text))
  | .string s => .ok (string s)
  | .datetime text =>
    match Instant.Library.read? text with
    | some t => .ok (datetime t)
    | none => .error (.of .castError ("Invalid datetime literal " ++ text))

end CellScript.Value
