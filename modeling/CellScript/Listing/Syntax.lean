import CellScript.Listing.Basic
import CellScript.Syntax.Unit

/-!
# Listings of references, patterns and units
-/

namespace CellScript

open Json (orNull nat strings)

def Reference.summary (r : Reference) : Json :=
  .object [("text", .string r.text), ("path", strings r.path), ("simple", .bool r.isSimple)]

/-- Shows a literal by its type and a reference by its text. -/
def Expr.summary : Expr → Json
  | .constant _ l => .string l.ty.name
  | .reference _ r => .string r.text
  | _ => .null

/-- Shows what a pattern captures and evaluates. -/
def Pattern.summary (p : Pattern) : Json :=
  .object [("captures", strings (p.captures.map (·.name))),
    ("expressions", .array (p.expressions.map Expr.summary))]

/-- Shows what kind of unit this is and how much is in it. -/
def UnitKind.listing : UnitKind → Json
  | .module m =>
    .object [("module", orNull .string m.globalName), ("libraries", nat m.libraries.length)]
  | .interactive sections => .object [("sections", nat sections.length)]

/-- Shows how many units there are and which. -/
def UnitSet.listing (units : UnitSet) : Json :=
  .object [("len", nat units.length), ("empty", .bool units.isEmpty),
    ("units", .array (units.map fun u => .array [.string u.path, u.kind.listing]))]

end CellScript
