import CellScript.Double.Text
import CellScript.Json
import CellScript.Syntax.Unit

/-!
# Syntax trees as documents

The exchange form of a unit: every structure is an object, and every choice is an object with one
field named for the alternative, or that name alone if the alternative holds nothing.
-/

namespace CellScript

namespace Json

/-- An alternative that holds something. -/
def tagged (tag : String) (content : Json) : Json := object [(tag, content)]

/-- Null, or the document of what is there. -/
def ofOption {α : Type} (f : α → Json) : Option α → Json
  | none => null
  | some a => f a

end Json

open Json (tagged ofOption)

namespace Span

def toJson (s : Span) : Json :=
  .object [("file", .int s.file), ("lo", .int s.lo), ("hi", .int s.hi), ("line", .int s.line),
    ("column", .int s.column), ("end_line", .int s.endLine), ("end_column", .int s.endColumn)]

end Span

namespace Node

def toJson (n : Node) : Json := .object [("id", .int n.id.index), ("span", n.span.toJson)]

end Node

namespace Ty

def toJson (t : Ty) : Json := .string t.name

end Ty

namespace Literal

def toJson : Literal → Json
  | nil => .string "Nil"
  | boolean b => tagged "Boolean" (.bool b)
  | long n => tagged "Long" (.int n.toInt)
  | double x => tagged "Double" (.double x)
  | decimal s => tagged "Decimal" (.string s)
  | string s => tagged "String" (.string s)
  | datetime s => tagged "DateTime" (.string s)

end Literal

namespace Reference

def toJson (r : Reference) : Json :=
  let anchor := match r.anchor with
    | .here => "Local"
    | .global => "Global"
    | .module => "Module"
    | .library => "Library"
  .object [("anchor", .string anchor), ("path", .array (r.path.map .string))]

end Reference

namespace BinaryOp

/-- The name of an operator in documents. -/
def documentName : BinaryOp → String
  | add => "Plus"
  | sub => "Minus"
  | mul => "Mult"
  | div => "Div"
  | intDiv => "IntDiv"
  | mod => "Mod"
  | pow => "Pow"
  | equal => "Equal"
  | notEqual => "NotEqual"
  | identical => "Identical"
  | notIdentical => "NotIdentical"
  | less => "LessThan"
  | lessEqual => "LessThanOrEqual"
  | greater => "GreaterThan"
  | greaterEqual => "GreaterThanOrEqual"
  | and => "And"
  | or => "Or"
  | concat => "Concat"

end BinaryOp

namespace UnaryOp

/-- The name of an operator in documents. -/
def documentName : UnaryOp → String
  | negate => "Negate"
  | not => "Not"

end UnaryOp

namespace Capture

def toJson (c : Capture) : Json := .object [("meta", c.node.toJson), ("name", .string c.name)]

end Capture

mutual

/-- The document of an expression. -/
def Expr.toJson : Expr → Json
  | .constant n l => ofExpr n (tagged "Constant" l.toJson)
  | .reference n r => ofExpr n (tagged "Reference" r.toJson)
  | .list n items => ofExpr n (tagged "List" (.array (itemsToJson items)))
  | .dict n entries => ofExpr n (tagged "Dict" (.array (entriesToJson entries)))
  | .function n params returns body =>
    ofExpr n (tagged "Function" (.object [("params", .array (paramsToJson params)),
      ("return_type", returns.toJson), ("body", body.toJson)]))
  | .call n callee args =>
    ofExpr n (tagged "Call" (.object [("callee", callee.toJson),
      ("args", .array (argumentsToJson args))]))
  | .curry n callee args =>
    ofExpr n (tagged "Curry" (.object [("callee", callee.toJson),
      ("args", .array (namedToJson args))]))
  | .letIn n bindings body =>
    ofExpr n (tagged "Let" (.object [("bindings", .array (varsToJson bindings)),
      ("body", body.toJson)]))
  | .ifElse n c t e =>
    ofExpr n (tagged "If" (.object [("condition", c.toJson), ("then_branch", t.toJson),
      ("else_branch", e.toJson)]))
  | .matchOn n subject lines =>
    ofExpr n (tagged "Match" (.object [("subject", subject.toJson),
      ("lines", .array (linesToJson lines))]))
  | .forEach n heads body =>
    ofExpr n (tagged "For" (.object [("heads", .array (headsToJson heads)),
      ("body", body.toJson)]))
  | .binary n op l r =>
    ofExpr n (tagged "Binary" (.object [("op", .string op.documentName), ("left", l.toJson),
      ("right", r.toJson)]))
  | .unary n op e =>
    ofExpr n (tagged "Unary" (.object [("op", .string op.documentName), ("operand", e.toJson)]))
  | .cast n e ty =>
    ofExpr n (tagged "Cast" (.object [("expr", e.toJson), ("target", ty.toJson)]))
  | .isOf n e ty => ofExpr n (tagged "Is" (.object [("expr", e.toJson), ("ty", ty.toJson)]))
  | .access n c keys =>
    ofExpr n (tagged "Access" (.object [("container", c.toJson),
      ("keys", .array (exprsToJson keys))]))
  | .tryCatch n body clause error trace handler =>
    ofExpr n (tagged "TryCatch" (.object [("body", body.toJson),
      ("catch", .object [("meta", clause.toJson), ("error", ofOption Capture.toJson error),
        ("trace", ofOption Capture.toJson trace), ("handler", handler.toJson)])]))
  | .throw n e => ofExpr n (tagged "Throw" e.toJson)
where
  ofExpr (n : Node) (kind : Json) : Json := .object [("meta", n.toJson), ("kind", kind)]

def exprsToJson : List Expr → List Json
  | [] => []
  | e :: rest => e.toJson :: exprsToJson rest

def itemsToJson : List ListItem → List Json
  | [] => []
  | .value e :: rest => tagged "Value" e.toJson :: itemsToJson rest
  | .splat e :: rest => tagged "Splat" e.toJson :: itemsToJson rest

def entriesToJson : List DictEntry → List Json
  | [] => []
  | .pair k v :: rest =>
    tagged "Pair" (.object [("key", k.toJson), ("value", v.toJson)]) :: entriesToJson rest
  | .splat e :: rest => tagged "Splat" e.toJson :: entriesToJson rest

def optionToJson : Option Expr → Json
  | none => .null
  | some e => e.toJson

def paramsToJson : List Param → List Json
  | [] => []
  | ⟨n, name, ty, default⟩ :: rest =>
    .object [("meta", n.toJson), ("name", .string name), ("declared_type", ty.toJson),
      ("default", optionToJson default)] :: paramsToJson rest

def argumentsToJson : List Argument → List Json
  | [] => []
  | .positional e :: rest => tagged "Positional" e.toJson :: argumentsToJson rest
  | .named name e :: rest =>
    tagged "Named" (.array [.string name, e.toJson]) :: argumentsToJson rest
  | .splat e :: rest => tagged "Splat" e.toJson :: argumentsToJson rest

def namedToJson : List NamedExpr → List Json
  | [] => []
  | ⟨name, e⟩ :: rest => .array [.string name, e.toJson] :: namedToJson rest

def varsToJson : List VarDef → List Json
  | [] => []
  | ⟨n, name, ty, e⟩ :: rest =>
    .object [("meta", n.toJson), ("name", .string name), ("declared_type", ty.toJson),
      ("value", e.toJson)] :: varsToJson rest

def linesToJson : List MatchLine → List Json
  | [] => []
  | ⟨n, pattern, guard, result⟩ :: rest =>
    .object [("meta", n.toJson), ("pattern", pattern.toJson), ("guard", optionToJson guard),
      ("result", result.toJson)] :: linesToJson rest

def headsToJson : List ForHead → List Json
  | [] => []
  | .generator n name ty e :: rest =>
    tagged "Generator" (.object [("meta", n.toJson), ("name", .string name),
      ("declared_type", ty.toJson), ("source", e.toJson)]) :: headsToJson rest
  | .definition n name ty e :: rest =>
    tagged "Definition" (.object [("meta", n.toJson), ("name", .string name),
      ("declared_type", ty.toJson), ("value", e.toJson)]) :: headsToJson rest
  | .condition e :: rest => tagged "Condition" e.toJson :: headsToJson rest

/-- The document of a pattern. -/
def Pattern.toJson : Pattern → Json
  | ⟨n, shape, whole⟩ =>
    .object [("meta", n.toJson), ("kind", shape.toJson), ("capture", ofOption Capture.toJson whole)]

def PatternShape.toJson : PatternShape → Json
  | .expr e => tagged "Expression" e.toJson
  | .wildcard => .string "Capture"
  | .default => .string "Default"
  | .ofType ty => tagged "DataType" ty.toJson
  | .list items => tagged "List" (.array (patternsToJson items))
  | .headTail head tail =>
    tagged "HeadTail" (.object [("head", .array (patternsToJson head)),
      ("tail", ofOption Capture.toJson tail)])
  | .initLast init last =>
    tagged "InitLast" (.object [("init", ofOption Capture.toJson init),
      ("last", .array (patternsToJson last))])
  | .middle head mid last =>
    tagged "MidList" (.object [("head", .array (patternsToJson head)),
      ("mid", ofOption Capture.toJson mid), ("last", .array (patternsToJson last))])
  | .dict entries => tagged "Dict" (.array (keyPatternsToJson entries))
  | .openDict entries rest =>
    tagged "OpenDict" (.object [("entries", .array (keyPatternsToJson entries)),
      ("rest", ofOption Capture.toJson rest)])

def patternsToJson : List Pattern → List Json
  | [] => []
  | p :: rest => p.toJson :: patternsToJson rest

def keyPatternsToJson : List KeyPattern → List Json
  | [] => []
  | ⟨key, p⟩ :: rest => .array [.string key, p.toJson] :: keyPatternsToJson rest

end

namespace Import

def toJson (i : Import) : Json :=
  let member (m : ImportMember) : Json :=
    let kind := match m.kind with
      | .name exported => tagged "Name" (.string exported)
      | .module => .string "Module"
    .object [("meta", m.node.toJson), ("kind", kind), ("local", .string m.name)]
  .object [("meta", i.node.toJson), ("source", .string i.source),
    ("members", .array (i.members.map member))]

end Import

namespace Renaming

def toJson (r : Renaming) : Json :=
  .object [("meta", r.node.toJson), ("target", r.target.toJson), ("name", .string r.name)]

end Renaming

namespace Library

def toJson (l : Library) : Json :=
  .object [("meta", l.node.toJson), ("name", .string l.name), ("exported", .bool l.exported),
    ("vars", .array (varsToJson l.vars))]

end Library

namespace Section

def toJson (s : Section) : Json :=
  .object [("meta", s.node.toJson), ("module", .string s.module),
    ("vars", .array (varsToJson s.vars))]

end Section

namespace SourceUnit

/-- The document of a unit. -/
def toJson (u : SourceUnit) : Json :=
  let kind := match u.kind with
    | .module m =>
      tagged "Module" (.object [("global_name", ofOption Json.string m.globalName),
        ("imports", .array (m.imports.map Import.toJson)),
        ("aliases", .array (m.aliases.map Renaming.toJson)),
        ("libraries", .array (m.libraries.map Library.toJson)),
        ("exports", .array (m.exports.map Renaming.toJson))])
    | .interactive sections =>
      tagged "Interactive" (.object [("sections", .array (sections.map Section.toJson))])
  .object [("meta", u.node.toJson), ("path", .string u.path), ("file", .int u.file), ("kind", kind)]

end SourceUnit

/-! ## Reading back -/

namespace Json

mutual

/-- The document as it is after being written and read: numbers that are not finite are gone, and
others may have moved to a neighbour. -/
def reread : Json → Json
  | double x => if Double.isFinite x then double (Double.reread x) else null
  | array items => array (rereadItems items)
  | object fields => object (rereadFields fields)
  | j => j

def rereadItems : List Json → List Json
  | [] => []
  | item :: rest => item.reread :: rereadItems rest

def rereadFields : List (String × Json) → List (String × Json)
  | [] => []
  | (key, item) :: rest => (key, item.reread) :: rereadFields rest

end

mutual

/-- The doubles of a document. -/
def doubles : Json → List Float
  | double x => [x]
  | array items => doublesOfItems items
  | object fields => doublesOfFields fields
  | _ => []

def doublesOfItems : List Json → List Float
  | [] => []
  | item :: rest => item.doubles ++ doublesOfItems rest

def doublesOfFields : List (String × Json) → List Float
  | [] => []
  | (_, item) :: rest => item.doubles ++ doublesOfFields rest

end

/-- Whether a document that was written and read equals the first one. There is no answer if it
cannot be read, because a number in it is not finite. -/
def roundTrips? (j : Json) : Option Bool :=
  if j.doubles.all Double.isFinite then some (j.doubles.all fun x => Double.reread x == x) else none

end Json

end CellScript
