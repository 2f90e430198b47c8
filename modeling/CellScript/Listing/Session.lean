import CellScript.Code.Op
import CellScript.Code.Refresh
import CellScript.Code.Specialize
import CellScript.Eval.Basic
import CellScript.Eval.Function
import CellScript.Listing.Value
import CellScript.Memory.Basic

/-!
# Listings of operations and of what is in memory

An operation is shown as a tree: each action by its name, followed by its parts. Regions and sites
are left out. Functions, cells, answers and compiled definitions are shown with the operations they
consist of.
-/

namespace CellScript

namespace Code

open Json (orNull nat nats)

/-- A name followed by parts. -/
def node (name : String) (parts : List Json) : Json := .array (.string name :: parts)

def Address.listing : Address → Json
  | .closure index => node "closure" [nat index]
  | .own slot => node "local" [nat slot]
  | .parent slot => node "parent" [nat slot]
  | .frame depth slot => node "frame" [nat depth, nat slot]
  | .absolute path => node "absolute" [nats path]

def CellRef.listing (name : String) (ref : CellRef) : Json :=
  node name [.string ref.name, ref.address.listing, .string ref.ty.name]

def CapturePlan.listing : CapturePlan → Json
  | .propagate index => node "propagate" [nat index]
  | .cell ref => ref.listing "cell"

def NumericMode.name : NumericMode → String
  | .generic => "Generic"
  | .longs => "LongLong"
  | .doubles => "DoubleDouble"

mutual

/-- Shows an operation as a tree. -/
def Op.listing (functions : FunctionListing) : Op → Json
  | ⟨_, action⟩ => action.listing functions

def Action.listing (functions : FunctionListing) : Action → Json
  | .constant v => node "const" [v.listing functions]
  | .fail fault => node "fail" [.string fault.code.name, .string fault.message]
  | .reference ref _ => ref.listing "ref"
  | .list items => node "list" [.array (itemListings functions items)]
  | .patchedList segments => node "patched" [.array (listSegmentListings functions segments)]
  | .dict entries => node "dict" [.array (entryListings functions entries)]
  | .mergedDict segments => node "merged" [.array (dictSegmentListings functions segments)]
  | .function params returns body template captures _ =>
    node "fn" [.array (paramListings functions params), .string returns.name,
      body.listing functions, template.listing functions, .array (captures.map CapturePlan.listing)]
  | .call callee args =>
    node "call" [callee.listing functions, .array (argumentListings functions args)]
  | .fixedCall id signature args =>
    node "fixed" [functions id signature, .array (opListings functions args)]
  | .curry callee args =>
    node "curry" [callee.listing functions, .array (namedListings functions args)]
  | .letIn template body => node "let" [template.listing functions, body.listing functions]
  | .ifElse c t e =>
    node "if" [c.listing functions, t.listing functions, e.listing functions]
  | .matchOn subject lines =>
    node "match" [subject.listing functions, .array (lineListings functions lines)]
  | .forEach template heads body =>
    node "for" [template.listing functions, .array (headListings functions heads),
      body.listing functions]
  | .binary op mode l r =>
    node "bin" [.string op.symbol, .string mode.name, l.listing functions, r.listing functions]
  | .unary .negate e => node "neg" [e.listing functions]
  | .unary .not e => node "not" [e.listing functions]
  | .cast e ty => node "as" [e.listing functions, .string ty.name]
  | .isOf e ty => node "is" [e.listing functions, .string ty.name]
  | .access container keys =>
    node "get" [container.listing functions, .array (opListings functions keys)]
  | .keyAccess container key =>
    node "getkey" [container.listing functions, key.listing functions]
  | .tryCatch body template error trace handler =>
    node "try" [body.listing functions, template.listing functions, orNull nat error,
      orNull nat trace, handler.listing functions]
  | .throw e => node "throw" [e.listing functions]

def opListings (functions : FunctionListing) : List Op → List Json
  | [] => []
  | op :: rest => op.listing functions :: opListings functions rest

def optionListing (functions : FunctionListing) : Option Op → Json
  | none => .null
  | some op => op.listing functions

def itemListings (functions : FunctionListing) : List Item → List Json
  | [] => []
  | .value op :: rest => node "value" [op.listing functions] :: itemListings functions rest
  | .splat op :: rest => node "splat" [op.listing functions] :: itemListings functions rest

def listSegmentListings (functions : FunctionListing) : List ListSegment → List Json
  | [] => []
  | .constant run :: rest =>
    node "const" [.array (Value.itemListings functions run)] :: listSegmentListings functions rest
  | .value op :: rest => node "value" [op.listing functions] :: listSegmentListings functions rest
  | .splat op :: rest => node "splat" [op.listing functions] :: listSegmentListings functions rest

def entryListings (functions : FunctionListing) : List Entry → List Json
  | [] => []
  | .pair k v :: rest =>
    node "pair" [k.listing functions, v.listing functions] :: entryListings functions rest
  | .splat op :: rest => node "splat" [op.listing functions] :: entryListings functions rest

def dictSegmentListings (functions : FunctionListing) : List DictSegment → List Json
  | [] => []
  | .constant run :: rest =>
    node "const" [.array (Value.entryListings functions run)] :: dictSegmentListings functions rest
  | .pair key v :: rest =>
    node "pair" [.string key, v.listing functions] :: dictSegmentListings functions rest
  | .dynamic k v :: rest =>
    node "dynamic" [k.listing functions, v.listing functions] :: dictSegmentListings functions rest
  | .splat op :: rest => node "splat" [op.listing functions] :: dictSegmentListings functions rest

def paramListings (functions : FunctionListing) : List Param → List Json
  | [] => []
  | ⟨name, ty, default⟩ :: rest =>
    .array [.string name, .string ty.name, optionListing functions default] ::
      paramListings functions rest

def argumentListings (functions : FunctionListing) : List Argument → List Json
  | [] => []
  | .positional op :: rest => node "pos" [op.listing functions] :: argumentListings functions rest
  | .named name op :: rest =>
    node "named" [.string name, op.listing functions] :: argumentListings functions rest
  | .splat op :: rest => node "splat" [op.listing functions] :: argumentListings functions rest

def namedListings (functions : FunctionListing) : List Named → List Json
  | [] => []
  | ⟨name, op⟩ :: rest => node name [op.listing functions] :: namedListings functions rest

def lineListings (functions : FunctionListing) : List Line → List Json
  | [] => []
  | ⟨pattern, template, guard, result⟩ :: rest =>
    .array [pattern.listing functions, template.listing functions, optionListing functions guard,
      result.listing functions] :: lineListings functions rest

def headListings (functions : FunctionListing) : List Head → List Json
  | [] => []
  | .generator slot ty source :: rest =>
    node "gen" [nat slot, .string ty.name, source.listing functions] :: headListings functions rest
  | .definition slot :: rest => node "def" [nat slot] :: headListings functions rest
  | .condition op :: rest => node "cond" [op.listing functions] :: headListings functions rest

def Pattern.listing (functions : FunctionListing) : Pattern → Json
  | ⟨shape, whole⟩ => .object [("kind", shape.listing functions), ("capture", orNull nat whole)]

def Shape.listing (functions : FunctionListing) : Shape → Json
  | .expr op => node "expr" [op.listing functions]
  | .any => node "any" []
  | .ofType ty => node "type" [.string ty.name]
  | .list items => node "list" [.array (patternListings functions items)]
  | .headTail head tail =>
    node "headtail" [.array (patternListings functions head), orNull nat tail]
  | .initLast init last =>
    node "initlast" [orNull nat init, .array (patternListings functions last)]
  | .middle head mid last =>
    node "mid" [.array (patternListings functions head), orNull nat mid,
      .array (patternListings functions last)]
  | .dict entries => node "dict" [.array (keyPatternListings functions entries)]
  | .openDict entries rest =>
    node "opendict" [.array (keyPatternListings functions entries), orNull nat rest]

def patternListings (functions : FunctionListing) : List Pattern → List Json
  | [] => []
  | p :: rest => p.listing functions :: patternListings functions rest

def keyPatternListings (functions : FunctionListing) : List KeyPattern → List Json
  | [] => []
  | ⟨key, p⟩ :: rest => node key [p.listing functions] :: keyPatternListings functions rest

/-- Shows the cells to be laid out. -/
def Template.listing (functions : FunctionListing) : Template → Json
  | ⟨_, slots⟩ => .array (slotListings functions slots)

def slotListings (functions : FunctionListing) : List Slot → List Json
  | [] => []
  | ⟨_, name, ty, _, init, _⟩ :: rest =>
    .array [.string name, .string ty.name, optionListing functions init] ::
      slotListings functions rest

end

end Code

namespace Memory

/-- Shows a function with its defaults, down to functions at most `fuel` defaults deep. -/
def functionListing (m : Memory) : Nat → FunctionListing
  | 0, _, _ => .null
  | fuel + 1, id, signature =>
    let f := m.function id
    let (kind, adapter) := match f.body with
      | .literal .. => ("user", none)
      | .curried _ fixed => ("curried", some (Adapter.select fixed).name)
    .object [("signature", .string signature.text), ("kind", .string kind),
      ("adapter", Json.orNull .string adapter),
      ("defaults", .array (Value.itemListings (m.functionListing fuel) f.defaults))]

/-- How the functions of a memory are listed. A default exists before the function that has it, so
there are never more levels than functions. -/
def functionListings (m : Memory) : FunctionListing := m.functionListing m.functions.size

/-- Shows the state of a cell. -/
def cellListing (m : Memory) (id : CellId) : Json :=
  let c := m.cell id
  .object [("name", .string c.name), ("dirty", .bool c.isDirty),
    ("evaluating", .bool c.evaluating),
    ("value", Json.orNull (Value.listing m.functionListings) c.value),
    ("failure", Json.orNull (Exception.listing m.functionListings) c.failure)]

/-- Shows a captured symbol: its value, or the name of the cell it waits for. -/
def capturedListing (m : Memory) (c : Captured) : Json :=
  match m.settled c with
  | .empty => .null
  | .value v _ => .object [("value", v.listing m.functionListings)]
  | .pending cell => .object [("pending", .string (m.cell cell).name)]

/-- Shows what is known of the cells of a space, with the members of modules, libraries and
sections at most `fuel` levels deep. -/
def knownListing (m : Memory) : Nat → SpaceId → Json
  | 0, _ => .null
  | fuel + 1, space => .array ((m.cellsOf space).map fun id =>
    let c := m.cell id
    let rest := match c.members, c.value, c.failure with
      | some members, _, _ => [("members", m.knownListing fuel members)]
      | none, some v, _ => [("value", v.listing m.functionListings)]
      | none, none, some e => [("failed", .string e.code.name)]
      | none, none, none => [("dirty", .bool true), ("var", .bool c.shape.init.isSome)]
    .object (("name", .string c.name) :: rest))

/-! ## Answers and definitions -/

/-- Shows the answer to a request; `f` shows what was answered. -/
def answerListing {α : Type} (m : Memory) (f : α → Json) : Except Stop α → Json
  | .ok a => f a
  | .error (.raised e) => e.listing m.functionListings
  | .error .exhausted => .object [("error", .string "Exhausted")]
  | .error .refused => .object [("error", .string "Refused")]

/-- Shows a value together with its text. -/
def valueListing (m : Memory) (v : Value) : Json := listOutcome m.functionListings (.ok v)

/-- Shows an operation with what is known about it. -/
def opListing (m : Memory) (op : Code.Op) : List (String × Json) :=
  [("op", op.listing m.functionListings), ("constant", .bool op.isConstant),
    ("type", .string op.staticType.name)]

/-- Shows a compiled definition: its operation, and whether a fresh copy of it, as it is and
specialised, looks the same. -/
def definitionListing (m : Memory) (name : String) (op : Code.Op) : Json :=
  let text (op : Code.Op) : String := (op.listing m.functionListings).text
  let copy := op.mapSites m.shiftSites.1
  .object (("name", .string name) :: m.opListing op ++
    [("refresh_same", .bool (text copy == text op)),
      ("specialize_same", .bool (text copy.specialize == text op))])

end Memory

end CellScript
