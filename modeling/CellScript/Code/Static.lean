import CellScript.Code.Op

/-!
# What is known before evaluation

`Op.isConstant` says that an operation depends on nothing outside itself; `Op.staticType` is the
type of its value as far as it is known without evaluating.
-/

namespace CellScript.Code

/-- Operators whose result can be computed in advance. Division and ordering are left to run time,
where they may fail. -/
def foldable : BinaryOp → Bool
  | .add | .sub | .mul | .and | .or | .concat | .equal | .notEqual | .identical
  | .notIdentical => true
  | .div | .intDiv | .mod | .pow | .less | .lessEqual | .greater | .greaterEqual => false

mutual

/-- Evaluation neither looks at a cell nor calls a function. -/
def Op.isConstant : Op → Bool
  | ⟨_, action⟩ => action.isConstant

def Action.isConstant : Action → Bool
  | .constant _ => true
  | .list items => constantItems items
  | .patchedList segments => constantListSegments segments
  | .dict entries => constantEntries entries
  | .mergedDict segments => constantDictSegments segments
  | .function params _ _ _ captures _ => captures.isEmpty && constantDefaults params
  | .ifElse c t e => c.isConstant && t.isConstant && e.isConstant
  | .binary op _ l r => foldable op && l.isConstant && r.isConstant
  | .unary _ e => e.isConstant
  | .cast e _ => e.isConstant
  | .isOf e _ => e.isConstant
  | .fail _ | .reference _ _ | .call _ _ | .fixedCall _ _ _ | .curry _ _ | .letIn _ _ | .matchOn _ _
  | .forEach _ _ _ | .access _ _ | .keyAccess _ _ | .tryCatch _ _ _ _ _ | .throw _ => false

def constantItems : List Item → Bool
  | [] => true
  | .value op :: rest => op.isConstant && constantItems rest
  | .splat op :: rest => op.isConstant && constantItems rest

def constantListSegments : List ListSegment → Bool
  | [] => true
  | .constant _ :: rest => constantListSegments rest
  | .value _ :: _ => false
  | .splat _ :: _ => false

def constantEntries : List Entry → Bool
  | [] => true
  | .pair k v :: rest => k.isConstant && v.isConstant && constantEntries rest
  | .splat op :: rest => op.isConstant && constantEntries rest

def constantDictSegments : List DictSegment → Bool
  | [] => true
  | .constant _ :: rest => constantDictSegments rest
  | .pair _ _ :: _ => false
  | .dynamic _ _ :: _ => false
  | .splat _ :: _ => false

def constantDefaults : List Param → Bool
  | [] => true
  | ⟨_, _, none⟩ :: rest => constantDefaults rest
  | ⟨_, _, some op⟩ :: rest => op.isConstant && constantDefaults rest

end

/-- The type of a binary operation on operands of these types. -/
def binaryType (op : BinaryOp) (left right : Ty) : Ty :=
  match op with
  | .add | .sub | .mul | .mod => Ty.numericResult left right
  | .div =>
    if left == .decimal || right == .decimal then Ty.numericResult left right
    else if left.isNumeric && right.isNumeric then .double
    else .any
  | .intDiv => .long
  | .pow => .double
  | .concat => .string
  | .equal | .notEqual | .identical | .notIdentical | .less | .lessEqual | .greater | .greaterEqual
  | .and | .or => .boolean

mutual

/-- The type of the value, `any` if it is not known. A value of known type may still be nil. -/
def Op.staticType : Op → Ty
  | ⟨_, action⟩ => action.staticType

def Action.staticType : Action → Ty
  | .constant v => v.ty
  | .reference ref _ => ref.ty
  | .list _ | .patchedList _ => .list
  | .dict _ | .mergedDict _ => .dict
  | .function .. | .curry _ _ => .function
  | .fixedCall _ signature _ => signature.returns
  | .binary op _ l r => binaryType op l.staticType r.staticType
  | .unary .negate e => e.staticType
  | .unary .not _ => .boolean
  | .cast _ target => target
  | .isOf _ _ => .boolean
  | .fail _ | .call _ _ | .letIn _ _ | .ifElse _ _ _ | .matchOn _ _ | .forEach _ _ _ | .access _ _
  | .keyAccess _ _ | .tryCatch _ _ _ _ _ | .throw _ => .any

end

end CellScript.Code
