import CellScript.Code.Static
import CellScript.Value.Cast

/-!
# Specialisation

Replaces an operation by one that does the same with less work: stretches of constant items are laid
out once, calls of known functions skip the callee, arithmetic on operands of known type tries the
matching computation first. Only the outermost action changes; the parts are expected to be
specialised before.
-/

namespace CellScript.Code

/-- The items that a constant item contributes. -/
def Item.constants? : Item → Option (List Value)
  | .value op => op.constant?.map ([·])
  | .splat op => op.constant?.bind fun v => v.spreadItems.toOption

/-- An item as a stretch of its own. -/
def Item.segment : Item → ListSegment
  | .value op => .value op
  | .splat op => .splat op

/-- A stretch of constant values, unless it is empty. -/
def constantRun (run : List Value) : List ListSegment :=
  if run.isEmpty then [] else [.constant run]

/-- Joins neighbouring constant items; `run` holds those met last. -/
def listSegments (run : List Value) : List Item → List ListSegment
  | [] => constantRun run
  | item :: rest =>
    match item.constants? with
    | some values => listSegments (run ++ values) rest
    | none => constantRun run ++ item.segment :: listSegments [] rest

/-- The key of a constant entry, converted. -/
def constantKey? (key : Op) : Option String := key.constant?.bind fun v => v.toKey.toOption

/-- The entries that a constant entry contributes. -/
def Entry.constants? : Entry → Option (Entries Value)
  | .pair key value => do return [(← constantKey? key, ← value.constant?)]
  | .splat op => op.constant?.bind fun v => v.spreadEntries.toOption

/-- An entry as a stretch of its own. -/
def Entry.segment : Entry → DictSegment
  | .pair key value =>
    match constantKey? key with
    | some known => .pair known value
    | none => .dynamic key value
  | .splat op => .splat op

/-- A stretch of constant entries, if there was any. -/
def mergedRun (run : Option (Entries Value)) : List DictSegment :=
  run.toList.map .constant

/-- Merges neighbouring constant entries; `run` holds those met last. -/
def dictSegments (run : Option (Entries Value)) : List Entry → List DictSegment
  | [] => mergedRun run
  | entry :: rest =>
    match entry.constants? with
    | some entries => dictSegments (some (Entries.merge (run.getD []) entries)) rest
    | none => mergedRun run ++ entry.segment :: dictSegments none rest

/-- An entry that mentions a constant key or spreads a constant. -/
def Entry.isPartlyConstant : Entry → Bool
  | .pair key _ => key.constant?.isSome
  | .splat op => op.constant?.isSome

/-- The operations of arguments that are all given by position. -/
def positionals? : List Argument → Option (List Op)
  | [] => some []
  | .positional op :: rest => (positionals? rest).map (op :: ·)
  | _ :: _ => none

/-- The mode of arithmetic on operands of these types. -/
def numericMode (left right : Ty) : NumericMode :=
  match left, right with
  | .long, .long => .longs
  | .double, .double => .doubles
  | _, _ => .generic

/-- A narrower action that does the same. -/
def Action.specialize : Action → Action
  | .binary op mode l r =>
    if op.isArithmetic && mode == .generic then
      .binary op (numericMode l.staticType r.staticType) l r
    else .binary op mode l r
  | .call callee args =>
    match callee.constant?, positionals? args with
    | some (.function id signature), some ops => .fixedCall id signature ops
    | _, _ => .call callee args
  | .list items =>
    if items.any fun item => item.op.constant?.isSome then .patchedList (listSegments [] items)
    else .list items
  | .dict entries =>
    if entries.any Entry.isPartlyConstant then .mergedDict (dictSegments none entries)
    else .dict entries
  | .access container [key] =>
    match key.constant? with
    | some v => .keyAccess container v
    | none => .access container [key]
  | action => action

/-- A narrower operation that does the same. -/
def Op.specialize (op : Op) : Op := { op with action := op.action.specialize }

end CellScript.Code
