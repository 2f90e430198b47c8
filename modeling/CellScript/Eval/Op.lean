import CellScript.Eval.Binary
import CellScript.Eval.Function
import CellScript.Value.Cast

/-!
# Evaluation of operations

`Op.eval` evaluates an operation in a space. It recurses over the operation alone; values of cells
and results of calls are asked from a `Supply`, which also watches every operation. Parts are
evaluated from left to right, and the first exception ends the evaluation.
-/

namespace CellScript

/-- Slots of a clause with the parts of the subject they receive. -/
abbrev Bindings := List (Nat × Value)

/-- The values of arguments that are all given by position. -/
def CallArgument.positionals? : List CallArgument → Option (List Value)
  | [] => some []
  | .positional v :: rest => (positionals? rest).map (v :: ·)
  | _ :: _ => none

namespace Eval

/-- Binds the cell in a slot. -/
def bindSlot (supply : Supply) (space : SpaceId) (slot : Nat) (v : Value) : Eval PUnit := do
  supply.bind (← ask (·.cellIn space slot)) v

/-- Binds the cells in several slots, in order. -/
def bindSlots (supply : Supply) (space : SpaceId) (bindings : Bindings) : Eval PUnit :=
  bindings.forM fun binding => bindSlot supply space binding.1 binding.2

/-- Binds arguments to the parameters of a function and calls it. -/
def callBound (supply : Supply) (id : FunctionId) (args : List CallArgument) : Eval Value := do
  let values ← ask fun m => (m.function id).bind args
  supply (.call id values)

/-- Calls a function with evaluated arguments. There is nothing to bind if all are given by
position. -/
def callWith (supply : Supply) (id : FunctionId) (args : List CallArgument) : Eval Value :=
  match CallArgument.positionals? args with
  | some values => supply (.call id values)
  | none => callBound supply id args

/-- A part of a list as the binding of a slot, if there is one. -/
def bindList (slot : Option Nat) (items : List Value) : Eval Bindings := do
  match slot with
  | none => return []
  | some slot => return [(slot, ← newList items)]

/-- A part of a dictionary as the binding of a slot, if there is one. -/
def bindDict (slot : Option Nat) (entries : Entries Value) : Eval Bindings := do
  match slot with
  | none => return []
  | some slot => return [(slot, ← newDict entries)]

/-- The subject matches as a whole or not at all. -/
def matched (holds : Bool) : Option Bindings := if holds then some [] else none

/-- Binds what a catch clause gets to know of the caught exception. -/
def bindCaught (supply : Supply) (error trace : Option Nat) (e : Exception) (block : SpaceId) :
    Eval PUnit := do
  error.forM fun slot => do bindSlot supply block slot (e.caughtValue (← create Memory.newObject))
  trace.forM fun slot => do bindSlot supply block slot (e.traceValue (← create Memory.newObject))

end Eval

namespace Code

open Eval

/-- The pattern `is ty`: nil is of no type but `any`. -/
def matchesType (subject : Value) (ty : Ty) : Bool :=
  ty == .any || (!subject.isNil && subject.ty == ty)

mutual

/-- Evaluates an operation in a space. -/
def Op.eval (supply : Supply) (space : SpaceId) : Op → Eval Value
  | ⟨span, action⟩ =>
    supply.watch ⟨span, action⟩ space (located span (action.eval supply space))

def Action.eval (supply : Supply) (space : SpaceId) : Action → Eval Value
  | .constant v => pure v
  | .fail fault => raise (.ofFault fault)
  | .reference ref _ => reference supply space ref
  | .list items => do newList (← evalItems supply space items)
  | .patchedList segments => do newList (← evalListSegments supply space segments)
  | .dict entries => do newDict (← evalEntries supply space [] entries)
  | .mergedDict segments => do newDict (← evalDictSegments supply space [] segments)
  | .function params returns body template captures region => do
    let defaults ← evalDefaults supply space params
    let captured ← captures.mapM (capture supply space)
    let closure ← newClosure captured
    create (·.newFunction
      ⟨⟨params.map fun p => (p.ty, p.name), returns⟩, defaults,
        .literal body template closure region⟩)
  | .call callee args => do
    match ← callee.eval supply space with
    | .function id _ => do callWith supply id (← evalArguments supply space args)
    | v => raise (.notCallable v)
  | .fixedCall id _ args => do supply (.call id (← evalOps supply space args))
  | .curry callee args => do
    match ← callee.eval supply space with
    | .function id _ => do curry id (← evalNamed supply space args)
    | v => raise (.notCurryable v)
  | .letIn template body => within (·.child template space) fun block => body.eval supply block
  | .ifElse c t e => do
    if (← c.eval supply space).truthy then t.eval supply space else e.eval supply space
  | .matchOn subject lines => do evalLines supply space (← subject.eval supply space) lines
  | .forEach template heads body => within (·.child template space) fun block => do
    newList (← runHeads supply (fun inner => body.eval supply inner) block heads)
  | .binary .and _ l r => do
    if (← l.eval supply space).truthy then return .boolean (← r.eval supply space).truthy
    else return .boolean false
  | .binary .or _ l r => do
    if (← l.eval supply space).truthy then return .boolean true
    else return .boolean (← r.eval supply space).truthy
  | .binary op mode l r => do
    let a ← l.eval supply space
    let b ← r.eval supply space
    ofExcept (Value.binaryIn mode op a b)
  | .unary op e => do ofExcept (Value.unary op (← e.eval supply space))
  | .cast e ty => do Eval.cast (← e.eval supply space) ty
  | .isOf e ty => return .boolean ((← e.eval supply space).isOf ty)
  | .access container keys => do
    let v ← container.eval supply space
    let keys ← evalOps supply space keys
    ofExcept (v.accessAll keys)
  | .keyAccess container key => do ofExcept ((← container.eval supply space).access key)
  | .tryCatch body template error trace handler => do
    match ← attempt (body.eval supply space) with
    | .ok v => return v
    | .error e => within (·.child template space) fun block => do
      bindCaught supply error trace e block
      handler.eval supply block
  | .throw e => do
    let v ← e.eval supply space
    raise ((Exception.ofThrown v).orTrace (← context).trace)

def evalOps (supply : Supply) (space : SpaceId) : List Op → Eval (List Value)
  | [] => pure []
  | op :: rest => do
    let v ← op.eval supply space
    return v :: (← evalOps supply space rest)

def evalItems (supply : Supply) (space : SpaceId) : List Item → Eval (List Value)
  | [] => pure []
  | .value op :: rest => do
    let v ← op.eval supply space
    return v :: (← evalItems supply space rest)
  | .splat op :: rest => do
    let vs ← ofExcept (← op.eval supply space).spreadItems
    return vs ++ (← evalItems supply space rest)

def evalListSegments (supply : Supply) (space : SpaceId) : List ListSegment → Eval (List Value)
  | [] => pure []
  | .constant run :: rest => return run ++ (← evalListSegments supply space rest)
  | .value op :: rest => do
    let v ← op.eval supply space
    return v :: (← evalListSegments supply space rest)
  | .splat op :: rest => do
    let vs ← ofExcept (← op.eval supply space).spreadItems
    return vs ++ (← evalListSegments supply space rest)

/-- Adds entries one after the other, so that later ones override earlier ones. -/
def evalEntries (supply : Supply) (space : SpaceId) (entries : Entries Value) :
    List Entry → Eval (Entries Value)
  | [] => pure entries
  | .pair k v :: rest => do
    let key ← ofExcept (← k.eval supply space).toKey
    let value ← v.eval supply space
    evalEntries supply space (entries.insert key value) rest
  | .splat op :: rest => do
    let more ← ofExcept (← op.eval supply space).spreadEntries
    evalEntries supply space (entries.merge more) rest

def evalDictSegments (supply : Supply) (space : SpaceId) (entries : Entries Value) :
    List DictSegment → Eval (Entries Value)
  | [] => pure entries
  | .constant run :: rest => evalDictSegments supply space (entries.merge run) rest
  | .pair key v :: rest => do
    let value ← v.eval supply space
    evalDictSegments supply space (entries.insert key value) rest
  | .dynamic k v :: rest => do
    let key ← ofExcept (← k.eval supply space).toKey
    let value ← v.eval supply space
    evalDictSegments supply space (entries.insert key value) rest
  | .splat op :: rest => do
    let more ← ofExcept (← op.eval supply space).spreadEntries
    evalDictSegments supply space (entries.merge more) rest

/-- Defaults of all parameters, nil where there is none. -/
def evalDefaults (supply : Supply) (space : SpaceId) : List Param → Eval (List Value)
  | [] => pure []
  | ⟨_, _, none⟩ :: rest => return .nil :: (← evalDefaults supply space rest)
  | ⟨_, ty, some op⟩ :: rest => do
    let v ← Eval.cast (← op.eval supply space) ty
    return v :: (← evalDefaults supply space rest)

def evalArguments (supply : Supply) (space : SpaceId) : List Argument → Eval (List CallArgument)
  | [] => pure []
  | .positional op :: rest => do
    let v ← op.eval supply space
    return .positional v :: (← evalArguments supply space rest)
  | .named name op :: rest => do
    let v ← op.eval supply space
    return .named name v :: (← evalArguments supply space rest)
  | .splat op :: rest => do
    let v ← op.eval supply space
    return .splat v :: (← evalArguments supply space rest)

def evalNamed (supply : Supply) (space : SpaceId) : List Named → Eval (List (String × Value))
  | [] => pure []
  | ⟨name, op⟩ :: rest => do
    let v ← op.eval supply space
    return (name, v) :: (← evalNamed supply space rest)

/-- A missing guard always accepts. -/
def accepts (supply : Supply) (space : SpaceId) : Option Op → Eval Bool
  | none => pure true
  | some guard => return (← guard.eval supply space).truthy

/-- The first line whose pattern matches and whose guard accepts gives the value; nil if there is
none. The space of a line that does not accept is gone when the next one is tried. -/
def evalLines (supply : Supply) (space : SpaceId) (subject : Value) : List Line → Eval Value
  | [] => pure .nil
  | ⟨pattern, template, guard, result⟩ :: rest => do
    match ← pattern.captures supply space subject with
    | none => evalLines supply space subject rest
    | some bindings =>
      let value ← within (·.child template space) fun clause => do
        bindSlots supply clause bindings
        if ← accepts supply clause guard then return some (← result.eval supply clause)
        else return none
      match value with
      | some v => return v
      | none => evalLines supply space subject rest

/-- The values of `body` for all combinations that the heads admit, in order. Each item of a
generator gets a copy of the block of its own. -/
def runHeads (supply : Supply) (body : SpaceId → Eval Value) (block : SpaceId) :
    List Head → Eval (List Value)
  | [] => return [← body block]
  | .generator slot ty source :: rest => do
    let items ← ofExcept (← source.eval supply block).generated
    let values ← items.mapM fun item => within (·.fork block) fun iteration => do
      let id ← ask (·.cellIn iteration slot)
      supply.bind id (← Eval.cast item ty)
      runHeads supply body iteration rest
    return values.flatten
  | .definition slot :: rest => do
    let _ ← supply (.force (← ask (·.cellIn block slot)))
    runHeads supply body block rest
  | .condition op :: rest => do
    if (← op.eval supply block).truthy then runHeads supply body block rest else return []

/-- What a pattern captures of a subject, none if the subject does not match. Expressions in the
pattern are evaluated in the space of the match. -/
def Pattern.captures (supply : Supply) (space : SpaceId) (subject : Value) :
    Pattern → Eval (Option Bindings)
  | ⟨shape, whole⟩ => do
    match ← shape.captures supply space subject with
    | none => return none
    | some bindings => return some (bindings ++ whole.toList.map fun slot => (slot, subject))

def Shape.captures (supply : Supply) (space : SpaceId) (subject : Value) :
    Shape → Eval (Option Bindings)
  | .expr op => do
    match ← op.eval supply space with
    | .function id _ => return matched (← supply (.call id [subject])).truthy
    | expected => return matched (subject.equals expected)
  | .any => pure (some [])
  | .ofType ty => pure (matched (matchesType subject ty))
  | .list items => do
    match subject with
    | .list _ values =>
      if values.length == items.length then capturesOfAll supply space values items
      else return none
    | _ => return none
  | .headTail head tail => do
    match subject with
    | .list _ values =>
      if values.length < head.length then return none
      else
        match ← capturesOfAll supply space values head with
        | none => return none
        | some bindings => return some (bindings ++ (← bindList tail (values.drop head.length)))
    | _ => return none
  | .initLast init last => do
    match subject with
    | .list _ values =>
      if values.length < last.length then return none
      else
        let split := values.length - last.length
        match ← capturesOfAll supply space (values.drop split) last with
        | none => return none
        | some bindings => return some (bindings ++ (← bindList init (values.take split)))
    | _ => return none
  | .middle head mid last => do
    match subject with
    | .list _ values =>
      if values.length < head.length + last.length then return none
      else
        let split := values.length - last.length
        match ← capturesOfAll supply space values head with
        | none => return none
        | some first =>
          match ← capturesOfAll supply space (values.drop split) last with
          | none => return none
          | some second =>
            let between := (values.take split).drop head.length
            return some (first ++ second ++ (← bindList mid between))
    | _ => return none
  | .dict entries => do
    match subject with
    | .dict _ found =>
      if found.length == entries.length then capturesOfEntries supply space found entries
      else return none
    | _ => return none
  | .openDict entries rest => do
    match subject with
    | .dict _ found =>
      match ← capturesOfEntries supply space found entries with
      | none => return none
      | some bindings =>
        let others := found.filter fun entry => !entries.any fun named => named.key == entry.1
        return some (bindings ++ (← bindDict rest others))
    | _ => return none

/-- Matches values against patterns in order; values beyond the last pattern are left alone. -/
def capturesOfAll (supply : Supply) (space : SpaceId) (values : List Value) :
    List Pattern → Eval (Option Bindings)
  | [] => pure (some [])
  | p :: rest => do
    match values with
    | [] => return some []
    | v :: values =>
      match ← p.captures supply space v with
      | none => return none
      | some first =>
        match ← capturesOfAll supply space values rest with
        | none => return none
        | some more => return some (first ++ more)

/-- Matches the values under the named keys. -/
def capturesOfEntries (supply : Supply) (space : SpaceId) (found : Entries Value) :
    List KeyPattern → Eval (Option Bindings)
  | [] => pure (some [])
  | ⟨key, p⟩ :: rest => do
    match found.get? key with
    | none => return none
    | some v =>
      match ← p.captures supply space v with
      | none => return none
      | some first =>
        match ← capturesOfEntries supply space found rest with
        | none => return none
        | some more => return some (first ++ more)

end

end Code

end CellScript
