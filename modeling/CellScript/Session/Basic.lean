import CellScript.Diagnostic
import CellScript.Eval.Demand
import CellScript.Session.Layout

/-!
# Sessions

A session holds a compiled program with its static memory and answers requests for values. Nothing
is evaluated before it is asked for, and what was evaluated is kept for later requests. Exceptions
that no program catches are also reported as diagnostics.
-/

namespace CellScript

open Code (Options)

/-- A program that is ready to answer requests. -/
structure Session where
  analysis : Analysis
  memory : Memory
  /-- The space with one cell for each unit. -/
  units : SpaceId
  diagnostics : List Diagnostic

namespace Session

/-- Compiles an analysed program and lays out its static memory. -/
def start (options : Options) (program : UnitSet) (analysis : Analysis) :
    Except Exception Session := do
  let compiled := (Compiler.program ⟨analysis, options⟩ program |>.run ⟨.initial, []⟩).2
  let (units, laidOut) ←
    (Layout.program analysis.arena compiled.templates).run ⟨compiled.memory, []⟩
  return ⟨analysis, laidOut.memory, units, []⟩

/-! ## Running -/

variable {α : Type}

/-- Runs a step of evaluation in a new chain of calls. -/
def run (s : Session) (x : Eval α) : Answer α × Session :=
  let (answer, machine) := Machine.run ⟨s.memory, .ofUnits s.units⟩ x
  (answer, { s with memory := machine.memory })

/-- The context under which exceptions are reported. -/
def reportContext : String := "interpreter"

/-- The diagnostic of an exception that no program has caught. -/
def diagnosticOf (e : Exception) : Diagnostic :=
  ⟨.error, e.message, e.span.bind Span.positioned?, [], some reportContext, some e.code.name⟩

/-- Reports the exception of an answer. -/
def report : Answer α × Session → Answer α × Session
  | (.error (.raised e), s) =>
    (.error (.raised e), { s with diagnostics := s.diagnostics ++ [diagnosticOf e] })
  | other => other

/-- Answers a request about something that was looked up first. -/
def whenFound {β : Type} (s : Session) (found : Except Exception β)
    (f : β → Answer α × Session) : Answer α × Session :=
  match found with
  | .ok b => f b
  | .error e => (.error (.raised e), s)

/-! ## Finding cells and spaces -/

def unresolved (path : String) (names : List String) : Exception :=
  .of .unresolvedReference ("Cannot resolve " ++ path ++ "::" ++ ".".intercalate names)

def notAValue (path : String) (names : List String) : Exception :=
  .of .invalidReferenceTarget (path ++ "::" ++ ".".intercalate names ++ " is not a value")

/-- Follows slots from a space through the members of cells to the last slot. -/
def cellAt (m : Memory) (missing : Exception) (space : SpaceId) :
    List Nat → Except Exception CellId
  | [] => .error missing
  | [slot] => m.cellIn space slot
  | slot :: rest => do
    match (m.cell (← m.cellIn space slot)).members with
    | some members => cellAt m missing members rest
    | none => .error missing

/-- The cell of the definition that a path of names denotes in a unit. -/
def find (s : Session) (path : String) (names : List String) : Except Exception CellId :=
  let arena := s.analysis.arena
  let missing := unresolved path names
  match (s.analysis.member? path names).bind arena.targetOf? with
  | none => .error missing
  | some symbol =>
    if (arena.symbol symbol).target != .var then .error (notAValue path names)
    else match arena.absolutePath? symbol with
      | none => .error missing
      | some slots => cellAt s.memory missing s.units slots

/-- The space of a unit. -/
def unitSpace (s : Session) (path : String) : Except Exception SpaceId := do
  match s.analysis.unit? path with
  | none => .error (.of .unresolvedReference ("Unknown unit " ++ path))
  | some symbol =>
    let id ← s.memory.cellIn s.units (s.analysis.arena.symbol symbol).slot
    match (s.memory.cell id).members with
    | some members => return members
    | none => .error (.internal ("Unit " ++ path ++ " has no member space"))

/-- The space of the section of an interactive unit that stands inside a module. -/
def sectionSpace (s : Session) (path module : String) : Except Exception SpaceId := do
  let unit ← s.unitSpace path
  match (s.memory.named? unit module).bind fun id => (s.memory.cell id).members with
  | some members => return members
  | none =>
    .error (.of .unresolvedReference (path ++ " has no section for module " ++ module))

/-! ## Requests

Every request takes the supply that meets its demands, or else the fuel it may use. -/

section By

variable (supply : Supply)

/-- Asks for all definitions in a space and in the spaces inside it, at most `depth` levels deep. -/
def forceAll : Nat → SpaceId → Eval PUnit
  | 0, _ => pure ⟨⟩
  | depth + 1, space => do
    ((← Eval.memory).cellsOf space).forM fun id => do
      let cell := (← Eval.memory).cell id
      match cell.members with
      | some members => forceAll depth members
      | none => if cell.shape.init.isSome then discard (supply (.force id))

/-- The value of the definition that a path of names denotes in a unit. -/
def varBy (path : String) (names : List String) (s : Session) : Answer Value × Session :=
  s.whenFound (s.find path names) fun id => report (s.run (supply (.force id)))

/-- Evaluates a space that was looked up, and answers with it. -/
def spaceBy (found : Except Exception SpaceId) (s : Session) : Answer SpaceId × Session :=
  s.whenFound found fun id => report (s.run do
    forceAll supply s.memory.spaces.size id
    return id)

/-- Evaluates all definitions of a unit and answers with its space. -/
def unitBy (path : String) (s : Session) : Answer SpaceId × Session :=
  spaceBy supply (s.unitSpace path) s

/-- Evaluates all definitions of one section of an interactive unit and answers with its space. -/
def sectionBy (path module : String) (s : Session) : Answer SpaceId × Session :=
  spaceBy supply (s.sectionSpace path module) s

/-- Calls a function with arguments in a new chain of calls. -/
def callBy (function : FunctionId) (args : List CallArgument) (s : Session) :
    Answer Value × Session :=
  s.run (Eval.callBound supply function args)

end By

variable (fuel : Nat)

/-- The value of a definition, with limited fuel. -/
def var : String → List String → Session → Answer Value × Session := varBy (.ofFuel fuel)

/-- The space of a unit with all definitions evaluated, with limited fuel. -/
def unit : String → Session → Answer SpaceId × Session := unitBy (.ofFuel fuel)

/-- The space of a section with all definitions evaluated, with limited fuel. -/
def interactiveSection : String → String → Session → Answer SpaceId × Session :=
  sectionBy (.ofFuel fuel)

/-- The result of a function, with limited fuel. -/
def call : FunctionId → List CallArgument → Session → Answer Value × Session :=
  callBy (.ofFuel fuel)

/-- What is shown of a cell: a dictionary of its members, or the value of a definition if it is
known. -/
def shown (inner : SpaceId → Eval Value) (cell : Cell) : Eval (Option Value) := do
  match cell.members with
  | some members => return some (← inner members)
  | none => return if cell.shape.init.isSome then cell.value else none

/-- The entries of a dictionary that shows some cells. -/
def entriesOf (inner : SpaceId → Eval Value) : List CellId → Eval (Entries Value)
  | [] => return []
  | id :: rest => do
    let cell := (← Eval.memory).cell id
    match ← shown inner cell with
    | some v => return Entries.ofList ((cell.name, v) :: (← entriesOf inner rest))
    | none => entriesOf inner rest

/-- The values known in a space, as a dictionary at most `depth` levels deep. -/
def spaceValues : Nat → SpaceId → Eval Value
  | 0, _ => Eval.newDict []
  | depth + 1, space => do
    Eval.newDict (← entriesOf (spaceValues depth) ((← Eval.memory).cellsOf space))

/-- The values known in a space. -/
def values (space : SpaceId) (s : Session) : Answer Value × Session :=
  s.run (spaceValues s.memory.spaces.size space)

/-- The values known in the space that a request was answered with. -/
def valuesOf : Answer SpaceId × Session → Answer Value × Session
  | (.ok space, s) => s.values space
  | (.error e, s) => (.error e, s)

end Session

end CellScript
