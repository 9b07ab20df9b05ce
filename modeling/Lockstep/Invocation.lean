import Lockstep.Machine.Sink
import Lockstep.Program.Document

/-!
# Invocations

A program that has its externals attached can be invoked in two ways: for a
single element, whose arguments and results are words, or for many elements,
whose arguments and results are columns with one word for each element.
Columns are worked off in chunks of as many elements as there are lanes, each
chunk on a fresh machine.

The buffers are written in place.  Results are written by the step that returns
from the outermost function, through a sink; after that the arguments that go
back are copied out of the entry frame.  The buffers come back in every case, as
they have been left.
-/

namespace Lockstep

/-- A program with the externals attached to it. -/
structure Linked (σ : Type) where
  program : Program
  externals : List (External σ)

/-- What an invocation asks for, its buffers apart. -/
structure Invocation where
  handle : Nat
  uniforms : List Word
  inputs : Option (List Word)

/-- How an invocation ends: its budget of steps may be exhausted. -/
inductive Ending where
  | completed
  | failed (failure : Failure)
  | exhausted
deriving DecidableEq

/-- How an invocation ended, and its buffers afterwards. -/
structure Result (β : Type) where
  ending : Ending
  arguments : List β
  returns : List β
deriving DecidableEq

/-! ## Acceptance -/

/-- Refuse a declared nesting that the machine cannot hold. -/
def Function.checkCalleeDepth (function : Function) (nesting : Nesting) (depth : Nat) :
    Except Fault Unit :=
  if depth < predicateCapacity then .ok ()
  else .error (.capacity (.calleeDepth function.name nesting depth))

/-- Refuse buffers that do not match, and then frames that do not fit. -/
def Program.checkCall (program : Program) (function : Function) (arguments : Nat)
    (returns : Option Nat) (uniforms : Nat) (inputs : Option Nat) :
    Except Fault Unit := do
  let some declared := function.declaredSlots
    | throw (.shape (.calleeWidthsOverflow function.name))
  if declared ≠ function.parameterCount then
    throw (.shape (.calleeWidthsDiffer declared function.parameterCount))
  if arguments ≠ function.parameterCount then
    throw (.shape (.argumentSlots arguments function.name function.parameterCount))
  if let some given := returns then
    if given ≠ function.returnCount then
      throw (.shape (.returnSlots given function.name function.returnCount))
  if uniforms ≠ program.uniformCount then
    throw (.shape (.uniforms uniforms program.uniformCount))
  if let some given := inputs then
    if given ≠ program.inputMap.length then
      throw (.shape (.inputs given program.inputMap.length))
  if function.stackNeed > stackCapacity then
    throw (.capacity (.calleeFrame function.name function.parameterCount
      function.localCount function.stackCount))
  if program.globalCount > globalCapacity then
    throw (.capacity (.globals program.globalCount))
  function.checkCalleeDepth .condition function.conditionDepth
  function.checkCalleeDepth .loop function.loopDepth

/-- The function that an invocation asks for, if its buffers have the right shape. -/
def Program.prepare (program : Program) (invocation : Invocation) (arguments : Nat)
    (returns : Option Nat) : Except Failure Function :=
  match program.functions[invocation.handle]? with
  | none => .error (.fault
      (.shape (.noSuchFunction invocation.handle program.functions.length)))
  | some function =>
      match program.checkCall function arguments returns invocation.uniforms.length
          (invocation.inputs.map List.length) with
      | .ok () => .ok function
      | .error fault => .error (.fault fault)

/-! ## Machines for a batch -/

/-- Put each input into the global that it is mapped to. -/
def Program.seed (program : Program) (inputs : List Word) :
    Except Failure (RegisterFile globalCapacity) :=
  ((program.inputMap.zip inputs).zipIdx).foldlM
    (fun globals ((slot, word), input) =>
      if slot < program.globalLimit then globals.writeRun slot [.splat word]
      else .error (.fault (.shape (.inputSlot input slot program.globalLimit))))
    (.blank globalCapacity)

/-- The machine in which the outermost function is about to start. -/
def Machine.boot (program : Program) (function : Function) (lanes : Nat)
    (inputs : Option (List Word)) (arguments : List Register) :
    Except Failure Machine := do
  let globals ← program.seed (inputs.getD [])
  let registers ← (RegisterFile.blank stackCapacity).writeRun 0 arguments
  let machine : Machine := {
    registers := registers
    top := 0
    globals := globals
    predicates := .start lanes
    current := {
      function := function
      offset := 0
      base := 0
      floor := 0
      frameSize := 0
      argumentCount := 0 }
    callers := [] }
  machine.enter function 0

variable {σ β : Type}

/-- What stays fixed while a batch of an invocation runs. -/
def Linked.batch (linked : Linked σ) (invocation : Invocation) (firstElement : Nat) :
    Batch σ where
  program := linked.program
  externals := linked.externals
  uniforms := invocation.uniforms
  firstElement := firstElement

/-- What a batch gives: the machine at the outermost return and the returned registers. -/
abbrev BatchResult : Type := Option (Except Failure (Machine × List Register))

/-- Start a machine for the elements of one batch, and run it. -/
def Linked.launch {τ : Type} (linked : Linked σ) (invocation : Invocation)
    (function : Function) (lanes : Nat) (arguments : List Register)
    (run : Machine → StateM τ BatchResult) : StateM τ BatchResult :=
  match Machine.boot linked.program function lanes invocation.inputs arguments with
  | .error failure => return some (.error failure)
  | .ok machine => run machine

/-- How a call ends that is completed by a check. -/
def Ending.of : Except Failure Unit → Ending
  | .ok () => .completed
  | .error failure => .failed failure

/-- Copy arguments back from the machine of a batch, if it has returned. -/
def settle (giveBack : Machine → Session (List β) Unit) (arguments : List β) :
    BatchResult × σ × List β → Result β × σ
  | (none, later, returns) => (⟨.exhausted, arguments, returns⟩, later)
  | (some (.error failure), later, returns) =>
      (⟨.failed failure, arguments, returns⟩, later)
  | (some (.ok (machine, _)), later, returns) =>
      let (copied, arguments) := (giveBack machine).run arguments
      (⟨.of copied, arguments, returns⟩, later)

/--
Run a function on the elements of one batch: write what it returns into a sink,
and then copy arguments back.
-/
def Linked.serve (linked : Linked σ) (budget : Nat) (invocation : Invocation)
    (function : Function) (firstElement lanes : Nat) (registers : List Register)
    (sink : Sink (List β)) (giveBack : Machine → Session (List β) Unit)
    (arguments returns : List β) : StateM σ (Result β) := fun host =>
  let running := linked.launch invocation function lanes registers
    (Machine.runInto (linked.batch invocation firstElement) sink budget)
  settle giveBack arguments (running.run (host, returns))

/-- The word of an argument slot in the lane with a given number. -/
def Machine.argument (machine : Machine) (slot number : Nat) : Except Failure Word := do
  let registers ← machine.registers.readRun slot 1
  wordOf (registers.headD .zero) number

/-- The register that holds some words in its first lanes and zeros in the others. -/
def packWords (words : List Word) : Register :=
  .ofFn fun lane => words.getD lane.val 0

/-! ## Single elements -/

/-- Copy the arguments that go back to the caller. -/
def Function.giveBack (function : Function) (machine : Machine) :
    Session (List Word) Unit :=
  function.outSlots.forM fun slot => do
    let word ← Session.ofExcept (machine.argument slot 0)
    writeWord slot word

/-- Run a function for a single element. -/
def Linked.run (linked : Linked σ) (budget : Nat) (invocation : Invocation)
    (arguments returns : List Word) : StateM σ (Result Word) :=
  match linked.program.prepare invocation arguments.length (some returns.length) with
  | .error failure => return ⟨.failed failure, arguments, returns⟩
  | .ok function =>
      linked.serve budget invocation function 0 1
        (arguments.map fun word => packWords [word])
        (.interleaved 1) function.giveBack arguments returns

/-! ## Columns -/

/-- The words of a chunk of elements. -/
def Column.chunk (column : Column) (offset lanes : Nat) : Except Failure (List Word) :=
  if offset + lanes ≤ column.length then .ok ((column.drop offset).take lanes)
  else .error .trap

/-- The words of a chunk of elements in a register, which has a lane for each of them. -/
def Column.pack (column : Column) (offset lanes : Nat) : Except Failure Register := do
  let words ← column.chunk offset lanes
  if laneCount < words.length then
    throw .trap
  return packWords words

/-- Refuse columns that are shorter than the number of elements. -/
def checkColumns (role : ColumnRole) (columns : List Column) (count : Nat) :
    Except Failure Unit :=
  columns.zipIdx.forM fun (column, position) =>
    if column.length < count then
      .error (.fault (.shape (.shortColumn role position column.length count)))
    else .ok ()

/-- Copy a chunk of the argument columns that go back to the caller. -/
def Function.giveBackColumns (function : Function) (offset lanes : Nat)
    (machine : Machine) : Session (List Column) Unit :=
  function.outSlots.forM fun slot =>
    (List.range lanes).forM fun lane => do
      let word ← Session.ofExcept (machine.argument slot lane)
      writeEntry slot (offset + lane) word

/-- Run a function on one chunk of elements. -/
def Linked.runChunk (linked : Linked σ) (budget : Nat) (invocation : Invocation)
    (function : Function) (offset lanes : Nat) (arguments returns : List Column) :
    StateM σ (Result Column) :=
  match arguments.mapM fun column => Column.pack column offset lanes with
  | .error failure => return ⟨.failed failure, arguments, returns⟩
  | .ok registers =>
      let sink := if returns.isEmpty then .discard else .striped offset lanes
      linked.serve budget invocation function offset lanes registers sink
        (function.giveBackColumns offset lanes) arguments returns

/-- Run a function on the elements from an offset on, chunk after chunk. -/
def Linked.runFrom (linked : Linked σ) (budget : Nat) (invocation : Invocation)
    (function : Function) (count offset : Nat) (arguments returns : List Column) :
    StateM σ (Result Column) :=
  if offset < count then do
    let lanes := min (count - offset) laneCount
    let result ← linked.runChunk budget invocation function offset lanes arguments returns
    match result.ending with
    | .completed =>
        linked.runFrom budget invocation function count (offset + lanes)
          result.arguments result.returns
    | _ => return result
  else return ⟨.completed, arguments, returns⟩
termination_by count - offset
decreasing_by
  have positive : 0 < laneCount := by decide
  omega

/--
Run a function for a number of elements.  The return columns may be left out
altogether.
-/
def Linked.runStriped (linked : Linked σ) (budget : Nat) (invocation : Invocation)
    (count : Nat) (arguments returns : List Column) : StateM σ (Result Column) := do
  let unchanged (failure : Failure) : Result Column :=
    ⟨.failed failure, arguments, returns⟩
  let given := if returns.isEmpty then none else some returns.length
  match linked.program.prepare invocation arguments.length given with
  | .error failure => return unchanged failure
  | .ok function =>
      match checkColumns .argument arguments count with
      | .error failure => return unchanged failure
      | .ok () =>
          match checkColumns .result returns count with
          | .error failure => return unchanged failure
          | .ok () =>
              linked.runFrom budget invocation function count 0 arguments returns

/-! ## Loading -/

/-- Load a program from a document, attach externals to it, and verify it. -/
def Linked.load (document : String) (externals : List (External σ)) :
    Except Failure (Linked σ) := do
  let some program := Program.parse? document
    | throw .unreadable
  program.verify externals.length
  return ⟨program, externals⟩

/-- Verify a linked program. -/
def Linked.verify (linked : Linked σ) : Except Failure Unit :=
  linked.program.verify linked.externals.length

end Lockstep
