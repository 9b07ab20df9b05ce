import Lockstep.Host.Basic
import Lockstep.Machine.Basic
import Lockstep.Program.Verifier

/-!
# Slots

Instructions reach parameters, locals, globals and uniforms by their slots.
A run of slots is either fixed by the instruction or starts at an index that
each lane takes from the operand stack.  Slots are written on the live lanes
only, and an index counts only on the live lanes.
-/

namespace Lockstep

/-- What stays fixed while a batch runs, whose first element is in the lowest lane. -/
structure Batch (σ : Type) where
  program : Program
  externals : List (External σ)
  uniforms : List Word
  firstElement : Nat

/-- Number of globals that a program has on the machine. -/
def Program.globalLimit (program : Program) : Nat :=
  min program.globalCount globalCapacity

variable {σ : Type}

/-- The number of slots of a space. -/
def Batch.limit (batch : Batch σ) (machine : Machine) : Space → Nat
  | .local => machine.current.frameSize
  | .global => batch.program.globalLimit
  | .uniform => batch.uniforms.length

/-- A run of uniforms, each the same in every lane. -/
def Batch.uniformRun (batch : Batch σ) (slot count : Nat) :
    Except Failure (List Register) :=
  if slot + count ≤ batch.uniforms.length then
    .ok (((batch.uniforms.drop slot).take count).map Lanes.splat)
  else .error .trap

/--
Results of lanes as registers: a lane with an answer holds the words of its
answer, and a lane without one holds what it had before.
-/
def mergeAnswers (count : Nat) (before : List Register)
    (answers : List (Lane × List Word)) : List Register :=
  (List.range count).map fun position =>
    .ofFn fun lane =>
      match answers.lookup lane with
      | some words => words.getD position 0
      | none => (before.getD position .zero).get lane

/-- The signed number of a word. -/
def signedIndex (word : Word) : Int32 :=
  word.toInt32

namespace Machine

/-- Read a run of slots of the running function. -/
def frameRun (machine : Machine) (slot count : Nat) : Except Failure (List Register) :=
  machine.registers.readRun (machine.current.base + slot) count

/-- Read a run of slots. -/
def slotRun (machine : Machine) (batch : Batch σ) (space : Space) (slot count : Nat) :
    Except Failure (List Register) :=
  match space with
  | .local => machine.frameRun slot count
  | .global => machine.globals.readRun slot count
  | .uniform => batch.uniformRun slot count

/-- Change a run of slots, register by register. -/
def updateRun {α : Type} (machine : Machine) (bank : Bank) (slot : Nat)
    (update : Register → α → Register) (values : List α) : Except Failure Machine :=
  match bank with
  | .local => do
      let start := machine.current.base + slot
      let before ← machine.registers.readRun start values.length
      let registers ← machine.registers.writeRun start (List.zipWith update before values)
      return { machine with registers := registers }
  | .global => do
      let before ← machine.globals.readRun slot values.length
      let globals ← machine.globals.writeRun slot (List.zipWith update before values)
      return { machine with globals := globals }

/-- Push a fixed run of slots. -/
def load (machine : Machine) (batch : Batch σ) (space : Space) (count slot : Nat) :
    Except Failure Machine := do
  match checkSlots (.load space) space slot count (batch.limit machine space) with
  | .ok () =>
      machine.room count
      machine.push (← machine.slotRun batch space slot count)
  | .error fault => throw (.fault fault)

/-- Pop into a fixed run of slots, on the live lanes. -/
def store (machine : Machine) (batch : Batch σ) (bank : Bank) (count slot : Nat) :
    Except Failure Machine := do
  match checkSlots (.store bank) bank.space slot count
      (batch.limit machine bank.space) with
  | .ok () =>
      let values ← machine.peek count
      let stored ← machine.updateRun bank slot
        (fun before value => .select machine.live value before) values
      return stored.drop count
  | .error fault => throw (.fault fault)

/-- Refuse an index of a live lane from which a run would leave its space. -/
def checkIndices (machine : Machine) (opcode : Opcode) (space : Space)
    (index : Register) (count limit : Nat) : Except Failure Unit :=
  machine.live.active.forM fun lane =>
    let position := signedIndex (index.get lane)
    if 0 ≤ position.toInt ∧ position.toInt + count ≤ limit then .ok ()
    else .error (.fault (.bounds (.laneIndex opcode space position count lane limit)))

/-- The slot that a word points to as an index. -/
def indexSlot (word : Word) : Nat :=
  (signedIndex word).toInt.toNat

/-- Replace an index of each lane by the run of slots that starts there. -/
def gather (machine : Machine) (batch : Batch σ) (space : Space) (count : Nat) :
    Except Failure Machine := do
  let (index, below) ← machine.pop
  machine.checkIndices (.gather space) space index count (batch.limit machine space)
  scratch count
  let answers ← machine.live.active.mapM fun lane => do
    let run ← machine.slotRun batch space (indexSlot (index.get lane)) count
    return (lane, laneWords run lane)
  below.push (mergeAnswers count [] answers)

/-- Pop into the runs of slots that start at an index of each live lane. -/
def scatter (machine : Machine) (batch : Batch σ) (bank : Bank) (count : Nat) :
    Except Failure Machine := do
  let (index, below) ← machine.pop
  machine.checkIndices (.scatter bank) bank.space index count
    (batch.limit machine bank.space)
  let values ← below.peek count
  let stored ← machine.live.active.foldlM
    (fun stored lane =>
      stored.updateRun bank (indexSlot (index.get lane))
        (fun before word => before.set lane word) (laneWords values lane))
    below
  return stored.drop count

/-- Refuse an index of a live lane that is not below a length. -/
def clampIndex (machine : Machine) (length : Nat) : Except Failure Machine := do
  let index := (← machine.peek 1).headD .zero
  machine.live.active.forM fun lane =>
    let position := signedIndex (index.get lane)
    if 0 ≤ position.toInt ∧ position.toInt < length then .ok ()
    else .error (.fault (.bounds (.index position lane length)))
  return machine

end Machine

end Lockstep
