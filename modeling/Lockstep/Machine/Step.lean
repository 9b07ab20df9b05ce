import Lockstep.Machine.Control
import Lockstep.Machine.Memory

/-!
# Running

`Machine.step` reads the instruction at the current offset and carries it out;
`Machine.iterate` repeats steps until the outermost function returns, a step
fails, or a budget of steps is spent.  Only three instructions reach the host, and they
do so once for every live lane, the lowest lane first.
-/

namespace Lockstep

/-- Whether the machine can carry out the instructions of an opcode. -/
def Opcode.executable : Opcode → Bool
  | .loadFragCoord | .sampleExplicit | .sampleMatrix => false
  | _ => true

variable {σ : Type}

/-- The external at a position. -/
def Batch.external (batch : Batch σ) (position : Nat) : Except Failure (External σ) :=
  match batch.externals[position]? with
  | some external => .ok external
  | none =>
      .error (.fault (.bytecode (.noExternal position batch.externals.length)))

namespace Machine

/--
Read the next instruction and move past it.  An opcode that cannot be carried
out is refused before its operands are read.
-/
def fetch (machine : Machine) : Except Failure (Instruction × Machine) := do
  let offset := machine.current.offset
  let bytes := machine.current.function.code.drop offset
  match Opcode.decode offset bytes with
  | .error fault => throw (.fault (.bytecode fault))
  | .ok opcode =>
      if !opcode.executable then
        throw (.fault (.unsupported opcode))
      match opcode.complete offset bytes with
      | .error malformed =>
          machine.require malformed.demand
          throw (.fault (.bytecode malformed.fault))
      | .ok instruction =>
          return (instruction, { machine with
            current := { machine.current with offset := offset + instruction.width } })

/-- Take words for each live lane from an external, and push them. -/
def readExternal (machine : Machine) (batch : Batch σ) (count position : Nat) :
    Session σ Machine := do
  let external ← Session.ofExcept (batch.external position)
  Session.ofExcept (machine.room count)
  Session.ofExcept (scratch count)
  let answers ← machine.live.active.mapM fun lane => do
    let element := batch.firstElement + lane.val
    let words ← Session.ask .read position element (external.read element count)
    return (lane, words.toList)
  Session.ofExcept (machine.push (mergeAnswers count [] answers))

/-- Pop words and give those of each live lane to an external. -/
def writeExternal (machine : Machine) (batch : Batch σ) (count position : Nat) :
    Session σ Machine := do
  let external ← Session.ofExcept (batch.external position)
  let values ← Session.ofExcept (machine.peek count)
  Session.ofExcept (scratch count)
  machine.live.active.forM fun lane => do
    let element := batch.firstElement + lane.val
    Session.ask .write position element (external.write element (laneWords values lane))
  return machine.drop count

/--
Give the arguments of each live lane to an external and put its results in
their place.  Lanes that are not live keep their arguments as results.
-/
def callExternal (machine : Machine) (batch : Batch σ)
    (arguments results position : Nat) : Session σ Machine := do
  let external ← Session.ofExcept (batch.external position)
  let values ← Session.ofExcept (machine.peek arguments)
  Session.ofExcept (machine.room (results - arguments))
  Session.ofExcept (scratch (max arguments results))
  let answers ← machine.live.active.mapM fun lane => do
    let element := batch.firstElement + lane.val
    let words ← Session.ask .call position element
      (external.call element (laneWords values lane) results)
    return (lane, words.toList)
  Session.ofExcept
    ((machine.drop arguments).push (mergeAnswers results values answers))

/-- Go on with a machine, without involving the host. -/
def go (result : Except Failure Machine) : Session σ Flow :=
  Session.ofExcept (result.map .next)

/-- Pop a condition and open a scope for it. -/
def openScope (machine : Machine) : Except Failure Machine := do
  let (condition, below) ← machine.pop
  below.withPredicates (below.predicates.maskPush condition.truthy)

/-- Pop a condition and keep only its lanes in the innermost loop. -/
def narrowLoop (machine : Machine) : Except Failure Machine := do
  let (condition, below) ← machine.pop
  below.withPredicates (below.predicates.loopMask condition.truthy)

/-- Carry out an instruction; the machine is already past it. -/
def execute (machine : Machine) (batch : Batch σ) (instruction : Instruction) :
    Session σ Flow :=
  match instruction with
  | .compute computation => go (machine.compute computation.kernel)
  | .divide operation count => go (machine.divide operation count.toNat)
  | .shift operation amount =>
      match checkShift operation amount with
      | .ok () => go (machine.compute (operation.kernel amount))
      | .error fault => throw (.fault fault)
  | .load space count slot => go (machine.load batch space count.toNat slot.toNat)
  | .store bank count slot => go (machine.store batch bank count.toNat slot.toNat)
  | .gather space count => go (machine.gather batch space count.toNat)
  | .scatter bank count => go (machine.scatter batch bank count.toNat)
  | .clampIndex length => go (machine.clampIndex length.toNat)
  | .branch target => go (machine.jump target.toNat)
  | .branchIfAllFalse target => go (machine.jumpIfAllFalse target.toNat)
  | .call function => go (machine.call batch.program.functions function.toNat)
  | .ret count => Session.ofExcept (machine.ret count.toNat)
  | .maskPush => go machine.openScope
  | .maskPop => go (machine.withPredicates machine.predicates.maskPop)
  | .maskNegate => go (machine.withPredicates machine.predicates.maskNegate)
  | .maskBlend count => go (machine.blend count.toNat)
  | .loopBegin => go (machine.withPredicates machine.predicates.loopBegin)
  | .loopNext => go (machine.withPredicates machine.predicates.loopNext)
  | .loopMask => go machine.narrowLoop
  | .loopEnd => go (machine.withPredicates machine.predicates.loopEnd)
  | .loopBreak => go (machine.withPredicates machine.predicates.loopBreak)
  | .loopContinue => go (machine.withPredicates machine.predicates.loopContinue)
  | .callExternal arguments results external => do
      return .next
        (← machine.callExternal batch arguments.toNat results.toNat external.toNat)
  | .readExternal count external => do
      return .next (← machine.readExternal batch count.toNat external.toNat)
  | .writeExternal count external => do
      return .next (← machine.writeExternal batch count.toNat external.toNat)
  | .loadFragCoord => throw (.fault (.unsupported .loadFragCoord))
  | .sampleExplicit _ => throw (.fault (.unsupported .sampleExplicit))
  | .sampleMatrix _ => throw (.fault (.unsupported .sampleMatrix))

/-- Carry out the next instruction. -/
def step (machine : Machine) (batch : Batch σ) : Session σ Flow := do
  let (instruction, advanced) ← Session.ofExcept machine.fetch
  advanced.execute batch instruction

/--
Repeat steps until the outermost function returns or a step fails.  Nothing
comes back if that takes more steps than the budget allows.
-/
def iterate (step : Machine → Session σ Flow) : Nat → Machine → StateM σ
    (Option (Except Failure (Machine × List Register)))
  | 0, _ => return none
  | budget + 1, machine => do
      match ← (step machine).run with
      | .ok (.next later) => iterate step budget later
      | .ok (.done final returned) => return some (.ok (final, returned))
      | .error failure => return some (.error failure)

/-- Run a machine and keep the registers that it returns. -/
def run (batch : Batch σ) : Nat → Machine → StateM σ
    (Option (Except Failure (Machine × List Register))) :=
  iterate fun machine => machine.step batch

end Machine

end Lockstep
