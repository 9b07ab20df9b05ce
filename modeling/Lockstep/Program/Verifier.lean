import Lockstep.Instruction.Decode
import Lockstep.Program.Basic

/-!
# Verification

A program is verified before it runs: its globals fit, its inputs are mapped
to globals, every frame fits the machine, and the code of every function reads
as instructions from its first byte to its last whose operands stay within the
limits of the program and whose branches lead to instructions.

The first objection is the one reported: globals, then inputs, then function
after function, in each its frame, its instructions in order and finally its
branches in order.
-/

namespace Lockstep

/-- The limits that a program sets to the operands of a function. -/
structure Bounds where
  /-- Slots of the frame. -/
  frame : Nat
  /-- Globals. -/
  globals : Nat
  /-- Uniforms. -/
  uniforms : Nat
  /-- Functions that can be called. -/
  functions : Nat
  /-- Externals that can be addressed. -/
  externals : Nat
  /-- Registers to return. -/
  returns : Nat
deriving DecidableEq

/-- The limits inside one function of a program. -/
def Program.bounds (program : Program) (externals : Nat) (function : Function) :
    Bounds where
  frame := function.frameSize
  globals := program.globalCount
  uniforms := program.uniformCount
  functions := program.functions.length
  externals := externals
  returns := function.returnCount

/-- The number of slots of a space. -/
def Bounds.slots (bounds : Bounds) : Space → Nat
  | .local => bounds.frame
  | .global => bounds.globals
  | .uniform => bounds.uniforms

/-- The objection to a fixed run of slots, if it leaves its space. -/
def checkSlots (opcode : Opcode) (space : Space) (slot count limit : Nat) :
    Except Fault Unit :=
  if slot + count ≤ limit then .ok ()
  else .error (.bounds (.slots opcode space slot count limit))

/-- The objection to a shift, if the amount is not below the width of a word. -/
def checkShift (operation : Shift) (amount : UInt8) : Except Fault Unit :=
  match checkOperand (.shift operation) .shift 0 31 amount with
  | .ok () => .ok ()
  | .error fault => .error (.bytecode fault)

/-- The objection to an external that is not attached. -/
def checkExternal (external : UInt8) (externals : Nat) : Except Fault Unit :=
  if external.toNat < externals then .ok ()
  else .error (.bytecode (.noExternal external.toNat externals))

/-- The objection to the operands of an instruction, if they leave the limits. -/
def Instruction.check (bounds : Bounds) : Instruction → Except Fault Unit
  | .shift operation amount => checkShift operation amount
  | .load space count slot =>
      checkSlots (.load space) space slot.toNat count.toNat (bounds.slots space)
  | .store bank count slot =>
      checkSlots (.store bank) bank.space slot.toNat count.toNat
        (bounds.slots bank.space)
  | .call function =>
      if function.toNat < bounds.functions then .ok ()
      else .error (.bytecode (.calleeOutside function.toNat bounds.functions))
  | .ret count =>
      if count.toNat = bounds.returns then .ok ()
      else .error (.shape (.returns count.toNat bounds.returns))
  | .callExternal _ _ external => checkExternal external bounds.externals
  | .readExternal _ external => checkExternal external bounds.externals
  | .writeExternal _ external => checkExternal external bounds.externals
  | _ => .ok ()

/-- The offset that a branch leads to. -/
def Instruction.target? : Instruction → Option Nat
  | .branch target => some target.toNat
  | .branchIfAllFalse target => some target.toNat
  | _ => none

/-- The objection of the verifier to bytes, which names every extent a dimension. -/
def Malformed.objection (malformed : Malformed) : Fault :=
  match malformed.fault with
  | .operand opcode .columns value low high =>
      .bytecode (.operand opcode .dimension value low high)
  | .operand opcode .rows value low high =>
      .bytecode (.operand opcode .dimension value low high)
  | fault => .bytecode fault

/-- Name the function and the offset of an objection. -/
def locate (function : Function) (offset : Nat) (checked : Except Fault Unit) :
    Except Invalidity Unit :=
  match checked with
  | .ok () => .ok ()
  | .error fault => .error (.code function.name offset fault)

/-- The objection to a branch that leads to no instruction of a listing. -/
def Listing.checkBranch (listing : Listing) (placed : Placed) : Except Fault Unit :=
  match placed.instruction.target? with
  | none => .ok ()
  | some target =>
      if listing.instructions.any fun other => other.offset == target then .ok ()
      else .error (.bytecode (.branchInside target))

/-- The objection to the code of a function. -/
def Function.checkCode (function : Function) (bounds : Bounds) :
    Except Invalidity Unit := do
  let listing := Listing.ofCode function.code
  listing.instructions.forM fun placed =>
    locate function placed.offset (placed.instruction.check bounds)
  if let some (offset, malformed) := listing.stopped then
    throw (.code function.name offset malformed.objection)
  listing.instructions.forM fun placed =>
    locate function placed.offset (listing.checkBranch placed)

/-- The objection to a declared nesting. -/
def checkDepth (nesting : Nesting) (depth : Nat) : Except Fault Unit :=
  if depth < predicateCapacity then .ok ()
  else .error (.capacity (.depth nesting depth))

/-- The objection to the frame of a function. -/
def Function.checkFrame (function : Function) : Except Fault Unit := do
  let some declared := function.declaredSlots
    | throw (.shape .frameWidthsOverflow)
  if declared ≠ function.parameterCount then
    throw (.shape (.frameWidthsDiffer declared function.parameterCount))
  if function.stackNeed > stackCapacity then
    throw (.capacity
      (.frame function.parameterCount function.localCount function.stackCount))
  checkDepth .condition function.conditionDepth
  checkDepth .loop function.loopDepth

/-- The objection to a function of a program. -/
def Program.checkFunction (program : Program) (externals : Nat)
    (function : Function) : Except Invalidity Unit := do
  match function.checkFrame with
  | .ok () => function.checkCode (program.bounds externals function)
  | .error fault => throw (.frame function.name fault)

/-- The objection to an input of a program. -/
def Program.checkInput (program : Program) (slot input : Nat) :
    Except Invalidity Unit :=
  if slot < program.globalCount then .ok ()
  else .error (.input input slot program.globalCount)

/-- The first objection to a program with a given number of externals. -/
def Program.objection (program : Program) (externals : Nat) :
    Except Invalidity Unit := do
  if program.globalCount > globalCapacity then
    throw (.globals program.globalCount)
  program.inputMap.zipIdx.forM fun (slot, input) => program.checkInput slot input
  program.functions.forM (program.checkFunction externals)

/-- Verify a program with a given number of externals. -/
def Program.verify (program : Program) (externals : Nat) : Except Failure Unit :=
  match program.objection externals with
  | .ok () => .ok ()
  | .error cause => .error (.invalid cause)

end Lockstep
