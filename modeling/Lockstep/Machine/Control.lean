import Lockstep.Machine.Basic

/-!
# Branches, calls and returns

A call opens a frame whose first slots are the topmost operands of the caller.
A return copies the returned registers into operands that the caller reserved
right below the arguments, and leaves the arguments on the stack.  A call that
no lane takes is passed over.
-/

namespace Lockstep.Machine

/-- Go to an offset, which may be the end of the code. -/
def jump (machine : Machine) (target : Nat) : Except Failure Machine :=
  let length := machine.current.function.code.length
  if target ≤ length then
    .ok { machine with current := { machine.current with offset := target } }
  else .error (.fault (.bytecode (.branchOutside target length)))

/-- Go to an offset if no lane is live. -/
def jumpIfAllFalse (machine : Machine) (target : Nat) : Except Failure Machine :=
  if machine.live.any then .ok machine else machine.jump target

/-- Open the frame of a function at a base; its arguments are already there. -/
def enter (machine : Machine) (function : Function) (base : Nat) :
    Except Failure Machine := do
  if saturatingAdd base function.stackNeed > stackCapacity then
    throw (.fault (.capacity (.activation function.name function.stackNeed base)))
  let registers ← machine.registers.writeRun (base + function.parameterCount)
    (List.replicate function.localCount .zero)
  let floor := base + function.frameSize
  return { machine with
    registers := registers
    top := floor
    current := {
      function := function
      offset := 0
      base := base
      floor := floor
      frameSize := function.frameSize
      argumentCount := function.parameterCount } }

/-- Call the function at a position of the program. -/
def invoke (machine : Machine) (functions : List Function) (position : Nat) :
    Except Failure Machine := do
  if machine.callers.length ≥ callCapacity then
    throw (.fault (.capacity .calls))
  match functions[position]? with
  | none => throw (.fault (.bytecode (.noFunction position functions.length)))
  | some callee =>
      machine.require callee.parameterCount
      let entered ← machine.enter callee (machine.top - callee.parameterCount)
      return { entered with callers := machine.current :: machine.callers }

/-- Call a function unless no lane is live. -/
def call (machine : Machine) (functions : List Function) (position : Nat) :
    Except Failure Machine :=
  if machine.live.any then machine.invoke functions position else .ok machine

/-- Hand registers to the most recent caller and resume it. -/
def resume (machine : Machine) (caller : Activation) (earlier : List Activation)
    (returned : List Register) : Except Failure Machine := do
  let base := machine.current.base
  if caller.floor + returned.length ≤ base then
    let registers ← machine.registers.writeRun (base - returned.length) returned
    return { machine with
      registers := registers
      top := base + machine.current.argumentCount
      current := caller
      callers := earlier }
  else throw (.fault (.bytecode (.noReturnSpace returned.length)))

/-- Return the topmost operands. -/
def ret (machine : Machine) (count : Nat) : Except Failure Flow := do
  let function := machine.current.function
  if count ≠ function.returnCount then
    throw (.fault (.shape (.returned function.name count function.returnCount)))
  let returned ← machine.peek count
  match machine.callers with
  | [] => return .done machine returned
  | caller :: earlier => return .next (← machine.resume caller earlier returned)

end Lockstep.Machine
