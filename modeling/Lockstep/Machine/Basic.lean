import Lockstep.Kernel
import Lockstep.Predicates
import Lockstep.Program.Basic
import Lockstep.RegisterFile

/-!
# The machine

All activations share one file of registers.  An activation owns the slots of
its frame, which start at its base, and the operands between its floor and the
top of the stack.  Registers at and above the top keep what was last written
to them and are never read.

This module holds the state of the machine and the discipline of its operand
stack: operands are taken only down to the floor, and results are put down only
where the file has room.
-/

namespace Lockstep

/--
A function that is running or waits for a call to return.  Its frame starts at
the base and ends at the floor, where its operands start; the number of slots of
the frame and the number of its arguments are noted when it is entered.
-/
structure Activation where
  function : Function
  offset : Nat
  base : Nat
  floor : Nat
  frameSize : Nat
  argumentCount : Nat
deriving DecidableEq

/--
The state of a running machine.  The registers hold the frames and operands of
all activations up to the top; of the callers the most recent stands first.
-/
structure Machine where
  registers : RegisterFile stackCapacity
  top : Nat
  globals : RegisterFile globalCapacity
  predicates : Predicates
  current : Activation
  callers : List Activation

/-- What a step leads to: a machine that goes on, or the outermost return. -/
inductive Flow where
  | next (machine : Machine)
  | done (machine : Machine) (returned : List Register)

namespace Machine

/-- The lanes whose side effects count. -/
def live (machine : Machine) : Mask :=
  machine.predicates.live

/-- Refuse to touch operands that are not there. -/
def require (machine : Machine) (count : Nat) : Except Failure Unit :=
  if machine.current.floor + count ≤ machine.top then .ok ()
  else .error (.fault
    (.bytecode (.underflow count (machine.top - machine.current.floor))))

/-- The topmost operands, the lowest first. -/
def peek (machine : Machine) (count : Nat) : Except Failure (List Register) := do
  machine.require count
  machine.registers.readRun (machine.top - count) count

/-- The machine without its topmost operands. -/
def drop (machine : Machine) (count : Nat) : Machine :=
  { machine with top := machine.top - count }

/-- The topmost operand, and the machine without it. -/
def pop (machine : Machine) : Except Failure (Register × Machine) := do
  return ((← machine.peek 1).headD .zero, machine.drop 1)

/-- Refuse to put down results that have no room. -/
def room (machine : Machine) (count : Nat) : Except Failure Unit :=
  if machine.top + count ≤ stackCapacity then .ok ()
  else .error (.fault (.capacity (.stack count)))

/-- Put results on the operand stack. -/
def push (machine : Machine) (results : List Register) : Except Failure Machine := do
  machine.room results.length
  let registers ← machine.registers.writeRun machine.top results
  return { machine with registers := registers, top := machine.top + results.length }

/-- Run a kernel on the operand stack. -/
def compute (machine : Machine) (kernel : Kernel) : Except Failure Machine := do
  let operands ← machine.peek kernel.operands
  let lowered := if kernel.keep then machine else machine.drop kernel.operands
  lowered.push (← orTrap (kernel.apply operands))

/-- Take scratch cells for the components of a vector. -/
def scratch (count : Nat) : Except Failure Unit :=
  if count ≤ vectorCells then .ok () else .error .trap

/-- Refuse a division in which a live lane has a zero divisor. -/
def checkDivisors (machine : Machine) (operation : Division)
    (divisors : List Register) : Except Failure Unit :=
  divisors.forM fun divisor =>
    machine.live.active.forM fun lane =>
      if divisor.get lane = 0 then
        .error (.fault (.arithmetic (.divide operation) lane))
      else .ok ()

/-- Divide two vectors on the live lanes; the other lanes keep the dividend. -/
def divide (machine : Machine) (operation : Division) (count : Nat) :
    Except Failure Machine := do
  let operands ← machine.peek (2 * count)
  let dividends := operands.take count
  let divisors := operands.drop count
  machine.checkDivisors operation divisors
  let quotient := fun (dividend divisor : Register) =>
    Lanes.select machine.live
      (.ofFn fun lane => operation.eval (dividend.get lane) (divisor.get lane)) dividend
  (machine.drop (2 * count)).push (List.zipWith quotient dividends divisors)

/-- Change the predicates. -/
def withPredicates (machine : Machine) (predicates : Except Failure Predicates) :
    Except Failure Machine := do
  return { machine with predicates := ← predicates }

/-- Close the innermost scope and choose between two vectors by its condition. -/
def blend (machine : Machine) (count : Nat) : Except Failure Machine := do
  let (condition, predicates) ← machine.predicates.maskBlend
  let operands ← machine.peek (2 * count)
  let chosen := List.zipWith (Lanes.select condition)
    (operands.take count) (operands.drop count)
  { machine.drop (2 * count) with predicates := predicates }.push chosen

end Machine

end Lockstep
