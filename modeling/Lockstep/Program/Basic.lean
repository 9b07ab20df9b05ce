import Lockstep.Limits

/-!
# Programs

A program is plain data: functions with their declared frames and their code,
and the numbers of globals and uniforms that they share.  Nothing here is
checked; a program may declare sizes that no machine can hold, and sums of
such sizes stop at the largest size.
-/

namespace Lockstep

/-- A parameter of a function. -/
structure Parameter where
  /-- Number of neighbouring argument slots. -/
  slotCount : Nat
  /-- Whether the caller gets the slots back. -/
  isOut : Bool := false
deriving DecidableEq

/-- A function: the shape of its frame and its code. -/
structure Function where
  /-- The name by which callers find it. -/
  name : String
  /-- Number of argument slots. -/
  parameterCount : Nat
  /-- Number of local slots after the arguments. -/
  localCount : Nat := 0
  /-- Declared depth of the operand stack. -/
  stackCount : Nat := 0
  /-- Number of registers that it returns. -/
  returnCount : Nat := 0
  /-- How the argument slots are divided. -/
  parameters : List Parameter := []
  /-- Declared nesting of masked scopes. -/
  conditionDepth : Nat := 0
  /-- Declared nesting of loops. -/
  loopDepth : Nat := 0
  /-- The encoded instructions. -/
  code : List UInt8
deriving DecidableEq

/-- Functions with the globals, uniforms and inputs that they share. -/
structure Program where
  /-- The functions, by position. -/
  functions : List Function := []
  /-- Number of globals. -/
  globalCount : Nat := 0
  /-- Number of uniforms. -/
  uniformCount : Nat := 0
  /-- The global that receives each input. -/
  inputMap : List Nat := []
deriving DecidableEq

namespace Function

/-- The function with given parameters, whose count is the sum of their widths. -/
def ofParameters (name : String) (parameters : List Parameter) (returnCount : Nat)
    (code : List UInt8) : Function where
  name := name
  parameterCount :=
    parameters.foldl (fun total parameter => saturatingAdd total parameter.slotCount) 0
  returnCount := returnCount
  parameters := parameters
  code := code

/-- Number of slots of the frame: parameters and locals. -/
def frameSize (function : Function) : Nat :=
  saturatingAdd function.parameterCount function.localCount

/-- Number of registers of one activation: the frame and the declared operands. -/
def stackNeed (function : Function) : Nat :=
  saturatingAdd function.frameSize function.stackCount

/-- The sum of the widths of the parameters, if it is a size. -/
def declaredSlots (function : Function) : Option Nat :=
  boundedSum (function.parameters.map Parameter.slotCount)

/-- The slots of parameters that go back to the caller; the first one starts at a slot. -/
def outSlotsFrom (start : Nat) : List Parameter → List Nat
  | [] => []
  | parameter :: rest =>
      let slots := if parameter.isOut then List.range' start parameter.slotCount else []
      slots ++ outSlotsFrom (start + parameter.slotCount) rest

/-- The argument slots that go back to the caller. -/
def outSlots (function : Function) : List Nat :=
  outSlotsFrom 0 function.parameters

/-- Whether an argument slot goes back to the caller. -/
def isOutSlot (function : Function) (slot : Nat) : Bool :=
  function.outSlots.contains slot

end Function

/-- The position of the first function with a given name. -/
def Program.find? (program : Program) (name : String) : Option Nat :=
  program.functions.findIdx? (·.name == name)

end Lockstep
