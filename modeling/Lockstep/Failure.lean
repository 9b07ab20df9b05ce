import Lockstep.Limits
import Lockstep.Opcode

/-!
# Failures

Every way in which loading, verifying, assembling or running can fail is one
cause, a value of `Failure`, and the wording of a cause stands in one place.
A `Fault` arises in a running machine or in a reader of instructions; the
verifier wraps the fault it found together with the function that holds it.

`Failure.report` gives the kind, the wording and the chain of reasons that a
caller sees.
-/

namespace Lockstep

/-- The kinds of failure that a caller can tell apart. -/
inductive Kind where
  | shape
  | capacity
  | bounds
  | arithmetic
  | bytecode
  | unsupported
  | validation
  | serialization
  | external
  | trap
deriving DecidableEq

/-- The words that introduce a failure of each kind. -/
def Kind.heading : Kind → String
  | .shape => "shape error: "
  | .capacity => "capacity error: "
  | .bounds => "bounds error: "
  | .arithmetic => "arithmetic error: "
  | .bytecode => "bytecode error: "
  | .unsupported => "unsupported instruction: "
  | .validation => "validation error: "
  | .serialization => "serialization error: "
  | .external => ""
  | .trap => "trap: "

/-- What a failure looks like to a caller. -/
structure Report where
  kind : Kind
  detail : String
  causes : List String := []
deriving DecidableEq

/-- The full text of a report. -/
def Report.text (report : Report) : String :=
  report.kind.heading ++ report.detail

/-- The full text of a report and the reasons beneath it. -/
def Report.chain (report : Report) : List String :=
  report.text :: report.causes

/-! ## Causes -/

/-- What a column of a call holds. -/
inductive ColumnRole where
  | argument
  | result
deriving DecidableEq

/-- The word for what a column holds. -/
def ColumnRole.name : ColumnRole → String
  | .argument => "argument"
  | .result => "return"

/-- The two kinds of nesting that a function declares. -/
inductive Nesting where
  | condition
  | loop
deriving DecidableEq

/-- The word for a kind of nesting. -/
def Nesting.name : Nesting → String
  | .condition => "condition"
  | .loop => "loop"

/-- The four stacks of masks, as messages tell them apart. -/
inductive MaskStack where
  | condition
  | mask
  | loop
  | parked
deriving DecidableEq

/-- The word for a stack of masks. -/
def MaskStack.name : MaskStack → String
  | .condition => "condition"
  | .mask => "mask"
  | .loop => "loop"
  | .parked => "continue"

/-- The operand bytes that have a range. -/
inductive OperandRole where
  | count
  | sourceCount
  | index
  | shift
  | dimension
  | columns
  | rows
  | argumentCount
  | returnCount
deriving DecidableEq

/-- The word for an operand byte. -/
def OperandRole.name : OperandRole → String
  | .count => "count"
  | .sourceCount => "source count"
  | .index => "index"
  | .shift => "shift"
  | .dimension => "dimension"
  | .columns => "columns"
  | .rows => "rows"
  | .argumentCount => "argument count"
  | .returnCount => "return count"

/-- The ways of emitting an instruction by its opcode. -/
inductive Emitter where
  | bare
  | counted
  | indexed
  | byte
deriving DecidableEq

/-- The words for a way of emitting an instruction. -/
def Emitter.name : Emitter → String
  | .bare => "this helper"
  | .counted => "vector"
  | .indexed => "extended"
  | .byte => "this helper"

/-- Buffers or declarations that do not match. -/
inductive ShapeFault where
  | noSuchFunction (position functions : Nat)
  | calleeWidthsOverflow (function : String)
  | calleeWidthsDiffer (declared count : Nat)
  | argumentSlots (given : Nat) (function : String) (wanted : Nat)
  | returnSlots (given : Nat) (function : String) (wanted : Nat)
  | uniforms (given wanted : Nat)
  | inputs (given wanted : Nat)
  | shortColumn (role : ColumnRole) (position length count : Nat)
  | inputSlot (input slot limit : Nat)
  | returned (function : String) (count declared : Nat)
  | returnBuffer (held needed : Nat)
  | returnColumns (given needed : Nat)
  | returnColumn (position held needed : Nat)
  | frameWidthsOverflow
  | frameWidthsDiffer (declared count : Nat)
  | returns (count declared : Nat)
deriving DecidableEq

/-- Capacities that would be exceeded. -/
inductive CapacityFault where
  | calleeFrame (function : String) (parameters locals operands : Nat)
  | globals (count : Nat)
  | calleeDepth (function : String) (nesting : Nesting) (depth : Nat)
  | stack (more : Nat)
  | scopes (stack : MaskStack)
  | activation (function : String) (need base : Nat)
  | calls
  | frame (parameters locals operands : Nat)
  | depth (nesting : Nesting) (depth : Nat)
deriving DecidableEq

/-- Slots and indices outside their range. -/
inductive BoundsFault where
  | slots (opcode : Opcode) (space : Space) (slot count limit : Nat)
  | index (index : Int32) (lane : Lane) (length : Nat)
  | laneIndex (opcode : Opcode) (space : Space) (index : Int32) (count : Nat)
      (lane : Lane) (limit : Nat)
deriving DecidableEq

/-- Instructions that cannot be read, placed or followed. -/
inductive BytecodeFault where
  | truncated (offset wanted : Nat)
  | unknownOpcode (byte : UInt8) (offset : Nat)
  | operand (opcode : Opcode) (role : OperandRole) (value low high : UInt8)
  | branchOutside (target length : Nat)
  | underflow (need available : Nat)
  | noScope (stack : MaskStack)
  | noFunction (position functions : Nat)
  | noExternal (position externals : Nat)
  | noReturnSpace (count : Nat)
  | calleeOutside (position functions : Nat)
  | branchInside (target : Nat)
  | unknownLabel (label : Nat)
  | labelBoundTwice (label earlier later : Nat)
  | labelUnbound (label : Nat)
  | branchTooFar (target : Nat)
  | layout (opcode : Opcode) (emitter : Emitter)
  | tooManyIndices
  | slotOverflow (opcode : Opcode) (slot count : UInt8)
deriving DecidableEq

/-- A cause that lies in the instructions or in their operands. -/
inductive Fault where
  | shape (cause : ShapeFault)
  | capacity (cause : CapacityFault)
  | bounds (cause : BoundsFault)
  | arithmetic (opcode : Opcode) (lane : Lane)
  | bytecode (cause : BytecodeFault)
  | unsupported (opcode : Opcode)
deriving DecidableEq

/-- What keeps a program from passing verification. -/
inductive Invalidity where
  | globals (count : Nat)
  | input (input slot globals : Nat)
  | frame (function : String) (fault : Fault)
  | code (function : String) (offset : Nat) (fault : Fault)
deriving DecidableEq

/-- Why the host refused a request, the nearest reason outermost. -/
inductive HostError where
  | reason (text : String)
  | context (text : String) (cause : HostError)
deriving DecidableEq

/-- All reasons of a host error, outermost first. -/
def HostError.texts : HostError → List String
  | .reason text => [text]
  | .context text cause => text :: cause.texts

/--
Every way in which the library can fail.  A trap stands for the use of storage
that does not exist: a register, a cell, a word of a buffer or a lane.
-/
inductive Failure where
  | fault (fault : Fault)
  | invalid (cause : Invalidity)
  | unreadable
  | external (error : HostError)
  | trap
deriving DecidableEq

instance : Coe Fault Failure := ⟨.fault⟩

/-- A value that has to be there: it is a trap if it is not. -/
def orTrap {α : Type} : Option α → Except Failure α
  | some value => .ok value
  | none => .error .trap

theorem orTrap_eq_ok {α : Type} {found : Option α} {value : α} :
    orTrap found = .ok value ↔ found = some value := by
  cases found <;> simp [orTrap]

/-! ## Wording -/

/-- A byte in hexadecimal with at least two digits. -/
def hexadecimal (byte : UInt8) : String :=
  let digits := Nat.toDigits 16 byte.toNat
  "0x" ++ String.ofList (List.replicate (2 - digits.length) '0' ++ digits)

/-- The wording of a shape fault. -/
def ShapeFault.detail : ShapeFault → String
  | .noSuchFunction position functions =>
      s!"function handle {position} outside 0..{functions}"
  | .calleeWidthsOverflow function =>
      s!"'{function}' parameter slot counts overflow"
  | .calleeWidthsDiffer declared count =>
      s!"parameters declare {declared} slots, parameter count is {count}"
  | .argumentSlots given function wanted =>
      s!"got {given} argument slots, '{function}' takes {wanted}"
  | .returnSlots given function wanted =>
      s!"got {given} return slots, '{function}' returns {wanted}"
  | .uniforms given wanted =>
      s!"got {given} uniforms, program declares {wanted}"
  | .inputs given wanted =>
      s!"got {given} inputs, program maps {wanted}"
  | .shortColumn role position length count =>
      s!"{role.name} array {position} holds {length}, need {count}"
  | .inputSlot input slot limit =>
      s!"input {input} maps to global {slot}, outside 0..{limit}"
  | .returned function count declared =>
      s!"'{function}' returns {count} slots, declared {declared}"
  | .returnBuffer held needed =>
      s!"return buffer holds {held}, need {needed}"
  | .returnColumns given needed =>
      s!"{given} return arrays, need {needed}"
  | .returnColumn position held needed =>
      s!"return array {position} holds {held}, need {needed}"
  | .frameWidthsOverflow => "parameter slot counts overflow"
  | .frameWidthsDiffer declared count =>
      s!"parameters span {declared} slots but parameter_count is {count}"
  | .returns count declared =>
      s!"returns {count} slots, declared {declared}"

/-- The wording of a capacity fault. -/
def CapacityFault.detail : CapacityFault → String
  | .calleeFrame function parameters locals operands =>
      s!"'{function}' frame of {parameters} parameters, {locals} locals and " ++
        s!"{operands} stack values exceeds capacity {stackCapacity}"
  | .globals count =>
      s!"{count} global slots, capacity is {globalCapacity}"
  | .calleeDepth function nesting deepest =>
      s!"'{function}' {nesting.name} depth {deepest} exceeds {predicateCapacity - 1}"
  | .stack more =>
      s!"stack of {stackCapacity} values cannot hold {more} more"
  | .scopes masks =>
      s!"{masks.name} stack exceeds {predicateCapacity} entries"
  | .activation function need base =>
      s!"'{function}' needs {need} stack values at depth {base}, " ++
        s!"capacity is {stackCapacity}"
  | .calls => s!"call depth exceeds {callCapacity}"
  | .frame parameters locals operands =>
      s!"frame of {parameters} parameters, {locals} locals and " ++
        s!"{operands} stack values exceeds capacity {stackCapacity}"
  | .depth nesting deepest =>
      s!"{nesting.name} depth {deepest} exceeds capacity {predicateCapacity - 1}"

/-- The wording of a bounds fault. -/
def BoundsFault.detail : BoundsFault → String
  | .slots opcode space slot count limit =>
      s!"{opcode.name}: {space.name} slots {slot}..{slot + count} outside 0..{limit}"
  | .index position lane length =>
      s!"index {position} in lane {lane} outside 0..{length}"
  | .laneIndex opcode space position count lane limit =>
      s!"{opcode.name}: {space.name} index {position} (+{count}) in lane {lane} " ++
        s!"outside 0..{limit}"

/-- The wording of a bytecode fault. -/
def BytecodeFault.detail : BytecodeFault → String
  | .truncated offset wanted =>
      s!"truncated instruction stream at offset {offset} (wanted {wanted} bytes)"
  | .unknownOpcode byte offset =>
      s!"unknown opcode {hexadecimal byte} at offset {offset}"
  | .operand opcode role value low high =>
      s!"{opcode.name}: {role.name} {value} outside {low}..={high}"
  | .branchOutside target length =>
      s!"branch target {target} outside code of length {length}"
  | .underflow need available =>
      s!"stack underflow: need {need} operands, have {available}"
  | .noScope masks => s!"no open scope on the {masks.name} stack"
  | .noFunction position functions =>
      s!"function {position} does not exist ({functions} defined)"
  | .noExternal position externals =>
      s!"external value {position} not attached ({externals} available)"
  | .noReturnSpace count =>
      s!"caller reserved no room for {count} return values"
  | .calleeOutside position functions =>
      s!"call to function {position}, but the program has {functions}"
  | .branchInside target =>
      s!"branch target {target} is not an instruction start"
  | .unknownLabel label => s!"unknown label {label}"
  | .labelBoundTwice label earlier later =>
      s!"label {label} bound twice (at {earlier} and {later})"
  | .labelUnbound label => s!"label {label} never bound"
  | .branchTooFar target =>
      s!"branch target {target} does not fit in 16 bits"
  | .layout opcode emitter =>
      s!"{opcode.name} has operand layout {opcode.layout.describe}, " ++
        s!"not usable with {emitter.name}"
  | .tooManyIndices => "Swizzle: too many indices"
  | .slotOverflow opcode slot count =>
      s!"{opcode.name}: slots {slot}+{count} overflow the slot index"

/-- What a caller sees of a fault. -/
def Fault.report : Fault → Report
  | .shape cause => { kind := .shape, detail := cause.detail }
  | .capacity cause => { kind := .capacity, detail := cause.detail }
  | .bounds cause => { kind := .bounds, detail := cause.detail }
  | .arithmetic opcode lane =>
      { kind := .arithmetic,
        detail := s!"{opcode.name}: division by zero in lane {lane}" }
  | .bytecode cause => { kind := .bytecode, detail := cause.detail }
  | .unsupported opcode => { kind := .unsupported, detail := opcode.name }

/-- The wording of a verification failure. -/
def Invalidity.detail : Invalidity → String
  | .globals count =>
      s!"{count} global slots exceed capacity {globalCapacity}"
  | .input number slot declared =>
      s!"input {number} maps to global {slot}, but only {declared} globals exist"
  | .frame function inner =>
      s!"function '{function}': {inner.report.text}"
  | .code function offset inner =>
      s!"function '{function}' at offset {offset}: {inner.report.text}"

/-- What a caller sees of a host error. -/
def HostError.report : HostError → Report
  | .reason text => { kind := .external, detail := text }
  | .context text cause =>
      { kind := .external, detail := text, causes := cause.texts }

/-- What a caller sees of a failure. -/
def Failure.report : Failure → Report
  | .fault inner => inner.report
  | .invalid cause => { kind := .validation, detail := cause.detail }
  | .unreadable =>
      { kind := .serialization, detail := "the text does not denote a program" }
  | .external error => error.report
  | .trap => { kind := .trap, detail := "storage that does not exist was addressed" }

end Lockstep
