import Lockstep.Instruction.Decode

/-!
# Assembly

An assembler takes statements one at a time.  A statement allocates a label,
gives a label its place, or emits one instruction; a branch is emitted with
its label and gets its target when assembly ends.  A statement that asks for
something impossible is refused: it emits nothing, and the first refusal is
what `Assembler.finish` reports.

`Request.instruction` says which requests are refused, and why, without
reference to any assembler.
-/

namespace Lockstep

/-- A request to emit an instruction that is not a branch. -/
inductive Request where
  /-- An opcode without operands. -/
  | bare (opcode : Opcode)
  /-- An opcode that takes a count. -/
  | counted (opcode : Opcode) (count : UInt8)
  /-- An opcode that takes a count and an index of each lane. -/
  | indexed (opcode : Opcode) (count : UInt8)
  /-- An opcode that takes one byte. -/
  | byte (opcode : Opcode) (operand : UInt8)
  | push (bits : Word)
  | load (space : Space) (count slot : UInt8)
  | store (bank : Bank) (count slot : UInt8)
  | call (function : UInt8)
  | ret (count : UInt8)
  | swizzle (source : UInt8) (picks : List UInt8)
  | resizeMatrix (fromColumns fromRows toColumns toRows : UInt8)
  | multiplyMatrix (leftColumns leftRows rightColumns : UInt8)
  | diagonalMatrix (columns rows : UInt8)
  | callExternal (arguments results external : UInt8)
  | readExternal (count external : UInt8)
  | writeExternal (count external : UInt8)
deriving DecidableEq

/-- The instruction of an opcode that has no operands. -/
def Opcode.bare? : Opcode → Option Instruction
  | .logic operation => some (.compute (.logic operation))
  | .invertMatrix order => some (.compute (.invertMatrix order))
  | .maskPush => some .maskPush
  | .maskPop => some .maskPop
  | .maskNegate => some .maskNegate
  | .loopBegin => some .loopBegin
  | .loopNext => some .loopNext
  | .loopMask => some .loopMask
  | .loopEnd => some .loopEnd
  | .loopBreak => some .loopBreak
  | .loopContinue => some .loopContinue
  | .loadFragCoord => some .loadFragCoord
  | _ => none

/-- The greatest count of an opcode that takes one, and the instruction. -/
def Opcode.counted? (opcode : Opcode) (count : UInt8) :
    Option (UInt8 × Instruction) :=
  match opcode with
  | .unary operation => some (operation.widest, .compute (.unary operation count))
  | .binary operation => some (operation.widest, .compute (.binary operation count))
  | .divide operation => some (widestVector, .divide operation count)
  | .lerp => some (widestVector, .compute (.lerp count))
  | .mix => some (widestVector, .compute (.mix count))
  | .dup => some (255, .compute (.dup count))
  | .pop => some (255, .compute (.pop count))
  | .reserve => some (255, .compute (.reserve count))
  | .maskBlend => some (widestMatrix, .maskBlend count)
  | _ => none

/-- The instruction of an opcode that takes a count and an index of each lane. -/
def Opcode.indexed? (opcode : Opcode) (count : UInt8) : Option Instruction :=
  match opcode with
  | .gather space => some (.gather space count)
  | .scatter bank => some (.scatter bank count)
  | _ => none

/-- The instruction of an opcode that takes one byte. -/
def Opcode.withByte? (opcode : Opcode) (operand : UInt8) : Option Instruction :=
  match opcode with
  | .shift operation => some (.shift operation operand)
  | .clampIndex => some (.clampIndex operand)
  | .sampleExplicit => some (.sampleExplicit operand)
  | .sampleMatrix => some (.sampleMatrix operand)
  | _ => none

/-- Check the operands of a run of slots. -/
def checkSlotRun (opcode : Opcode) (count slot : UInt8) : Except BytecodeFault Unit := do
  checkOperand opcode .count 1 widestVector count
  if slot.toNat + count.toNat > 256 then
    throw (.slotOverflow opcode slot count)

/-- Check the operands of a swizzle. -/
def checkSwizzle (source : UInt8) (picks : List UInt8) : Except BytecodeFault Unit := do
  checkOperand .swizzle .sourceCount 1 widestVector source
  if picks.length > 255 then
    throw .tooManyIndices
  checkOperand .swizzle .count 1 widestVector (UInt8.ofNat picks.length)
  picks.forM (checkOperand .swizzle .index 0 (source - 1))

/-- The instruction that a request asks for, or why it is refused. -/
def Request.instruction : Request → Except BytecodeFault Instruction
  | .bare opcode =>
      match opcode.bare? with
      | some instruction => .ok instruction
      | none => .error (.layout opcode .bare)
  | .counted opcode count =>
      match opcode.counted? count with
      | some (maximum, instruction) => do
          checkOperand opcode .count 1 maximum count
          return instruction
      | none => .error (.layout opcode .counted)
  | .indexed opcode count =>
      match opcode.indexed? count with
      | some instruction => do
          checkOperand opcode .count 1 widestVector count
          return instruction
      | none => .error (.layout opcode .indexed)
  | .byte opcode operand =>
      match opcode.withByte? operand with
      | some instruction => .ok instruction
      | none => .error (.layout opcode .byte)
  | .push bits => .ok (.compute (.immediate bits))
  | .load space count slot => do
      checkSlotRun (.load space) count slot
      return .load space count slot
  | .store bank count slot => do
      checkSlotRun (.store bank) count slot
      return .store bank count slot
  | .call function => .ok (.call function)
  | .ret count => .ok (.ret count)
  | .swizzle source picks => do
      checkSwizzle source picks
      return .compute (.swizzle source picks)
  | .resizeMatrix fromColumns fromRows toColumns toRows => do
      [fromColumns, fromRows, toColumns, toRows].forM
        (checkOperand .resizeMatrix .dimension 2 4)
      return .compute (.resizeMatrix fromColumns fromRows toColumns toRows)
  | .multiplyMatrix leftColumns leftRows rightColumns => do
      [leftColumns, leftRows, rightColumns].forM
        (checkOperand .multiplyMatrix .dimension 1 4)
      return .compute (.multiplyMatrix leftColumns leftRows rightColumns)
  | .diagonalMatrix columns rows => do
      checkOperand .diagonalMatrix .columns 2 4 columns
      checkOperand .diagonalMatrix .rows 2 4 rows
      return .compute (.diagonalMatrix columns rows)
  | .callExternal arguments results external => do
      checkOperand .callExternal .argumentCount 0 4 arguments
      checkOperand .callExternal .returnCount 0 4 results
      return .callExternal arguments results external
  | .readExternal count external => do
      checkOperand .readExternal .count 1 widestVector count
      return .readExternal count external
  | .writeExternal count external => do
      checkOperand .writeExternal .count 1 widestVector count
      return .writeExternal count external

/-- The two branch instructions. -/
inductive BranchKind where
  | always
  | ifAllFalse
deriving DecidableEq

/-- The branch instruction to a given target. -/
def BranchKind.instruction : BranchKind → UInt16 → Instruction
  | .always, target => .branch target
  | .ifAllFalse, target => .branchIfAllFalse target

/-- One step of assembly. -/
inductive Statement where
  /-- Allocate the next label, counted from zero. -/
  | newLabel
  /-- Give a label the place of the next instruction. -/
  | bind (label : Nat)
  | branch (kind : BranchKind) (label : Nat)
  | emit (request : Request)
deriving DecidableEq

/-- What has been emitted. -/
inductive Emission where
  | plain (instruction : Instruction)
  | branch (kind : BranchKind) (label : Nat)
deriving DecidableEq

/-- The number of bytes of an emission. -/
def Emission.width : Emission → Nat
  | .plain instruction => instruction.width
  | .branch _ _ => 3

/--
The state of assembly.  Its size is the number of bytes emitted, which is the
offset of the next instruction; a label has no place before it is bound.
-/
structure Assembler where
  emitted : Array Emission := #[]
  size : Nat := 0
  labels : Array (Option Nat) := #[]
  refusal : Option BytecodeFault := none

namespace Assembler

/-- Assembly before the first statement. -/
def empty : Assembler := {}

/-- Remember a refusal unless there was one before. -/
def refuse (assembler : Assembler) (fault : BytecodeFault) : Assembler :=
  { assembler with refusal := assembler.refusal <|> some fault }

/-- Append an emission. -/
def append (assembler : Assembler) (emission : Emission) : Assembler :=
  { assembler with
    emitted := assembler.emitted.push emission
    size := assembler.size + emission.width }

/-- Take one statement. -/
def take (assembler : Assembler) : Statement → Assembler
  | .newLabel => { assembler with labels := assembler.labels.push none }
  | .bind label =>
      match assembler.labels[label]? with
      | none => assembler.refuse (.unknownLabel label)
      | some (some earlier) =>
          assembler.refuse (.labelBoundTwice label earlier assembler.size)
      | some none =>
          { assembler with
            labels := assembler.labels.setIfInBounds label (some assembler.size) }
  | .branch kind label => assembler.append (.branch kind label)
  | .emit request =>
      match request.instruction with
      | .ok instruction => assembler.append (.plain instruction)
      | .error fault => assembler.refuse fault

/-- Take statements one after the other. -/
def takeAll (assembler : Assembler) (statements : List Statement) : Assembler :=
  statements.foldl take assembler

end Assembler

/-- The instruction of an emission once all labels have their places. -/
def Emission.resolve (labels : Array (Option Nat)) :
    Emission → Except BytecodeFault Instruction
  | .plain instruction => .ok instruction
  | .branch kind label =>
      match labels[label]? with
      | some (some target) =>
          if target < 65536 then .ok (kind.instruction (UInt16.ofNat target))
          else .error (.branchTooFar target)
      | _ => .error (.labelUnbound label)

/-- The instructions that were assembled, or the first reason why there are none. -/
def Assembler.instructions (assembler : Assembler) :
    Except BytecodeFault (List Instruction) :=
  match assembler.refusal with
  | some fault => .error fault
  | none => assembler.emitted.toList.mapM (Emission.resolve assembler.labels)

/-- The code that was assembled, or the first reason why there is none. -/
def Assembler.finish (assembler : Assembler) : Except Failure (List UInt8) :=
  match assembler.instructions with
  | .ok instructions => .ok (instructions.flatMap Instruction.encode)
  | .error fault => .error (.fault (.bytecode fault))

end Lockstep
