import Lockstep.Failure
import Lockstep.Instruction.Basic

/-!
# Reading instructions

`Instruction.decode` reads one instruction from the front of a list of bytes.
Operand bytes are read in order and each is compared with its range as soon as
it is read, so the fault that comes back is the first one in the bytes.
`Listing.ofCode` reads instructions one after the other until the bytes end
or a fault stops it.

The component positions of a swizzle are looked at only once its source
operands are known to be there.  A fault in one of them therefore carries a
demand, the number of operands whose absence is to be reported first.
-/

namespace Lockstep

/-- Why the bytes at some offset are not an instruction. -/
structure Malformed where
  /-- The first fault in the bytes. -/
  fault : BytecodeFault
  /-- Operands that have to be present before the fault counts. -/
  demand : Nat := 0
deriving DecidableEq

/-- A place in the code and the bytes from there on. -/
structure Cursor where
  /-- Offset of the next byte. -/
  offset : Nat
  /-- The bytes not yet read. -/
  bytes : List UInt8
deriving DecidableEq

/-- Readers of bytes. -/
abbrev Reader (α : Type) : Type := StateT Cursor (Except Malformed) α

namespace Reader

/-- Read one byte. -/
def byte : Reader UInt8 := fun cursor =>
  match cursor.bytes with
  | first :: rest => .ok (first, ⟨cursor.offset + 1, rest⟩)
  | [] => .error { fault := .truncated cursor.offset 1 }

/-- Read a 16-bit number, lowest byte first. -/
def half : Reader UInt16 := fun cursor =>
  match cursor.bytes with
  | low :: high :: rest => .ok (number16 low high, ⟨cursor.offset + 2, rest⟩)
  | _ => .error { fault := .truncated cursor.offset 2 }

/-- Read a word, lowest byte first. -/
def word : Reader Word := fun cursor =>
  match cursor.bytes with
  | b₀ :: b₁ :: b₂ :: b₃ :: rest =>
      .ok (number32 b₀ b₁ b₂ b₃, ⟨cursor.offset + 4, rest⟩)
  | _ => .error { fault := .truncated cursor.offset 4 }

end Reader

/-- The fault of an operand outside its range, if it is outside. -/
def checkOperand (opcode : Opcode) (role : OperandRole) (low high value : UInt8) :
    Except BytecodeFault Unit :=
  if low ≤ value ∧ value ≤ high then .ok ()
  else .error (.operand opcode role value low high)

namespace Reader

/-- Read one byte that has to lie in a range. -/
def within (opcode : Opcode) (role : OperandRole) (low high : UInt8) :
    Reader UInt8 := do
  let value ← byte
  match checkOperand opcode role low high value with
  | .ok () => return value
  | .error fault => throw { fault := fault }

/-- Read a count from one to a maximum. -/
def count (opcode : Opcode) (maximum : UInt8) : Reader UInt8 :=
  within opcode .count 1 maximum

/-- Read the extent of a matrix in one direction. -/
def extent (opcode : Opcode) (role : OperandRole) : Reader UInt8 :=
  within opcode role 2 4

/-- Read the extent of a factor, which may be a vector. -/
def factorExtent (opcode : Opcode) : Reader UInt8 :=
  within opcode .dimension 1 4

/-- Read a given number of positions below a source count. -/
def picks (source : UInt8) : Nat → Reader (List UInt8)
  | 0 => return []
  | remaining + 1 => do
      let pick ← within .swizzle .index 0 (source - 1)
      return pick :: (← picks source remaining)

/-- Report a shortage of operands before any fault of a reader. -/
def demanding {α : Type} (demand : Nat) (reader : Reader α) : Reader α := fun cursor =>
  match reader cursor with
  | .ok result => .ok result
  | .error malformed => .error { malformed with demand := demand }

/-- Read the operands of a swizzle. -/
def swizzle : Reader Computation := do
  let source ← within .swizzle .sourceCount 1 widestVector
  let count ← within .swizzle .count 1 widestVector
  return .swizzle source (← demanding source.toNat (picks source count.toNat))

/-- Read the operands that an opcode asks for. -/
def operands (opcode : Opcode) : Reader Instruction :=
  match opcode with
  | .unary operation =>
      return .compute (.unary operation (← count opcode operation.widest))
  | .binary operation =>
      return .compute (.binary operation (← count opcode operation.widest))
  | .divide operation => return .divide operation (← count opcode widestVector)
  | .lerp => return .compute (.lerp (← count opcode widestVector))
  | .mix => return .compute (.mix (← count opcode widestVector))
  | .logic operation => return .compute (.logic operation)
  | .shift operation => return .shift operation (← byte)
  | .load space => do
      let count ← count opcode widestVector
      return .load space count (← byte)
  | .store bank => do
      let count ← count opcode widestVector
      return .store bank count (← byte)
  | .gather space => return .gather space (← count opcode widestVector)
  | .scatter bank => return .scatter bank (← count opcode widestVector)
  | .clampIndex => return .clampIndex (← byte)
  | .pushImmediate => return .compute (.immediate (← word))
  | .dup => return .compute (.dup (← count opcode 255))
  | .pop => return .compute (.pop (← count opcode 255))
  | .reserve => return .compute (.reserve (← count opcode 255))
  | .swizzle => return .compute (← swizzle)
  | .resizeMatrix => do
      let fromColumns ← extent opcode .dimension
      let fromRows ← extent opcode .dimension
      let toColumns ← extent opcode .dimension
      let toRows ← extent opcode .dimension
      return .compute (.resizeMatrix fromColumns fromRows toColumns toRows)
  | .multiplyMatrix => do
      let leftColumns ← factorExtent opcode
      let leftRows ← factorExtent opcode
      let rightColumns ← factorExtent opcode
      return .compute (.multiplyMatrix leftColumns leftRows rightColumns)
  | .diagonalMatrix => do
      let columns ← extent opcode .columns
      let rows ← extent opcode .rows
      return .compute (.diagonalMatrix columns rows)
  | .invertMatrix order => return .compute (.invertMatrix order)
  | .branch => return .branch (← half)
  | .branchIfAllFalse => return .branchIfAllFalse (← half)
  | .call => return .call (← byte)
  | .ret => return .ret (← byte)
  | .maskPush => return .maskPush
  | .maskPop => return .maskPop
  | .maskNegate => return .maskNegate
  | .maskBlend => return .maskBlend (← count opcode widestMatrix)
  | .loopBegin => return .loopBegin
  | .loopNext => return .loopNext
  | .loopMask => return .loopMask
  | .loopEnd => return .loopEnd
  | .loopBreak => return .loopBreak
  | .loopContinue => return .loopContinue
  | .callExternal => do
      let arguments ← within opcode .argumentCount 0 4
      let results ← within opcode .returnCount 0 4
      return .callExternal arguments results (← byte)
  | .readExternal => do
      let count ← count opcode widestVector
      return .readExternal count (← byte)
  | .writeExternal => do
      let count ← count opcode widestVector
      return .writeExternal count (← byte)
  | .loadFragCoord => return .loadFragCoord
  | .sampleExplicit => return .sampleExplicit (← byte)
  | .sampleMatrix => return .sampleMatrix (← byte)

end Reader

/-- Read the opcode at the front of some bytes. -/
def Opcode.decode (offset : Nat) : List UInt8 → Except BytecodeFault Opcode
  | [] => .error (.truncated offset 1)
  | byte :: _ =>
      match Opcode.ofByte? byte with
      | some opcode => .ok opcode
      | none => .error (.unknownOpcode byte offset)

/-- Read the operands of an opcode that stands at the front of some bytes. -/
def Opcode.complete (opcode : Opcode) (offset : Nat) (bytes : List UInt8) :
    Except Malformed Instruction :=
  (Reader.operands opcode ⟨offset + 1, bytes.drop 1⟩).map (·.1)

/-- Read the instruction at the front of some bytes. -/
def Instruction.decode (offset : Nat) (bytes : List UInt8) :
    Except Malformed Instruction :=
  match Opcode.decode offset bytes with
  | .ok opcode => opcode.complete offset bytes
  | .error fault => .error { fault := fault }

/-- An instruction and the offset of its first byte. -/
structure Placed where
  /-- Offset of the opcode. -/
  offset : Nat
  /-- The instruction that starts there. -/
  instruction : Instruction
deriving DecidableEq

/-- What reading a code from its first byte gives. -/
structure Listing where
  /-- The instructions, in order. -/
  instructions : List Placed
  /-- The offset and the reason at which reading stopped before the end. -/
  stopped : Option (Nat × Malformed)
deriving DecidableEq

/--
Read instructions one after the other.  The next `skip` bytes belong to the
instruction before them.
-/
def Listing.read (offset skip : Nat) : List UInt8 → Listing
  | [] => { instructions := [], stopped := none }
  | byte :: rest =>
      match skip with
      | skip + 1 => Listing.read (offset + 1) skip rest
      | 0 =>
          match Instruction.decode offset (byte :: rest) with
          | .ok instruction =>
              let later := Listing.read (offset + 1) (instruction.width - 1) rest
              { later with
                instructions := ⟨offset, instruction⟩ :: later.instructions }
          | .error malformed =>
              { instructions := [], stopped := some (offset, malformed) }

/-- The instructions of a code. -/
def Listing.ofCode (code : List UInt8) : Listing :=
  Listing.read 0 0 code

end Lockstep
