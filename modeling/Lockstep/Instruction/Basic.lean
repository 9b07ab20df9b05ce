import Lockstep.Opcode

/-!
# Instructions

An instruction is an opcode together with its operands.  A `Computation`
changes only the operand stack and does so by the same scalar function in
every lane; the other instructions reach memory, masks, control or the host.

`Instruction.encode` gives the bytes of an instruction and
`Instruction.width` their number, which is never zero.
-/

namespace Lockstep

/-- An instruction that computes on the operand stack, lane by lane. -/
inductive Computation where
  | unary (operation : Unary) (count : UInt8)
  | binary (operation : Binary) (count : UInt8)
  /-- Interpolate between two vectors. -/
  | lerp (count : UInt8)
  /-- Choose between two vectors, component by component. -/
  | mix (count : UInt8)
  | logic (operation : Logic)
  /-- Push a word into every lane. -/
  | immediate (bits : Word)
  /-- Push the topmost operands again. -/
  | dup (count : UInt8)
  /-- Drop the topmost operands. -/
  | pop (count : UInt8)
  /-- Push zeros. -/
  | reserve (count : UInt8)
  /-- Replace the topmost operands by chosen ones of them. -/
  | swizzle (source : UInt8) (picks : List UInt8)
  | resizeMatrix (fromColumns fromRows toColumns toRows : UInt8)
  | multiplyMatrix (leftColumns leftRows rightColumns : UInt8)
  | diagonalMatrix (columns rows : UInt8)
  | invertMatrix (order : Order)
deriving DecidableEq

/-- An instruction with its operands. -/
inductive Instruction where
  | compute (computation : Computation)
  /-- Divide integers on the live lanes. -/
  | divide (operation : Division) (count : UInt8)
  | shift (operation : Shift) (amount : UInt8)
  /-- Push a run of slots. -/
  | load (space : Space) (count slot : UInt8)
  /-- Pop into a run of slots, on the live lanes. -/
  | store (bank : Bank) (count slot : UInt8)
  /-- Push a run of slots that starts at an index of each lane. -/
  | gather (space : Space) (count : UInt8)
  /-- Pop into a run of slots that starts at an index of each live lane. -/
  | scatter (bank : Bank) (count : UInt8)
  /-- Fail unless the topmost operand is an index below a length. -/
  | clampIndex (length : UInt8)
  | branch (target : UInt16)
  | branchIfAllFalse (target : UInt16)
  | call (function : UInt8)
  | ret (count : UInt8)
  | maskPush
  | maskPop
  | maskNegate
  /-- Choose between two vectors by the condition of a scope that ends. -/
  | maskBlend (count : UInt8)
  | loopBegin
  | loopNext
  | loopMask
  | loopEnd
  | loopBreak
  | loopContinue
  | callExternal (arguments results external : UInt8)
  | readExternal (count external : UInt8)
  | writeExternal (count external : UInt8)
  | loadFragCoord
  | sampleExplicit (child : UInt8)
  | sampleMatrix (child : UInt8)
deriving DecidableEq

/-- The bytes of a 16-bit number, lowest first. -/
def bytes16 (number : UInt16) : List UInt8 :=
  [UInt8.ofNat number.toNat, UInt8.ofNat (number.toNat / 256)]

/-- The 16-bit number with given bytes, lowest first. -/
def number16 (low high : UInt8) : UInt16 :=
  UInt16.ofNat (low.toNat + 256 * high.toNat)

theorem number16_bytes16 (number : UInt16) :
    number16 (UInt8.ofNat number.toNat) (UInt8.ofNat (number.toNat / 256)) =
      number := by
  apply UInt16.toNat_inj.mp
  have bound := number.toNat_lt
  simp only [number16, UInt16.toNat_ofNat', UInt8.toNat_ofNat']
  omega

/-- The bytes of a word, lowest first. -/
def bytes32 (word : Word) : List UInt8 :=
  [UInt8.ofNat word.toNat, UInt8.ofNat (word.toNat / 256),
    UInt8.ofNat (word.toNat / 65536), UInt8.ofNat (word.toNat / 16777216)]

/-- The word with given bytes, lowest first. -/
def number32 (b₀ b₁ b₂ b₃ : UInt8) : Word :=
  UInt32.ofNat
    (b₀.toNat + 256 * b₁.toNat + 65536 * b₂.toNat + 16777216 * b₃.toNat)

theorem number32_bytes32 (word : Word) :
    number32 (UInt8.ofNat word.toNat) (UInt8.ofNat (word.toNat / 256))
        (UInt8.ofNat (word.toNat / 65536)) (UInt8.ofNat (word.toNat / 16777216)) =
      word := by
  apply UInt32.toNat_inj.mp
  have bound := word.toNat_lt
  simp only [number32, UInt32.toNat_ofNat', UInt8.toNat_ofNat']
  omega

namespace Computation

/-- The opcode of a computation. -/
def opcode : Computation → Opcode
  | .unary operation _ => .unary operation
  | .binary operation _ => .binary operation
  | .lerp _ => .lerp
  | .mix _ => .mix
  | .logic operation => .logic operation
  | .immediate _ => .pushImmediate
  | .dup _ => .dup
  | .pop _ => .pop
  | .reserve _ => .reserve
  | .swizzle _ _ => .swizzle
  | .resizeMatrix _ _ _ _ => .resizeMatrix
  | .multiplyMatrix _ _ _ => .multiplyMatrix
  | .diagonalMatrix _ _ => .diagonalMatrix
  | .invertMatrix order => .invertMatrix order

/-- The operand bytes of a computation. -/
def operands : Computation → List UInt8
  | .unary _ count => [count]
  | .binary _ count => [count]
  | .lerp count => [count]
  | .mix count => [count]
  | .logic _ => []
  | .immediate bits => bytes32 bits
  | .dup count => [count]
  | .pop count => [count]
  | .reserve count => [count]
  | .swizzle source picks => source :: UInt8.ofNat picks.length :: picks
  | .resizeMatrix fromColumns fromRows toColumns toRows =>
      [fromColumns, fromRows, toColumns, toRows]
  | .multiplyMatrix leftColumns leftRows rightColumns =>
      [leftColumns, leftRows, rightColumns]
  | .diagonalMatrix columns rows => [columns, rows]
  | .invertMatrix _ => []

end Computation

namespace Instruction

/-- The opcode of an instruction. -/
def opcode : Instruction → Opcode
  | .compute computation => computation.opcode
  | .divide operation _ => .divide operation
  | .shift operation _ => .shift operation
  | .load space _ _ => .load space
  | .store bank _ _ => .store bank
  | .gather space _ => .gather space
  | .scatter bank _ => .scatter bank
  | .clampIndex _ => .clampIndex
  | .branch _ => .branch
  | .branchIfAllFalse _ => .branchIfAllFalse
  | .call _ => .call
  | .ret _ => .ret
  | .maskPush => .maskPush
  | .maskPop => .maskPop
  | .maskNegate => .maskNegate
  | .maskBlend _ => .maskBlend
  | .loopBegin => .loopBegin
  | .loopNext => .loopNext
  | .loopMask => .loopMask
  | .loopEnd => .loopEnd
  | .loopBreak => .loopBreak
  | .loopContinue => .loopContinue
  | .callExternal _ _ _ => .callExternal
  | .readExternal _ _ => .readExternal
  | .writeExternal _ _ => .writeExternal
  | .loadFragCoord => .loadFragCoord
  | .sampleExplicit _ => .sampleExplicit
  | .sampleMatrix _ => .sampleMatrix

/-- The operand bytes of an instruction. -/
def operands : Instruction → List UInt8
  | .compute computation => computation.operands
  | .divide _ count => [count]
  | .shift _ amount => [amount]
  | .load _ count slot => [count, slot]
  | .store _ count slot => [count, slot]
  | .gather _ count => [count]
  | .scatter _ count => [count]
  | .clampIndex length => [length]
  | .branch target => bytes16 target
  | .branchIfAllFalse target => bytes16 target
  | .call function => [function]
  | .ret count => [count]
  | .maskPush => []
  | .maskPop => []
  | .maskNegate => []
  | .maskBlend count => [count]
  | .loopBegin => []
  | .loopNext => []
  | .loopMask => []
  | .loopEnd => []
  | .loopBreak => []
  | .loopContinue => []
  | .callExternal arguments results external => [arguments, results, external]
  | .readExternal count external => [count, external]
  | .writeExternal count external => [count, external]
  | .loadFragCoord => []
  | .sampleExplicit child => [child]
  | .sampleMatrix child => [child]

/-- The bytes of an instruction. -/
def encode (instruction : Instruction) : List UInt8 :=
  instruction.opcode.byte :: instruction.operands

/-- The number of bytes of an instruction. -/
def width (instruction : Instruction) : Nat :=
  instruction.encode.length

theorem width_eq (instruction : Instruction) :
    instruction.width = instruction.operands.length + 1 := by
  simp [width, encode]

theorem width_pos (instruction : Instruction) : 0 < instruction.width := by
  simp [width_eq]

end Instruction

end Lockstep
