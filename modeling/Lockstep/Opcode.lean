import Lockstep.Scalar.Operation

/-!
# Opcodes

The first byte of an encoded instruction is its opcode.  This module names the
opcodes, fixes their bytes through the table `Opcode.table`, and describes the
operand bytes that follow each of them by a `Layout`.
-/

namespace Lockstep

/-- Where a slot operand points. -/
inductive Space where
  /-- Parameters and locals of the running function. -/
  | local
  /-- Globals of the invocation. -/
  | global
  /-- Uniforms, which every lane reads alike. -/
  | uniform
deriving DecidableEq

/-- Where a slot operand may point when it is written. -/
inductive Bank where
  /-- Parameters and locals of the running function. -/
  | local
  /-- Globals of the invocation. -/
  | global
deriving DecidableEq

/-- The space that a writable bank belongs to. -/
def Bank.space : Bank → Space
  | .local => .local
  | .global => .global

/-- The word for a space in messages. -/
def Space.name : Space → String
  | .local => "local"
  | .global => "global"
  | .uniform => "uniform"

/-- The order of a matrix that can be inverted. -/
inductive Order where
  | two
  | three
  | four
deriving DecidableEq

/-- What an instruction does, its operands apart. -/
inductive Opcode where
  | unary (operation : Unary)
  | binary (operation : Binary)
  | divide (operation : Division)
  | lerp
  | mix
  | logic (operation : Logic)
  | shift (operation : Shift)
  | load (space : Space)
  | store (bank : Bank)
  | gather (space : Space)
  | scatter (bank : Bank)
  | clampIndex
  | pushImmediate
  | dup
  | pop
  | reserve
  | swizzle
  | resizeMatrix
  | multiplyMatrix
  | diagonalMatrix
  | invertMatrix (order : Order)
  | branch
  | branchIfAllFalse
  | call
  | ret
  | maskPush
  | maskPop
  | maskNegate
  | maskBlend
  | loopBegin
  | loopNext
  | loopMask
  | loopEnd
  | loopBreak
  | loopContinue
  | callExternal
  | readExternal
  | writeExternal
  | loadFragCoord
  | sampleExplicit
  | sampleMatrix
deriving DecidableEq

namespace Opcode

/-- The opcodes in the order of their bytes. -/
def table : Array Opcode := #[
  .binary .addF, .binary .addI, .binary .subtractF, .binary .subtractI,
  .binary .multiplyF, .binary .multiplyI, .binary .divideF,
  .divide .quotientS, .divide .quotientU,
  .binary .remainderF, .divide .remainderS, .divide .remainderU,
  .binary .minimumF, .binary .minimumS, .binary .maximumF, .binary .maximumS,
  .binary .power, .lerp, .mix,
  .unary .negateF, .unary .negateI, .unary .notB,
  .unary .sine, .unary .cosine, .unary .tangent, .unary .arctangent,
  .unary .squareRoot, .unary .floor, .unary .ceiling, .unary .fraction,
  .unary .floatToInteger, .unary .signedToFloat, .unary .unsignedToFloat,
  .binary (.compare .equalF), .binary (.compare .differF),
  .binary (.compare .equalI), .binary (.compare .differI),
  .binary (.compare .lessF), .binary (.compare .atMostF),
  .binary (.compare .greaterF), .binary (.compare .atLeastF),
  .binary (.compare .lessS), .binary (.compare .atMostS),
  .binary (.compare .greaterS), .binary (.compare .atLeastS),
  .binary (.compare .lessU), .binary (.compare .atMostU),
  .binary (.compare .greaterU), .binary (.compare .atLeastU),
  .logic .conjunction, .logic .disjunction, .logic .exclusive,
  .shift .left, .shift .rightS, .shift .rightU,
  .load .local, .load .global, .load .uniform, .store .local, .store .global,
  .gather .local, .gather .global, .gather .uniform,
  .scatter .local, .scatter .global,
  .clampIndex, .pushImmediate, .dup, .pop, .reserve, .swizzle,
  .resizeMatrix, .multiplyMatrix, .diagonalMatrix,
  .invertMatrix .two, .invertMatrix .three, .invertMatrix .four,
  .branch, .branchIfAllFalse, .call, .ret,
  .maskPush, .maskPop, .maskNegate, .maskBlend,
  .loopBegin, .loopNext, .loopMask, .loopEnd, .loopBreak, .loopContinue,
  .callExternal, .readExternal, .writeExternal,
  .loadFragCoord, .sampleExplicit, .sampleMatrix]

/-- The opcode that a byte encodes. -/
def ofByte? (byte : UInt8) : Option Opcode :=
  table[byte.toNat]?

/-- The byte that encodes an opcode. -/
def byte : Opcode → UInt8
  | .binary .addF => 0
  | .binary .addI => 1
  | .binary .subtractF => 2
  | .binary .subtractI => 3
  | .binary .multiplyF => 4
  | .binary .multiplyI => 5
  | .binary .divideF => 6
  | .divide .quotientS => 7
  | .divide .quotientU => 8
  | .binary .remainderF => 9
  | .divide .remainderS => 10
  | .divide .remainderU => 11
  | .binary .minimumF => 12
  | .binary .minimumS => 13
  | .binary .maximumF => 14
  | .binary .maximumS => 15
  | .binary .power => 16
  | .lerp => 17
  | .mix => 18
  | .unary .negateF => 19
  | .unary .negateI => 20
  | .unary .notB => 21
  | .unary .sine => 22
  | .unary .cosine => 23
  | .unary .tangent => 24
  | .unary .arctangent => 25
  | .unary .squareRoot => 26
  | .unary .floor => 27
  | .unary .ceiling => 28
  | .unary .fraction => 29
  | .unary .floatToInteger => 30
  | .unary .signedToFloat => 31
  | .unary .unsignedToFloat => 32
  | .binary (.compare .equalF) => 33
  | .binary (.compare .differF) => 34
  | .binary (.compare .equalI) => 35
  | .binary (.compare .differI) => 36
  | .binary (.compare .lessF) => 37
  | .binary (.compare .atMostF) => 38
  | .binary (.compare .greaterF) => 39
  | .binary (.compare .atLeastF) => 40
  | .binary (.compare .lessS) => 41
  | .binary (.compare .atMostS) => 42
  | .binary (.compare .greaterS) => 43
  | .binary (.compare .atLeastS) => 44
  | .binary (.compare .lessU) => 45
  | .binary (.compare .atMostU) => 46
  | .binary (.compare .greaterU) => 47
  | .binary (.compare .atLeastU) => 48
  | .logic .conjunction => 49
  | .logic .disjunction => 50
  | .logic .exclusive => 51
  | .shift .left => 52
  | .shift .rightS => 53
  | .shift .rightU => 54
  | .load .local => 55
  | .load .global => 56
  | .load .uniform => 57
  | .store .local => 58
  | .store .global => 59
  | .gather .local => 60
  | .gather .global => 61
  | .gather .uniform => 62
  | .scatter .local => 63
  | .scatter .global => 64
  | .clampIndex => 65
  | .pushImmediate => 66
  | .dup => 67
  | .pop => 68
  | .reserve => 69
  | .swizzle => 70
  | .resizeMatrix => 71
  | .multiplyMatrix => 72
  | .diagonalMatrix => 73
  | .invertMatrix .two => 74
  | .invertMatrix .three => 75
  | .invertMatrix .four => 76
  | .branch => 77
  | .branchIfAllFalse => 78
  | .call => 79
  | .ret => 80
  | .maskPush => 81
  | .maskPop => 82
  | .maskNegate => 83
  | .maskBlend => 84
  | .loopBegin => 85
  | .loopNext => 86
  | .loopMask => 87
  | .loopEnd => 88
  | .loopBreak => 89
  | .loopContinue => 90
  | .callExternal => 91
  | .readExternal => 92
  | .writeExternal => 93
  | .loadFragCoord => 94
  | .sampleExplicit => 95
  | .sampleMatrix => 96

/-- The name of an opcode in messages and listings. -/
def name : Opcode → String
  | .binary .addF => "AddF"
  | .binary .addI => "AddI"
  | .binary .subtractF => "SubtractF"
  | .binary .subtractI => "SubtractI"
  | .binary .multiplyF => "MultiplyF"
  | .binary .multiplyI => "MultiplyI"
  | .binary .divideF => "DivideF"
  | .divide .quotientS => "DivideS"
  | .divide .quotientU => "DivideU"
  | .binary .remainderF => "RemainderF"
  | .divide .remainderS => "RemainderS"
  | .divide .remainderU => "RemainderU"
  | .binary .minimumF => "MinF"
  | .binary .minimumS => "MinS"
  | .binary .maximumF => "MaxF"
  | .binary .maximumS => "MaxS"
  | .binary .power => "Pow"
  | .lerp => "Lerp"
  | .mix => "Mix"
  | .unary .negateF => "NegateF"
  | .unary .negateI => "NegateI"
  | .unary .notB => "NotB"
  | .unary .sine => "Sin"
  | .unary .cosine => "Cos"
  | .unary .tangent => "Tan"
  | .unary .arctangent => "ATan"
  | .unary .squareRoot => "Sqrt"
  | .unary .floor => "Floor"
  | .unary .ceiling => "Ceil"
  | .unary .fraction => "Fract"
  | .unary .floatToInteger => "ConvertFtoI"
  | .unary .signedToFloat => "ConvertStoF"
  | .unary .unsignedToFloat => "ConvertUtoF"
  | .binary (.compare .equalF) => "CompareFEQ"
  | .binary (.compare .differF) => "CompareFNEQ"
  | .binary (.compare .equalI) => "CompareIEQ"
  | .binary (.compare .differI) => "CompareINEQ"
  | .binary (.compare .lessF) => "CompareFLT"
  | .binary (.compare .atMostF) => "CompareFLTEQ"
  | .binary (.compare .greaterF) => "CompareFGT"
  | .binary (.compare .atLeastF) => "CompareFGTEQ"
  | .binary (.compare .lessS) => "CompareSLT"
  | .binary (.compare .atMostS) => "CompareSLTEQ"
  | .binary (.compare .greaterS) => "CompareSGT"
  | .binary (.compare .atLeastS) => "CompareSGTEQ"
  | .binary (.compare .lessU) => "CompareULT"
  | .binary (.compare .atMostU) => "CompareULTEQ"
  | .binary (.compare .greaterU) => "CompareUGT"
  | .binary (.compare .atLeastU) => "CompareUGTEQ"
  | .logic .conjunction => "AndB"
  | .logic .disjunction => "OrB"
  | .logic .exclusive => "XorB"
  | .shift .left => "ShiftLeft"
  | .shift .rightS => "ShiftRightS"
  | .shift .rightU => "ShiftRightU"
  | .load .local => "Load"
  | .load .global => "LoadGlobal"
  | .load .uniform => "LoadUniform"
  | .store .local => "Store"
  | .store .global => "StoreGlobal"
  | .gather .local => "LoadExtended"
  | .gather .global => "LoadExtendedGlobal"
  | .gather .uniform => "LoadExtendedUniform"
  | .scatter .local => "StoreExtended"
  | .scatter .global => "StoreExtendedGlobal"
  | .clampIndex => "ClampIndex"
  | .pushImmediate => "PushImmediate"
  | .dup => "Dup"
  | .pop => "Pop"
  | .reserve => "Reserve"
  | .swizzle => "Swizzle"
  | .resizeMatrix => "MatrixToMatrix"
  | .multiplyMatrix => "MatrixMultiply"
  | .diagonalMatrix => "ScalarToMatrix"
  | .invertMatrix .two => "Inverse2x2"
  | .invertMatrix .three => "Inverse3x3"
  | .invertMatrix .four => "Inverse4x4"
  | .branch => "Branch"
  | .branchIfAllFalse => "BranchIfAllFalse"
  | .call => "Call"
  | .ret => "Return"
  | .maskPush => "MaskPush"
  | .maskPop => "MaskPop"
  | .maskNegate => "MaskNegate"
  | .maskBlend => "MaskBlend"
  | .loopBegin => "LoopBegin"
  | .loopNext => "LoopNext"
  | .loopMask => "LoopMask"
  | .loopEnd => "LoopEnd"
  | .loopBreak => "LoopBreak"
  | .loopContinue => "LoopContinue"
  | .callExternal => "CallExternal"
  | .readExternal => "ReadExternal"
  | .writeExternal => "WriteExternal"
  | .loadFragCoord => "LoadFragCoord"
  | .sampleExplicit => "SampleExplicit"
  | .sampleMatrix => "SampleMatrix"

/-- Reading back the byte of an opcode gives the opcode. -/
@[simp]
theorem ofByte?_byte (opcode : Opcode) : ofByte? opcode.byte = some opcode := by
  cases opcode
  case binary operation =>
    cases operation
    case compare test => cases test <;> rfl
    all_goals rfl
  case unary operation => cases operation <;> rfl
  case divide operation => cases operation <;> rfl
  case logic operation => cases operation <;> rfl
  case shift operation => cases operation <;> rfl
  case load space => cases space <;> rfl
  case store bank => cases bank <;> rfl
  case gather space => cases space <;> rfl
  case scatter bank => cases bank <;> rfl
  case invertMatrix order => cases order <;> rfl
  all_goals rfl

/-- The opcode of a given name. -/
def ofName? (wanted : String) : Option Opcode :=
  table.find? fun opcode => opcode.name == wanted

end Opcode

/-- The operand bytes that follow an opcode. -/
inductive Layout where
  /-- No operand. -/
  | bare
  /-- How many registers to work on, from one to a maximum. -/
  | count (maximum : UInt8)
  /-- A count from one to four and the first slot. -/
  | slot (space : Space)
  /-- A count from one to four; the slot of each lane comes from the stack. -/
  | extended (space : Space)
  /-- One byte. -/
  | byte
  /-- A 32-bit word, lowest byte first. -/
  | immediate
  /-- A 16-bit offset into the code, lowest byte first. -/
  | target
  /-- The position of a function. -/
  | function
  /-- A source count, a count, and that many positions within the source. -/
  | swizzle
  /-- The columns and rows of a matrix before and after. -/
  | matrixResize
  /-- The columns and rows of the left matrix and the columns of the right. -/
  | matrixMultiply
  /-- The columns and rows of a matrix. -/
  | matrixShape
  /-- How many registers to return. -/
  | ret
  /-- Counts of arguments and results, and the position of an external. -/
  | externalCall
  /-- A count and the position of an external. -/
  | externalAccess
deriving DecidableEq

/-- The word for a space in the description of a layout. -/
def Space.title : Space → String
  | .local => "Local"
  | .global => "Global"
  | .uniform => "Uniform"

/-- The description of a layout in messages. -/
def Layout.describe : Layout → String
  | .bare => "Bare"
  | .count maximum => s!"Count \x7b max: {maximum} \x7d"
  | .slot space => s!"Slot({space.title})"
  | .extended space => s!"Extended({space.title})"
  | .byte => "Byte"
  | .immediate => "Imm32"
  | .target => "Target"
  | .function => "Function"
  | .swizzle => "Swizzle"
  | .matrixResize => "MatrixResize"
  | .matrixMultiply => "MatrixMultiply"
  | .matrixShape => "MatrixShape"
  | .ret => "Return"
  | .externalCall => "ExternalCall"
  | .externalAccess => "ExternalAccess"

/-- The widest short vector. -/
def widestVector : UInt8 := 4

/-- The widest run of registers that holds a matrix. -/
def widestMatrix : UInt8 := 16

/-- How many registers a unary operation may cover. -/
def Unary.widest : Unary → UInt8
  | .negateF => widestMatrix
  | _ => widestVector

/-- How many registers a binary operation may cover on each side. -/
def Binary.widest : Binary → UInt8
  | .addF | .subtractF | .multiplyF | .divideF => widestMatrix
  | .compare .equalF | .compare .differF => widestMatrix
  | _ => widestVector

/-- The operand bytes of an opcode. -/
def Opcode.layout : Opcode → Layout
  | .unary operation => .count operation.widest
  | .binary operation => .count operation.widest
  | .divide _ | .lerp | .mix => .count widestVector
  | .dup | .pop | .reserve => .count 255
  | .maskBlend => .count widestMatrix
  | .logic _ | .invertMatrix _ => .bare
  | .maskPush | .maskPop | .maskNegate => .bare
  | .loopBegin | .loopNext | .loopMask => .bare
  | .loopEnd | .loopBreak | .loopContinue => .bare
  | .loadFragCoord => .bare
  | .shift _ | .clampIndex | .sampleExplicit | .sampleMatrix => .byte
  | .load space => .slot space
  | .store bank => .slot bank.space
  | .gather space => .extended space
  | .scatter bank => .extended bank.space
  | .pushImmediate => .immediate
  | .swizzle => .swizzle
  | .resizeMatrix => .matrixResize
  | .multiplyMatrix => .matrixMultiply
  | .diagonalMatrix => .matrixShape
  | .branch | .branchIfAllFalse => .target
  | .call => .function
  | .ret => .ret
  | .callExternal => .externalCall
  | .readExternal | .writeExternal => .externalAccess

end Lockstep
