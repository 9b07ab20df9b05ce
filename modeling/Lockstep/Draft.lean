import Lockstep.Assembler

/-!
# Drafts of code

The bytes of a function while it is being assembled.  A draft takes the
statements that an assembler takes and writes bytes at once.  A branch is
written with two zeros in the place of its target, since its label may not have
a place yet, and a fixup notes where they are.

When assembly ends the targets are patched in, in place and one fixup after the
other.
-/

namespace Lockstep

/-- The opcode that a request names. -/
def Request.opcode : Request → Opcode
  | .bare opcode => opcode
  | .counted opcode _ => opcode
  | .indexed opcode _ => opcode
  | .byte opcode _ => opcode
  | .push _ => .pushImmediate
  | .load space _ _ => .load space
  | .store bank _ _ => .store bank
  | .call _ => .call
  | .ret _ => .ret
  | .swizzle _ _ => .swizzle
  | .resizeMatrix _ _ _ _ => .resizeMatrix
  | .multiplyMatrix _ _ _ => .multiplyMatrix
  | .diagonalMatrix _ _ => .diagonalMatrix
  | .callExternal _ _ _ => .callExternal
  | .readExternal _ _ => .readExternal
  | .writeExternal _ _ => .writeExternal

/-- The operand bytes that a request spells out. -/
def Request.operands : Request → List UInt8
  | .bare _ => []
  | .counted _ count => [count]
  | .indexed _ count => [count]
  | .byte _ operand => [operand]
  | .push bits => bytes32 bits
  | .load _ count slot => [count, slot]
  | .store _ count slot => [count, slot]
  | .call function => [function]
  | .ret count => [count]
  | .swizzle source picks => source :: UInt8.ofNat picks.length :: picks
  | .resizeMatrix fromColumns fromRows toColumns toRows =>
      [fromColumns, fromRows, toColumns, toRows]
  | .multiplyMatrix leftColumns leftRows rightColumns =>
      [leftColumns, leftRows, rightColumns]
  | .diagonalMatrix columns rows => [columns, rows]
  | .callExternal arguments results external => [arguments, results, external]
  | .readExternal count external => [count, external]
  | .writeExternal count external => [count, external]

/-- The opcode of a branch. -/
def BranchKind.opcode : BranchKind → Opcode
  | .always => .branch
  | .ifAllFalse => .branchIfAllFalse

/-- Two bytes of a draft that wait for the place of a label. -/
structure Fixup where
  position : Nat
  label : Nat
deriving DecidableEq

/-- The bytes written so far, the labels, and what the first refusal was. -/
structure Draft where
  code : Array UInt8 := #[]
  labels : Array (Option Nat) := #[]
  fixups : Array Fixup := #[]
  refusal : Option BytecodeFault := none

namespace Draft

/-- The draft before the first statement. -/
def empty : Draft := {}

/-- The offset of the next instruction. -/
def here (draft : Draft) : Nat :=
  draft.code.size

/-- Remember a refusal unless there was one before. -/
def refuse (draft : Draft) (fault : BytecodeFault) : Draft :=
  { draft with refusal := draft.refusal <|> some fault }

/-- Write an opcode and its operands. -/
def write (draft : Draft) (opcode : Opcode) (operands : List UInt8) : Draft :=
  { draft with code := draft.code ++ opcode.byte :: operands }

/-- Write a branch with zeros for its target, and note where they are. -/
def jump (draft : Draft) (kind : BranchKind) (label : Nat) : Draft :=
  let opened := draft.write kind.opcode []
  { opened with
    code := opened.code ++ ([0, 0] : List UInt8)
    fixups := opened.fixups.push ⟨opened.here, label⟩ }

/-- Take one statement. -/
def take (draft : Draft) : Statement → Draft
  | .newLabel => { draft with labels := draft.labels.push none }
  | .bind label =>
      match draft.labels[label]? with
      | none => draft.refuse (.unknownLabel label)
      | some (some earlier) => draft.refuse (.labelBoundTwice label earlier draft.here)
      | some none =>
          { draft with labels := draft.labels.setIfInBounds label (some draft.here) }
  | .branch kind label => draft.jump kind label
  | .emit request =>
      match request.instruction with
      | .ok _ => draft.write request.opcode request.operands
      | .error fault => draft.refuse fault

/-- Take statements one after the other. -/
def takeAll (draft : Draft) (statements : List Statement) : Draft :=
  statements.foldl take draft

end Draft

/-- Put bytes in the place of others, from a position on. -/
def patchBytes (code : List UInt8) (position : Nat) (bytes : List UInt8) :
    Except Failure (List UInt8) :=
  if position + bytes.length ≤ code.length then
    .ok (code.take position ++ bytes ++ code.drop (position + bytes.length))
  else .error .trap

/-- Patch the place of its label into the bytes of a fixup. -/
def Fixup.patch (labels : Array (Option Nat)) (code : List UInt8) (fixup : Fixup) :
    Except Failure (List UInt8) :=
  match labels[fixup.label]? with
  | some (some target) =>
      if target < 65536 then patchBytes code fixup.position (bytes16 (UInt16.ofNat target))
      else .error (.fault (.bytecode (.branchTooFar target)))
  | _ => .error (.fault (.bytecode (.labelUnbound fixup.label)))

/-- The code with all targets patched in, or the first reason why there is none. -/
def Draft.finish (draft : Draft) : Except Failure (List UInt8) :=
  match draft.refusal with
  | some fault => .error (.fault (.bytecode fault))
  | none => draft.fixups.toList.foldlM (Fixup.patch draft.labels) draft.code.toList

end Lockstep
