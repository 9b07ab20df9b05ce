import Lockstep.Proofs.Decoding

/-!
# Bytes that were written

The converse of reading: an instruction whose operands are admitted by the
layout of its opcode is read back from its encoding, whatever follows.
`Reader.Gives` states this for a reader, for some bytes in front of any
others.

A list of admitted instructions is therefore the listing of the bytes that
encode it, each instruction placed where the encodings before it end.  Bytes
that read to their end are such encodings, of one list of instructions only.
-/

namespace Lockstep

namespace Reader

variable {α β : Type}

/-- The reader takes the bytes in front of any others for a value. -/
def Gives (reader : Reader α) (bytes : List UInt8) (value : α) : Prop :=
  ∀ offset rest,
    reader ⟨offset, bytes ++ rest⟩ = .ok (value, ⟨offset + bytes.length, rest⟩)

theorem Gives.pure (value : α) : Gives (Pure.pure value) [] value :=
  fun _ _ => rfl

theorem Gives.bind {first : Reader α} {next : α → Reader β} {front back : List UInt8}
    {value : α} {result : β} (given : Gives first front value)
    (followed : Gives (next value) back result) :
    Gives (first >>= next) (front ++ back) result := by
  intro offset rest
  change (first ⟨offset, (front ++ back) ++ rest⟩ >>= fun read => next read.1 read.2) = _
  rw [List.append_assoc, given]
  change next value _ = _
  rw [followed, List.length_append, Nat.add_assoc]

/-- A last operand. -/
theorem Gives.last {reader : Reader α} {make : α → β} {bytes : List UInt8} {value : α}
    (given : Gives reader bytes value) :
    Gives (do return make (← reader)) bytes (make value) := by
  rw [← List.append_nil bytes]
  exact given.bind (Gives.pure (make value))

/-- An operand of one byte that is followed by others. -/
theorem Gives.cons {first : Reader α} {next : α → Reader β} {byte : UInt8}
    {back : List UInt8} {value : α} {result : β} (given : Gives first [byte] value)
    (followed : Gives (next value) back result) :
    Gives (first >>= next) (byte :: back) result :=
  given.bind followed

theorem gives_byte (value : UInt8) : Gives byte [value] value :=
  fun _ _ => rfl

theorem gives_half (number : UInt16) : Gives half (bytes16 number) number := by
  intro offset rest
  change Except.ok (number16 _ _, _) = _
  rw [number16_bytes16]
  rfl

theorem gives_word (bits : Word) : Gives word (bytes32 bits) bits := by
  intro offset rest
  change Except.ok (number32 _ _ _ _, _) = _
  rw [number32_bytes32]
  rfl

theorem gives_within {opcode : Opcode} {role : OperandRole} {low high value : UInt8}
    (range : Within low high value) :
    Gives (within opcode role low high) [value] value := by
  apply Gives.cons (gives_byte value)
  have passed : checkOperand opcode role low high value = .ok () := if_pos range
  rw [passed]
  exact Gives.pure value

theorem gives_picks {source : UInt8} (positive : 1 ≤ source) {positions : List UInt8}
    (inside : ∀ pick ∈ positions, pick < source) :
    Gives (picks source positions.length) positions positions := by
  induction positions with
  | nil =>
      exact Gives.pure []
  | cons pick positions induction =>
      obtain ⟨first, others⟩ := List.forall_mem_cons.mp inside
      have small : pick ≤ source - 1 := (UInt8.le_sub_one_iff positive).mpr first
      exact (gives_within ⟨UInt8.le_iff_toNat_le.mpr (Nat.zero_le _), small⟩).cons
        (induction others).last

theorem Gives.demanding {reader : Reader α} {bytes : List UInt8} {value : α}
    (given : Gives reader bytes value) (demand : Nat) :
    Gives (demanding demand reader) bytes value := by
  intro offset rest
  unfold Reader.demanding
  rw [given]

theorem gives_swizzle {source : UInt8} {positions : List UInt8}
    (admitted : Layout.swizzle.Admits (Computation.swizzle source positions).operands) :
    Gives swizzle (Computation.swizzle source positions).operands
      (.swizzle source positions) := by
  obtain ⟨sources, counts, counted, inside⟩ := admitted
  refine (gives_within sources).cons ((gives_within counts).cons ?_)
  rw [← counted]
  exact ((gives_picks sources.1 inside).demanding _).last

/-- Admitted operands are read back. -/
theorem gives_operands {instruction : Instruction} (admitted : instruction.Admitted) :
    Gives (operands instruction.opcode) instruction.operands instruction := by
  cases instruction with
  | compute computation =>
      cases computation with
      | unary operation count => exact (gives_within admitted).last
      | binary operation count => exact (gives_within admitted).last
      | lerp count => exact (gives_within admitted).last
      | mix count => exact (gives_within admitted).last
      | logic operation => exact Gives.pure _
      | immediate bits => exact (gives_word bits).last
      | dup count => exact (gives_within admitted).last
      | pop count => exact (gives_within admitted).last
      | reserve count => exact (gives_within admitted).last
      | swizzle source positions => exact (gives_swizzle admitted).last
      | resizeMatrix fromColumns fromRows toColumns toRows =>
          obtain ⟨first, second, third, fourth⟩ := admitted
          exact (gives_within first).cons ((gives_within second).cons
            ((gives_within third).cons (gives_within fourth).last))
      | multiplyMatrix leftColumns leftRows rightColumns =>
          obtain ⟨first, second, third⟩ := admitted
          exact (gives_within first).cons
            ((gives_within second).cons (gives_within third).last)
      | diagonalMatrix columns rows =>
          obtain ⟨first, second⟩ := admitted
          exact (gives_within first).cons (gives_within second).last
      | invertMatrix order => exact Gives.pure _
  | divide operation count => exact (gives_within admitted).last
  | shift operation amount => exact (gives_byte amount).last
  | load space count slot => exact (gives_within admitted).cons (gives_byte slot).last
  | store bank count slot => exact (gives_within admitted).cons (gives_byte slot).last
  | gather space count => exact (gives_within admitted).last
  | scatter bank count => exact (gives_within admitted).last
  | clampIndex length => exact (gives_byte length).last
  | branch target => exact (gives_half target).last
  | branchIfAllFalse target => exact (gives_half target).last
  | call function => exact (gives_byte function).last
  | ret count => exact (gives_byte count).last
  | maskBlend count => exact (gives_within admitted).last
  | callExternal arguments results external =>
      obtain ⟨first, second⟩ := admitted
      exact (gives_within first).cons
        ((gives_within second).cons (gives_byte external).last)
  | readExternal count external =>
      exact (gives_within admitted).cons (gives_byte external).last
  | writeExternal count external =>
      exact (gives_within admitted).cons (gives_byte external).last
  | sampleExplicit child => exact (gives_byte child).last
  | sampleMatrix child => exact (gives_byte child).last
  | _ => exact Gives.pure _

end Reader

/-! ## Instructions -/

/-- An instruction is read exactly from its encoding, and only if it is admitted. -/
theorem Instruction.decode_eq_ok_iff {offset : Nat} {bytes : List UInt8}
    {instruction : Instruction} :
    Instruction.decode offset bytes = .ok instruction ↔
      instruction.encode <+: bytes ∧ instruction.Admitted := by
  refine ⟨Instruction.decode_eq_ok, ?_⟩
  rintro ⟨⟨rest, rfl⟩, admitted⟩
  have opened : Opcode.decode offset (instruction.encode ++ rest) =
      .ok instruction.opcode := by
    simp only [Instruction.encode, List.cons_append, Opcode.decode, Opcode.ofByte?_byte]
  rw [Instruction.decode, opened]
  change (Reader.operands _ ⟨offset + 1, instruction.operands ++ rest⟩).map _ = _
  rw [Reader.gives_operands admitted]
  rfl

/-! ## Listings -/

/-- The instructions of a list, one after the other from an offset on. -/
def placeFrom (offset : Nat) : List Instruction → List Placed
  | [] => []
  | instruction :: later =>
      ⟨offset, instruction⟩ :: placeFrom (offset + instruction.width) later

@[simp]
theorem map_instruction_placeFrom (offset : Nat) (instructions : List Instruction) :
    (placeFrom offset instructions).map Placed.instruction = instructions := by
  induction instructions generalizing offset with
  | nil =>
      rfl
  | cons instruction later induction =>
      rw [placeFrom, List.map_cons, induction]

/-- An instruction stands where the encodings of those before it end. -/
theorem mem_placeFrom {offset : Nat} {instructions : List Instruction} {placed : Placed} :
    placed ∈ placeFrom offset instructions ↔
      ∃ earlier later, instructions = earlier ++ placed.instruction :: later ∧
        placed.offset = offset + (earlier.flatMap Instruction.encode).length := by
  induction instructions generalizing offset with
  | nil =>
      simp [placeFrom]
  | cons instruction rest induction =>
      rw [placeFrom, List.mem_cons, induction]
      constructor
      · rintro (rfl | ⟨earlier, later, rfl, place⟩)
        · exact ⟨[], rest, rfl, rfl⟩
        · refine ⟨instruction :: earlier, later, rfl, ?_⟩
          rw [place, List.flatMap_cons, List.length_append, Nat.add_assoc]
          rfl
      · rintro ⟨_ | ⟨first, earlier⟩, later, split, place⟩
        · rcases split with ⟨⟩
          exact Or.inl (congrArg (Placed.mk · placed.instruction) place)
        · rcases split with ⟨⟩
          refine Or.inr ⟨earlier, later, rfl, ?_⟩
          rw [place, List.flatMap_cons, List.length_append, Nat.add_assoc]
          rfl

namespace Listing

/-- Encodings of admitted instructions are read back one after the other. -/
theorem read_encodings {instructions : List Instruction}
    (admitted : ∀ instruction ∈ instructions, instruction.Admitted) (offset : Nat) :
    read offset 0 (instructions.flatMap Instruction.encode) =
      { instructions := placeFrom offset instructions, stopped := none } := by
  induction instructions generalizing offset with
  | nil =>
      rfl
  | cons instruction later induction =>
      obtain ⟨first, others⟩ := List.forall_mem_cons.mp admitted
      rw [List.flatMap_cons,
        read_decoded (Instruction.decode_eq_ok_iff.mpr ⟨List.prefix_append _ _, first⟩)]
      have rest : (instruction.encode ++ later.flatMap Instruction.encode).drop
          instruction.width = later.flatMap Instruction.encode :=
        List.drop_left
      rw [rest, induction others, placeFrom]

/-- Bytes that are read to their end are the encodings of what was read. -/
theorem encodings_of_read {offset : Nat} {bytes : List UInt8}
    (whole : (read offset 0 bytes).stopped = none) :
    ∃ instructions : List Instruction,
      bytes = instructions.flatMap Instruction.encode ∧
        ∀ instruction ∈ instructions, instruction.Admitted := by
  induction offset, bytes using read_induction with
  | finished offset =>
      exact ⟨[], rfl, fun _ member => absurd member List.not_mem_nil⟩
  | stopped offset byte rest malformed failed =>
      rw [read_malformed failed] at whole
      exact absurd whole (by simp)
  | listed offset bytes instruction decoded induction =>
      rw [read_decoded decoded] at whole
      obtain ⟨⟨rest, rfl⟩, admitted⟩ := Instruction.decode_eq_ok decoded
      have remaining : (instruction.encode ++ rest).drop instruction.width = rest :=
        List.drop_left
      rw [remaining] at induction whole
      obtain ⟨later, rfl, others⟩ := induction whole
      exact ⟨instruction :: later, rfl, List.forall_mem_cons.mpr ⟨admitted, others⟩⟩

end Listing

/-- Admitted instructions are determined by the bytes that encode them. -/
theorem encodings_injective {left right : List Instruction}
    (leftAdmitted : ∀ instruction ∈ left, instruction.Admitted)
    (rightAdmitted : ∀ instruction ∈ right, instruction.Admitted)
    (same : left.flatMap Instruction.encode = right.flatMap Instruction.encode) :
    left = right := by
  have listed := Listing.read_encodings leftAdmitted 0
  rw [same, Listing.read_encodings rightAdmitted 0] at listed
  have placed : placeFrom 0 right = placeFrom 0 left :=
    congrArg Listing.instructions listed
  rw [← map_instruction_placeFrom 0 left, ← placed, map_instruction_placeFrom]

end Lockstep
