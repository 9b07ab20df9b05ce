import Lockstep.Instruction.Decode
import Mathlib.Tactic.Common

/-!
# Bytes that were read

An instruction that was read is spelled out by the bytes it was read from, so
a reader moves past exactly the encoding of what it gives.  `Reader.Reads`
states this for a reader: the bytes it consumed and the value they stand for.
Its operands are among those that the layout of its opcode admits.

A listing places instructions one after the other.  An offset is a boundary
of a code if an instruction of its listing starts there or if the code ends
there; `Listing.boundary_next` says that a code which is read to its end leads
from boundary to boundary.
-/

namespace Lockstep

/-! ## Numbers -/

theorem bytes16_number16 (low high : UInt8) :
    bytes16 (number16 low high) = [low, high] := by
  have lowBound := low.toNat_lt
  have highBound := high.toNat_lt
  have value : (number16 low high).toNat = low.toNat + 256 * high.toNat := by
    simp only [number16, UInt16.toNat_ofNat']
    omega
  unfold bytes16
  rw [value]
  congr
  · apply UInt8.toNat_inj.mp
    simp only [UInt8.toNat_ofNat']
    omega
  · apply UInt8.toNat_inj.mp
    simp only [UInt8.toNat_ofNat']
    omega

theorem bytes32_number32 (b₀ b₁ b₂ b₃ : UInt8) :
    bytes32 (number32 b₀ b₁ b₂ b₃) = [b₀, b₁, b₂, b₃] := by
  have bound₀ := b₀.toNat_lt
  have bound₁ := b₁.toNat_lt
  have bound₂ := b₂.toNat_lt
  have bound₃ := b₃.toNat_lt
  have value : (number32 b₀ b₁ b₂ b₃).toNat =
      b₀.toNat + 256 * b₁.toNat + 65536 * b₂.toNat + 16777216 * b₃.toNat := by
    simp only [number32, UInt32.toNat_ofNat']
    omega
  unfold bytes32
  rw [value]
  congr <;>
  · apply UInt8.toNat_inj.mp
    simp only [UInt8.toNat_ofNat']
    omega

theorem Opcode.byte_of_ofByte? {byte : UInt8} {opcode : Opcode}
    (known : Opcode.ofByte? byte = some opcode) : opcode.byte = byte := by
  have listed : ∀ position : Fin Opcode.table.size,
      Opcode.table[position].byte.toNat = position.val := by
    decide
  obtain ⟨inRange, entry⟩ := Array.getElem?_eq_some_iff.mp known
  apply UInt8.toNat_inj.mp
  rw [← entry]
  exact listed ⟨byte.toNat, inRange⟩

/-! ## Layouts -/

/-- A byte from a lowest to a highest value. -/
def Within (low high value : UInt8) : Prop :=
  low ≤ value ∧ value ≤ high

instance (low high value : UInt8) : Decidable (Within low high value) :=
  inferInstanceAs (Decidable (_ ∧ _))

/-- The bytes that a layout allows as operands, the limits of a program apart. -/
def Layout.Admits : Layout → List UInt8 → Prop
  | .bare, [] => True
  | .count maximum, [width] => Within 1 maximum width
  | .slot _, [width, _] => Within 1 widestVector width
  | .extended _, [width] => Within 1 widestVector width
  | .byte, [_] => True
  | .immediate, [_, _, _, _] => True
  | .target, [_, _] => True
  | .function, [_] => True
  | .swizzle, source :: width :: picks =>
      Within 1 widestVector source ∧ Within 1 widestVector width ∧
        picks.length = width.toNat ∧ ∀ pick ∈ picks, pick < source
  | .matrixResize, [fromColumns, fromRows, toColumns, toRows] =>
      Within 2 4 fromColumns ∧ Within 2 4 fromRows ∧ Within 2 4 toColumns ∧
        Within 2 4 toRows
  | .matrixMultiply, [leftColumns, leftRows, rightColumns] =>
      Within 1 4 leftColumns ∧ Within 1 4 leftRows ∧ Within 1 4 rightColumns
  | .matrixShape, [columns, rows] => Within 2 4 columns ∧ Within 2 4 rows
  | .ret, [_] => True
  | .externalCall, [arguments, results, _] =>
      Within 0 widestVector arguments ∧ Within 0 widestVector results
  | .externalAccess, [width, _] => Within 1 widestVector width
  | _, _ => False

/-- An instruction whose operands are allowed by the layout of its opcode. -/
def Instruction.Admitted (instruction : Instruction) : Prop :=
  instruction.opcode.layout.Admits instruction.operands

/-- The component positions of a swizzle can be counted by a byte. -/
def Computation.Countable : Computation → Prop
  | .swizzle _ picks => picks.length < 256
  | _ => True

/-- The operands of an instruction can be counted by bytes. -/
def Instruction.Countable : Instruction → Prop
  | .compute computation => computation.Countable
  | _ => True

theorem Instruction.Admitted.countable {instruction : Instruction}
    (admitted : instruction.Admitted) : instruction.Countable := by
  cases instruction with
  | compute computation =>
      cases computation with
      | swizzle source picks =>
          obtain ⟨_, _, counted, _⟩ := admitted
          change picks.length < 256
          rw [counted]
          exact UInt8.toNat_lt _
      | _ =>
          trivial
  | _ =>
      trivial

/-- A position below a source count, in the two ways of saying so. -/
theorem UInt8.le_sub_one_iff {source pick : UInt8} (positive : 1 ≤ source) :
    pick ≤ source - 1 ↔ pick < source := by
  have bound : (1 : UInt8).toNat ≤ source.toNat := UInt8.le_iff_toNat_le.mp positive
  rw [UInt8.le_iff_toNat_le, UInt8.lt_iff_toNat_lt, UInt8.toNat_sub_of_le _ _ positive]
  change 1 ≤ source.toNat at bound
  change pick.toNat ≤ source.toNat - 1 ↔ _
  omega

/-! ## Readers -/

namespace Reader

variable {α β : Type}

/-- A reader consumes bytes that stand in a relation to the value it gives. -/
def Reads (reader : Reader α) (spells : α → List UInt8 → Prop) : Prop :=
  ∀ cursor value later, reader cursor = .ok (value, later) →
    ∃ consumed, cursor.bytes = consumed ++ later.bytes ∧ spells value consumed

namespace Reads

variable {spells : α → List UInt8 → Prop} {final : β → List UInt8 → Prop}

theorem pure {value : α} (empty : spells value []) :
    Reads (Pure.pure value : Reader α) spells := by
  rintro cursor _ _ ⟨⟩
  exact ⟨[], rfl, empty⟩

theorem bind {reader : Reader α} {next : α → Reader β}
    (begun : Reads reader spells)
    (continued : ∀ value consumed, spells value consumed →
      Reads (next value) fun result rest => final result (consumed ++ rest)) :
    Reads (reader >>= next) final := by
  intro cursor result later succeeded
  change (reader cursor >>= fun reached => next reached.1 reached.2) = _ at succeeded
  cases first : reader cursor with
  | error malformed =>
      rw [first] at succeeded
      exact absurd succeeded (by rintro ⟨⟩)
  | ok reached =>
      rcases reached with ⟨value, middle⟩
      rw [first] at succeeded
      rcases begun cursor value middle first with ⟨consumed, split, spelled⟩
      rcases continued value consumed spelled middle result later succeeded with
        ⟨rest, splitRest, spelledAll⟩
      refine ⟨consumed ++ rest, ?_, spelledAll⟩
      rw [split, splitRest, List.append_assoc]

end Reads

theorem reads_byte : Reads byte fun value consumed => consumed = [value] := by
  rintro ⟨offset, bytes⟩ value later succeeded
  rcases bytes with _ | ⟨byte, rest⟩
  · exact absurd succeeded (by rintro ⟨⟩)
  · rcases succeeded with ⟨⟩
    exact ⟨[value], rfl, rfl⟩

theorem reads_half :
    Reads half fun value consumed => consumed = bytes16 value := by
  rintro ⟨offset, bytes⟩ value later succeeded
  rcases bytes with _ | ⟨low, _ | ⟨high, rest⟩⟩
  · exact absurd succeeded (by rintro ⟨⟩)
  · exact absurd succeeded (by rintro ⟨⟩)
  · rcases succeeded with ⟨⟩
    exact ⟨[low, high], rfl, (bytes16_number16 low high).symm⟩

theorem reads_word :
    Reads word fun value consumed => consumed = bytes32 value := by
  rintro ⟨offset, bytes⟩ value later succeeded
  rcases bytes with _ | ⟨b₀, _ | ⟨b₁, _ | ⟨b₂, _ | ⟨b₃, rest⟩⟩⟩⟩
  · exact absurd succeeded (by rintro ⟨⟩)
  · exact absurd succeeded (by rintro ⟨⟩)
  · exact absurd succeeded (by rintro ⟨⟩)
  · exact absurd succeeded (by rintro ⟨⟩)
  · rcases succeeded with ⟨⟩
    exact ⟨[b₀, b₁, b₂, b₃], rfl, (bytes32_number32 b₀ b₁ b₂ b₃).symm⟩

theorem reads_within (opcode : Opcode) (role : OperandRole) (low high : UInt8) :
    Reads (within opcode role low high)
      fun value consumed => consumed = [value] ∧ Within low high value := by
  apply Reads.bind reads_byte
  rintro value _ rfl
  unfold checkOperand
  split
  · rename_i passed
    split at passed
    · rename_i range
      exact Reads.pure ⟨List.append_nil _, range⟩
    · cases passed
  · rintro cursor _ _ ⟨⟩

theorem reads_picks (source : UInt8) (remaining : Nat) :
    Reads (picks source remaining)
      fun values consumed => consumed = values ∧ values.length = remaining ∧
        ∀ pick ∈ values, pick ≤ source - 1 := by
  induction remaining with
  | zero =>
      exact Reads.pure ⟨rfl, rfl, fun _ member => absurd member List.not_mem_nil⟩
  | succ remaining induction =>
      apply Reads.bind (reads_within _ _ _ _)
      rintro pick _ ⟨rfl, _, small⟩
      apply Reads.bind induction
      rintro values _ ⟨rfl, counted, inside⟩
      exact Reads.pure ⟨by simp, by simp [counted],
        List.forall_mem_cons.mpr ⟨small, inside⟩⟩

theorem Reads.demanding {spells : α → List UInt8 → Prop} {reader : Reader α}
    (reads : Reads reader spells) (demand : Nat) :
    Reads (demanding demand reader) spells := by
  intro cursor value later succeeded
  apply reads cursor value later
  unfold Reader.demanding at succeeded
  split at succeeded
  · rename_i result outcome
    rw [outcome, succeeded]
  · exact absurd succeeded (by rintro ⟨⟩)

theorem reads_swizzle :
    Reads swizzle fun computation consumed =>
      computation.opcode = .swizzle ∧ consumed = computation.operands ∧
        Layout.swizzle.Admits computation.operands := by
  apply Reads.bind (reads_within _ _ _ _)
  rintro source _ ⟨rfl, sources⟩
  apply Reads.bind (reads_within _ _ _ _)
  rintro count _ ⟨rfl, counts⟩
  apply Reads.bind ((reads_picks source count.toNat).demanding source.toNat)
  rintro _ values ⟨rfl, counted, inside⟩
  have exact : UInt8.ofNat values.length = count := by
    rw [counted, UInt8.ofNat_toNat]
  apply Reads.pure
  refine ⟨rfl, ?_, sources, ?_, ?_, ?_⟩
  · simp [Computation.operands, exact]
  · rw [exact]
    exact counts
  · rw [exact]
    exact counted
  · intro pick member
    exact (UInt8.le_sub_one_iff sources.1).mp (inside pick member)

/-- An instruction of an opcode and its operand bytes. -/
def Spells (opcode : Opcode) (instruction : Instruction) (consumed : List UInt8) :
    Prop :=
  instruction.opcode = opcode ∧ consumed = instruction.operands ∧ instruction.Admitted

/-- A last operand. -/
theorem Reads.last {reader : Reader α} {make : α → β} {spells : α → List UInt8 → Prop}
    {final : β → List UInt8 → Prop} (reads : Reads reader spells)
    (spelled : ∀ value consumed, spells value consumed → final (make value) consumed) :
    Reads (do return make (← reader)) final := by
  apply Reads.bind reads
  intro value consumed spells
  apply Reads.pure
  rw [List.append_nil]
  exact spelled value consumed spells

/-- A last operand that is one byte of any value. -/
theorem Reads.lastByte {make : UInt8 → β} {final : β → List UInt8 → Prop}
    (spelled : ∀ value, final (make value) [value]) :
    Reads (do return make (← byte)) final := by
  apply Reads.last reads_byte
  rintro value _ rfl
  exact spelled value

/-- A last operand that is one byte within a range. -/
theorem Reads.lastWithin {opcode : Opcode} {role : OperandRole} {low high : UInt8}
    {make : UInt8 → β} {final : β → List UInt8 → Prop}
    (spelled : ∀ value, Within low high value → final (make value) [value]) :
    Reads (do return make (← within opcode role low high)) final := by
  apply Reads.last (reads_within opcode role low high)
  rintro value _ ⟨rfl, range⟩
  exact spelled value range

/-- The operands of an instruction that was read are the bytes it was read from. -/
theorem reads_operands (opcode : Opcode) :
    Reads (operands opcode) (Spells opcode) := by
  have bounded := fun role low high => reads_within opcode role low high
  cases opcode with
  | unary operation => exact Reads.lastWithin fun _ range => ⟨rfl, rfl, range⟩
  | binary operation => exact Reads.lastWithin fun _ range => ⟨rfl, rfl, range⟩
  | divide operation => exact Reads.lastWithin fun _ range => ⟨rfl, rfl, range⟩
  | lerp => exact Reads.lastWithin fun _ range => ⟨rfl, rfl, range⟩
  | mix => exact Reads.lastWithin fun _ range => ⟨rfl, rfl, range⟩
  | shift operation => exact Reads.lastByte fun _ => ⟨rfl, rfl, trivial⟩
  | load space =>
      apply Reads.bind (bounded _ _ _)
      rintro count _ ⟨rfl, range⟩
      exact Reads.lastByte fun _ => ⟨rfl, rfl, range⟩
  | store bank =>
      apply Reads.bind (bounded _ _ _)
      rintro count _ ⟨rfl, range⟩
      exact Reads.lastByte fun _ => ⟨rfl, rfl, range⟩
  | gather space => exact Reads.lastWithin fun _ range => ⟨rfl, rfl, range⟩
  | scatter bank => exact Reads.lastWithin fun _ range => ⟨rfl, rfl, range⟩
  | clampIndex => exact Reads.lastByte fun _ => ⟨rfl, rfl, trivial⟩
  | pushImmediate =>
      apply Reads.last reads_word
      rintro bits _ rfl
      exact ⟨rfl, rfl, trivial⟩
  | dup => exact Reads.lastWithin fun _ range => ⟨rfl, rfl, range⟩
  | pop => exact Reads.lastWithin fun _ range => ⟨rfl, rfl, range⟩
  | reserve => exact Reads.lastWithin fun _ range => ⟨rfl, rfl, range⟩
  | swizzle =>
      apply Reads.last reads_swizzle
      rintro computation _ ⟨same, rfl, admitted⟩
      refine ⟨same, rfl, ?_⟩
      change computation.opcode.layout.Admits computation.operands
      rw [same]
      exact admitted
  | resizeMatrix =>
      apply Reads.bind (bounded _ _ _)
      rintro fromColumns _ ⟨rfl, first⟩
      apply Reads.bind (bounded _ _ _)
      rintro fromRows _ ⟨rfl, second⟩
      apply Reads.bind (bounded _ _ _)
      rintro toColumns _ ⟨rfl, third⟩
      exact Reads.lastWithin fun _ fourth => ⟨rfl, rfl, first, second, third, fourth⟩
  | multiplyMatrix =>
      apply Reads.bind (bounded _ _ _)
      rintro leftColumns _ ⟨rfl, first⟩
      apply Reads.bind (bounded _ _ _)
      rintro leftRows _ ⟨rfl, second⟩
      exact Reads.lastWithin fun _ third => ⟨rfl, rfl, first, second, third⟩
  | diagonalMatrix =>
      apply Reads.bind (bounded _ _ _)
      rintro columns _ ⟨rfl, first⟩
      exact Reads.lastWithin fun _ second => ⟨rfl, rfl, first, second⟩
  | branch =>
      apply Reads.last reads_half
      rintro target _ rfl
      exact ⟨rfl, rfl, trivial⟩
  | branchIfAllFalse =>
      apply Reads.last reads_half
      rintro target _ rfl
      exact ⟨rfl, rfl, trivial⟩
  | call => exact Reads.lastByte fun _ => ⟨rfl, rfl, trivial⟩
  | ret => exact Reads.lastByte fun _ => ⟨rfl, rfl, trivial⟩
  | maskBlend => exact Reads.lastWithin fun _ range => ⟨rfl, rfl, range⟩
  | callExternal =>
      apply Reads.bind (bounded _ _ _)
      rintro arguments _ ⟨rfl, first⟩
      apply Reads.bind (bounded _ _ _)
      rintro results _ ⟨rfl, second⟩
      exact Reads.lastByte fun _ => ⟨rfl, rfl, first, second⟩
  | readExternal =>
      apply Reads.bind (bounded _ _ _)
      rintro count _ ⟨rfl, range⟩
      exact Reads.lastByte fun _ => ⟨rfl, rfl, range⟩
  | writeExternal =>
      apply Reads.bind (bounded _ _ _)
      rintro count _ ⟨rfl, range⟩
      exact Reads.lastByte fun _ => ⟨rfl, rfl, range⟩
  | sampleExplicit => exact Reads.lastByte fun _ => ⟨rfl, rfl, trivial⟩
  | sampleMatrix => exact Reads.lastByte fun _ => ⟨rfl, rfl, trivial⟩
  | _ => exact Reads.pure ⟨rfl, rfl, trivial⟩

end Reader

/-! ## Instructions -/

theorem Opcode.decode_eq_ok {offset : Nat} {bytes : List UInt8} {opcode : Opcode}
    (decoded : Opcode.decode offset bytes = .ok opcode) :
    ∃ rest, bytes = opcode.byte :: rest := by
  cases bytes with
  | nil =>
      exact absurd decoded (by rintro ⟨⟩)
  | cons byte rest =>
      refine ⟨rest, ?_⟩
      simp only [Opcode.decode] at decoded
      split at decoded
      · rename_i found known
        rcases decoded with ⟨⟩
        rw [Opcode.byte_of_ofByte? known]
      · exact absurd decoded (by rintro ⟨⟩)

theorem Opcode.complete_eq_ok {opcode : Opcode} {offset : Nat} {bytes : List UInt8}
    {instruction : Instruction}
    (completed : opcode.complete offset bytes = .ok instruction) :
    instruction.opcode = opcode ∧ instruction.operands <+: bytes.drop 1 ∧
      instruction.Admitted := by
  unfold Opcode.complete at completed
  generalize outcome : Reader.operands opcode ⟨offset + 1, bytes.drop 1⟩ = read
    at completed
  rcases read with malformed | ⟨value, later⟩
  · exact absurd completed (by rintro ⟨⟩)
  · rcases completed with ⟨⟩
    rcases Reader.reads_operands opcode _ _ _ outcome with
      ⟨consumed, split, same, rfl, admitted⟩
    exact ⟨same, ⟨later.bytes, split.symm⟩, admitted⟩

/-- An instruction is read from the bytes that encode it. -/
theorem Instruction.decode_eq_ok {offset : Nat} {bytes : List UInt8}
    {instruction : Instruction}
    (decoded : Instruction.decode offset bytes = .ok instruction) :
    instruction.encode <+: bytes ∧ instruction.Admitted := by
  unfold Instruction.decode at decoded
  split at decoded
  · rename_i opcode opened
    rcases Opcode.decode_eq_ok opened with ⟨rest, rfl⟩
    rcases Opcode.complete_eq_ok decoded with ⟨rfl, operands, admitted⟩
    exact ⟨List.cons_prefix_cons.mpr ⟨rfl, operands⟩, admitted⟩
  · exact absurd decoded (by rintro ⟨⟩)

theorem Instruction.width_le {offset : Nat} {bytes : List UInt8}
    {instruction : Instruction}
    (decoded : Instruction.decode offset bytes = .ok instruction) :
    instruction.width ≤ bytes.length :=
  (Instruction.decode_eq_ok decoded).1.length_le

/-! ## Listings -/

namespace Listing

/-- Bytes that belong to an instruction are passed over. -/
theorem read_skip {offset skip : Nat} {bytes : List UInt8}
    (inside : skip ≤ bytes.length) :
    read offset skip bytes = read (offset + skip) 0 (bytes.drop skip) := by
  induction bytes generalizing offset skip with
  | nil =>
      rcases Nat.le_zero.mp inside with rfl
      rfl
  | cons byte rest induction =>
      cases skip with
      | zero =>
          rfl
      | succ skip =>
          rw [read, induction (Nat.le_of_succ_le_succ inside), List.drop_succ_cons,
            Nat.add_right_comm, Nat.add_assoc]

/-- An instruction at the front is listed before what follows it. -/
theorem read_decoded {offset : Nat} {bytes : List UInt8} {instruction : Instruction}
    (decoded : Instruction.decode offset bytes = .ok instruction) :
    read offset 0 bytes =
      let later := read (offset + instruction.width) 0 (bytes.drop instruction.width)
      { later with instructions := ⟨offset, instruction⟩ :: later.instructions } := by
  have inside := Instruction.width_le decoded
  have positive := instruction.width_pos
  cases bytes with
  | nil =>
      exact absurd inside (Nat.not_le_of_lt positive)
  | cons byte rest =>
      obtain ⟨less, exact⟩ := Nat.exists_eq_add_of_lt positive
      rw [Nat.zero_add] at exact
      rw [exact, List.length_cons] at inside
      rw [read, decoded]
      simp only [exact, Nat.add_sub_cancel, List.drop_succ_cons]
      rw [read_skip (Nat.le_of_succ_le_succ inside), Nat.add_right_comm, Nat.add_assoc]

theorem read_malformed {offset : Nat} {byte : UInt8} {rest : List UInt8}
    {malformed : Malformed}
    (failed : Instruction.decode offset (byte :: rest) = .error malformed) :
    read offset 0 (byte :: rest) =
      { instructions := [], stopped := some (offset, malformed) } := by
  rw [read, failed]

/-- Induction along the instructions of a listing. -/
theorem read_induction {motive : Nat → List UInt8 → Prop}
    (finished : ∀ offset, motive offset [])
    (stopped : ∀ offset byte rest malformed,
      Instruction.decode offset (byte :: rest) = .error malformed →
        motive offset (byte :: rest))
    (listed : ∀ offset bytes instruction,
      Instruction.decode offset bytes = .ok instruction →
        motive (offset + instruction.width) (bytes.drop instruction.width) →
          motive offset bytes)
    (offset : Nat) (bytes : List UInt8) : motive offset bytes := by
  -- The induction is on the number of bytes left, since an instruction takes at least one.
  generalize measure : bytes.length = size
  induction size using Nat.strongRecOn generalizing offset bytes with
  | ind size induction =>
      subst measure
      cases bytes with
      | nil =>
          exact finished offset
      | cons byte rest =>
          cases decoded : Instruction.decode offset (byte :: rest) with
          | error malformed =>
              exact stopped offset byte rest malformed decoded
          | ok instruction =>
              apply listed offset (byte :: rest) instruction decoded
              apply induction _ _ _ _ rfl
              have positive := instruction.width_pos
              rw [List.length_drop, List.length_cons]
              omega

/-- What is listed at an offset is what is read there. -/
theorem decode_of_mem_read {offset : Nat} {bytes : List UInt8} {placed : Placed}
    (listed : placed ∈ (read offset 0 bytes).instructions) :
    ∃ distance, placed.offset = offset + distance ∧
      Instruction.decode placed.offset (bytes.drop distance) =
        .ok placed.instruction := by
  induction offset, bytes using read_induction with
  | finished offset =>
      exact absurd listed List.not_mem_nil
  | stopped offset byte rest malformed failed =>
      rw [read_malformed failed] at listed
      exact absurd listed List.not_mem_nil
  | listed offset bytes instruction decoded induction =>
      rw [read_decoded decoded] at listed
      rcases List.mem_cons.mp listed with rfl | later
      · exact ⟨0, rfl, decoded⟩
      · rcases induction later with ⟨distance, place, reads⟩
        refine ⟨instruction.width + distance, ?_, ?_⟩
        · rw [place, Nat.add_assoc]
        · rw [← List.drop_drop]
          exact reads

/-- An offset where an instruction of a listing starts, or where its code ends. -/
def Boundary (listing : Listing) (finish offset : Nat) : Prop :=
  offset = finish ∨ ∃ placed ∈ listing.instructions, placed.offset = offset

theorem Boundary.cons {later : Listing} {finish offset : Nat}
    (boundary : later.Boundary finish offset) (placed : Placed) :
    Boundary { later with instructions := placed :: later.instructions }
      finish offset := by
  rcases boundary with atEnd | ⟨other, listed, same⟩
  · exact Or.inl atEnd
  · exact Or.inr ⟨other, List.mem_cons_of_mem placed listed, same⟩

theorem boundary_start {offset : Nat} {bytes : List UInt8}
    (whole : (read offset 0 bytes).stopped = none) :
    (read offset 0 bytes).Boundary (offset + bytes.length) offset := by
  cases bytes with
  | nil =>
      exact Or.inl rfl
  | cons byte rest =>
      cases decoded : Instruction.decode offset (byte :: rest) with
      | error malformed =>
          rw [read_malformed decoded] at whole
          exact absurd whole (by simp)
      | ok instruction =>
          rw [read_decoded decoded]
          exact Or.inr ⟨⟨offset, instruction⟩, List.mem_cons_self, rfl⟩

/-- An instruction of a complete listing is followed by a boundary. -/
theorem boundary_next {offset : Nat} {bytes : List UInt8} {placed : Placed}
    (whole : (read offset 0 bytes).stopped = none)
    (listed : placed ∈ (read offset 0 bytes).instructions) :
    (read offset 0 bytes).Boundary (offset + bytes.length)
      (placed.offset + placed.instruction.width) := by
  induction offset, bytes using read_induction with
  | finished offset =>
      exact absurd listed List.not_mem_nil
  | stopped offset byte rest malformed failed =>
      rw [read_malformed failed] at listed
      exact absurd listed List.not_mem_nil
  | listed offset bytes instruction decoded induction =>
      have inside := Instruction.width_le decoded
      have finish : offset + bytes.length = offset + instruction.width +
          (bytes.drop instruction.width).length := by
        rw [List.length_drop]
        omega
      rw [read_decoded decoded] at listed whole ⊢
      rw [finish]
      apply Boundary.cons
      rcases List.mem_cons.mp listed with rfl | later
      · exact boundary_start whole
      · exact induction whole later

end Listing

end Lockstep
