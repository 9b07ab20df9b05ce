import Lockstep.Proofs.Encoding
import Lockstep.Proofs.Verification
import Mathlib.Algebra.GroupWithZero.Nat

/-!
# Well-formed programs

Which programs pass verification, without reference to a reader or to sums
that stop at the largest size: the declared sizes are within the capacities of
the machine, and the code of every function is put together from the encodings
of instructions, with operands within their layouts and the limits of the
program and with branches to the start of one of these instructions.

`Program.verification_is_exact` says that these are the programs that pass, and
that a code is put together from admitted instructions in one way at most.
-/

namespace Lockstep

/-! ## Instructions within limits -/

/-- An instruction whose operands stay within the limits of a program. -/
def Instruction.Respects (limits : Bounds) : Instruction → Prop
  | .shift _ amount => amount.toNat < 32
  | .load space count slot => slot.toNat + count.toNat ≤ limits.slots space
  | .store bank count slot => slot.toNat + count.toNat ≤ limits.slots bank.space
  | .call function => function.toNat < limits.functions
  | .ret count => count.toNat = limits.returns
  | .callExternal _ _ external => external.toNat < limits.externals
  | .readExternal _ external => external.toNat < limits.externals
  | .writeExternal _ external => external.toNat < limits.externals
  | _ => True

theorem checkShift_eq_ok {operation : Shift} {amount : UInt8} :
    checkShift operation amount = .ok () ↔ amount.toNat < 32 := by
  have range : (0 ≤ amount ∧ amount ≤ 31) ↔ amount.toNat < 32 := by
    rw [UInt8.le_iff_toNat_le, UInt8.le_iff_toNat_le]
    change 0 ≤ amount.toNat ∧ amount.toNat ≤ 31 ↔ _
    omega
  unfold checkShift checkOperand
  rw [← range]
  by_cases inside : 0 ≤ amount ∧ amount ≤ 31
  · rw [if_pos inside]
    exact iff_of_true rfl inside
  · rw [if_neg inside]
    exact iff_of_false (by rintro ⟨⟩) inside

/-- The check of an instruction passes exactly if its operands stay within the limits. -/
theorem Instruction.check_eq_ok {limits : Bounds} {instruction : Instruction} :
    instruction.check limits = .ok () ↔ instruction.Respects limits := by
  cases instruction with
  | shift operation amount => exact checkShift_eq_ok
  | load space count slot => exact ite_ok_iff
  | store bank count slot => exact ite_ok_iff
  | call function => exact ite_ok_iff
  | ret count => exact ite_ok_iff
  | callExternal arguments results external => exact ite_ok_iff
  | readExternal count external => exact ite_ok_iff
  | writeExternal count external => exact ite_ok_iff
  | _ => exact iff_of_true rfl trivial

/-! ## Codes that are put together from instructions -/

/-- An offset at which the encoding of one of some instructions starts. -/
def StartsAt (instructions : List Instruction) (target : Nat) : Prop :=
  ∃ earlier instruction later, instructions = earlier ++ instruction :: later ∧
    target = (earlier.flatMap Instruction.encode).length

/-- A code put together from instructions within some limits. -/
structure Composes (limits : Bounds) (instructions : List Instruction)
    (code : List UInt8) : Prop where
  /-- The code is the concatenation of the encodings. -/
  encoded : code = instructions.flatMap Instruction.encode
  /-- Operands are within the layouts of their opcodes. -/
  admitted : ∀ instruction ∈ instructions, instruction.Admitted
  /-- Operands are within the limits of the program. -/
  respected : ∀ instruction ∈ instructions, instruction.Respects limits
  /-- Branches lead to the start of one of the instructions. -/
  branches : ∀ instruction ∈ instructions, ∀ target,
    instruction.target? = some target → StartsAt instructions target

theorem startsAt_iff {instructions : List Instruction} {target : Nat} :
    StartsAt instructions target ↔
      ∃ placed ∈ placeFrom 0 instructions, placed.offset = target := by
  constructor
  · rintro ⟨earlier, instruction, later, split, rfl⟩
    exact ⟨⟨_, instruction⟩,
      mem_placeFrom.mpr ⟨earlier, later, split, (Nat.zero_add _).symm⟩, rfl⟩
  · rintro ⟨placed, member, rfl⟩
    obtain ⟨earlier, later, split, place⟩ := mem_placeFrom.mp member
    exact ⟨earlier, placed.instruction, later, split, place.trans (Nat.zero_add _)⟩

/-- The codes that pass are those put together from instructions. -/
theorem Function.codeVerified_iff {limits : Bounds} {function : Function} :
    function.CodeVerified limits ↔
      ∃ instructions, Composes limits instructions function.code := by
  -- Both sides speak about each instruction of one list: the listing places its members.
  have listed : ∀ {instructions : List Instruction} {property : Instruction → Prop},
      (∀ placed ∈ placeFrom 0 instructions, property placed.instruction) ↔
        ∀ instruction ∈ instructions, property instruction := by
    intro instructions property
    rw [← List.forall_mem_map (f := Placed.instruction), map_instruction_placeFrom]
  constructor
  · rintro ⟨whole, checked, branches⟩
    obtain ⟨instructions, encoded, admitted⟩ := Listing.encodings_of_read whole
    unfold Listing.ofCode at checked branches
    rw [encoded, Listing.read_encodings admitted] at checked branches
    refine ⟨instructions, encoded, admitted, ?_, ?_⟩
    · exact listed.mp fun placed member => Instruction.check_eq_ok.mp (checked placed member)
    · exact listed.mp fun placed member target leads =>
        startsAt_iff.mpr (branches placed member target leads)
  · rintro ⟨instructions, encoded, admitted, respected, branches⟩
    have reads : Listing.ofCode function.code =
        { instructions := placeFrom 0 instructions, stopped := none } := by
      rw [encoded]
      exact Listing.read_encodings admitted 0
    constructor
    · rw [reads]
    · rw [reads]
      exact listed.mpr fun instruction member =>
        Instruction.check_eq_ok.mpr (respected instruction member)
    · rw [reads]
      exact listed.mpr fun instruction member target leads =>
        startsAt_iff.mp (branches instruction member target leads)

/-! ## Well-formed programs -/

/-- The limits inside one function of a program, with a frame of any size. -/
def Program.limits (program : Program) (externals : Nat) (function : Function) :
    Bounds where
  frame := function.parameterCount + function.localCount
  globals := program.globalCount
  uniforms := program.uniformCount
  functions := program.functions.length
  externals := externals
  returns := function.returnCount

/-- A function whose declarations fit and whose code stays within some limits. -/
structure Function.WellFormed (limits : Bounds) (function : Function) : Prop where
  /-- The sum of the widths of the parameters is a 64-bit number. -/
  representable : (function.parameters.map Parameter.slotCount).sum < 2 ^ 64
  /-- The parameters divide the argument slots among themselves. -/
  divided : (function.parameters.map Parameter.slotCount).sum = function.parameterCount
  /-- An activation fits the stack. -/
  fits : function.parameterCount + function.localCount + function.stackCount ≤ 192
  conditions : function.conditionDepth < 16
  loops : function.loopDepth < 16
  /-- The code is put together from instructions. -/
  composed : ∃ instructions, Composes limits instructions function.code

/-- A program whose declarations fit and whose functions are well formed. -/
structure Program.WellFormed (program : Program) (externals : Nat) : Prop where
  globals : program.globalCount ≤ 32
  inputs : ∀ slot ∈ program.inputMap, slot < program.globalCount
  functions : ∀ function ∈ program.functions,
    function.WellFormed (program.limits externals function)

/-- A sum that stops at the largest size fits exactly if the sum itself does. -/
theorem Function.stackNeed_le_iff {function : Function} :
    function.stackNeed ≤ stackCapacity ↔
      function.parameterCount + function.localCount + function.stackCount ≤ 192 := by
  unfold Function.stackNeed Function.frameSize saturatingAdd largestSize stackCapacity
  omega

/-- The limits of a frame that fits are the limits that verification works with. -/
theorem Program.bounds_eq_limits {program : Program} {externals : Nat}
    {function : Function}
    (fits : function.parameterCount + function.localCount + function.stackCount ≤ 192) :
    program.bounds externals function = program.limits externals function := by
  have frame : function.frameSize = function.parameterCount + function.localCount := by
    unfold Function.frameSize saturatingAdd largestSize
    omega
  unfold Program.bounds Program.limits
  rw [frame]

theorem Function.wellFormed_iff {program : Program} {externals : Nat}
    {function : Function} :
    function.WellFormed (program.limits externals function) ↔
      function.FrameVerified ∧
        function.CodeVerified (program.bounds externals function) := by
  constructor
  · rintro ⟨representable, divided, fits, conditions, loops, composed⟩
    refine ⟨⟨?_, stackNeed_le_iff.mpr fits, conditions, loops⟩, ?_⟩
    · exact declaredSlots_eq_some.mpr ⟨representable, divided⟩
    · rw [Program.bounds_eq_limits fits]
      exact codeVerified_iff.mpr composed
  · rintro ⟨⟨widths, frame, conditions, loops⟩, code⟩
    have fits := stackNeed_le_iff.mp frame
    obtain ⟨representable, divided⟩ := declaredSlots_eq_some.mp widths
    rw [Program.bounds_eq_limits fits] at code
    exact ⟨representable, divided, fits, conditions, loops, codeVerified_iff.mp code⟩

/--
Verification passes exactly the well-formed programs, and the instructions that
a code is put together from are determined by it.
-/
theorem Program.verification_is_exact (program : Program) (externals : Nat) :
    (program.verify externals = .ok () ↔ program.WellFormed externals) ∧
      ∀ left right : List Instruction,
        (∀ instruction ∈ left, instruction.Admitted) →
          (∀ instruction ∈ right, instruction.Admitted) →
            left.flatMap Instruction.encode = right.flatMap Instruction.encode →
              left = right := by
  refine ⟨?_, fun left right => encodings_injective⟩
  rw [Program.verify_eq_ok]
  constructor
  · rintro ⟨globals, inputs, frames, codes⟩
    exact ⟨globals, inputs, fun function member =>
      Function.wellFormed_iff.mpr ⟨frames function member, codes function member⟩⟩
  · rintro ⟨globals, inputs, functions⟩
    exact ⟨globals, inputs,
      fun function member => (Function.wellFormed_iff.mp (functions function member)).1,
      fun function member => (Function.wellFormed_iff.mp (functions function member)).2⟩

/-- The program of `relay` is well formed, and a frame beyond the stack is not. -/
theorem Program.verification_is_exact_relay :
    Program.WellFormed { functions := [Linked.echo, Linked.relay] } 0 ∧
      ¬ Program.WellFormed
        { functions := [{ Linked.echo with stackCount := 2 ^ 64 - 1 }] } 0 := by
  constructor
  · exact (verification_is_exact _ 0).1.mp rfl
  · intro wellFormed
    exact absurd ((verification_is_exact _ 0).1.mpr wellFormed) (by rintro ⟨⟩)

end Lockstep
