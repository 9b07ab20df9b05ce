import Lockstep.Invocation
import Lockstep.Proofs.Invariant

/-!
# Accepted calls

A call is accepted if its buffers match the function and the program and if
the frame of the function fits the machine: `Program.prepare_eq_ok`.  For an
accepted call the machine that is about to start is given in closed form by
`Machine.boot_eq`, up to the seeding of globals, which fails only for an input
that is mapped beyond the globals.
-/

namespace Lockstep

/-! ## Shapes -/

/-- The buffers of a call match its function and program, and its frame fits. -/
structure Program.Accepts (program : Program) (function : Function) (arguments : Nat)
    (returns : Option Nat) (uniforms : Nat) (inputs : Option Nat) : Prop where
  widths : function.declaredSlots = some function.parameterCount
  arguments : arguments = function.parameterCount
  returns : ∀ given, returns = some given → given = function.returnCount
  uniforms : uniforms = program.uniformCount
  inputs : ∀ given, inputs = some given → given = program.inputMap.length
  frame : function.stackNeed ≤ stackCapacity
  globals : program.globalCount ≤ globalCapacity
  conditions : function.conditionDepth < predicateCapacity
  loops : function.loopDepth < predicateCapacity

namespace Program

variable {program : Program} {function : Function}

theorem checkCalleeDepth_eq_ok {nesting : Nesting} {depth : Nat} :
    function.checkCalleeDepth nesting depth = .ok () ↔ depth < predicateCapacity :=
  ite_ok_iff

theorem checkCall_eq_ok {arguments uniforms : Nat} {returns inputs : Option Nat} :
    program.checkCall function arguments returns uniforms inputs = .ok () ↔
      program.Accepts function arguments returns uniforms inputs := by
  unfold checkCall
  constructor
  · intro passed
    split at passed
    · rename_i declared widths
      obtain ⟨sameWidths, passed⟩ := guard_eq_ok.mp passed
      obtain ⟨sameArguments, passed⟩ := guard_eq_ok.mp passed
      obtain ⟨sameReturns, passed⟩ := guard_option_eq_ok.mp passed
      obtain ⟨sameUniforms, passed⟩ := guard_eq_ok.mp passed
      obtain ⟨sameInputs, passed⟩ := guard_option_eq_ok.mp passed
      obtain ⟨frame, passed⟩ := guard_eq_ok.mp passed
      obtain ⟨globals, passed⟩ := guard_eq_ok.mp passed
      obtain ⟨conditions, loops⟩ := check_bind_eq_ok.mp passed
      refine ⟨?_, Decidable.not_not.mp sameArguments, sameReturns,
        Decidable.not_not.mp sameUniforms, sameInputs, Nat.le_of_not_lt frame,
        Nat.le_of_not_lt globals, checkCalleeDepth_eq_ok.mp conditions,
        checkCalleeDepth_eq_ok.mp loops⟩
      rw [widths, Decidable.not_not.mp sameWidths]
    · exact absurd passed (by rintro ⟨⟩)
  · rintro ⟨widths, rfl, returned, rfl, given, frame, globals, conditions, loops⟩
    rw [widths]
    refine guard_eq_ok.mpr ⟨by simp, ?_⟩
    refine guard_eq_ok.mpr ⟨by simp, ?_⟩
    refine guard_option_eq_ok.mpr ⟨returned, ?_⟩
    refine guard_eq_ok.mpr ⟨by simp, ?_⟩
    refine guard_option_eq_ok.mpr ⟨given, ?_⟩
    refine guard_eq_ok.mpr ⟨Nat.not_lt_of_le frame, ?_⟩
    refine guard_eq_ok.mpr ⟨Nat.not_lt_of_le globals, ?_⟩
    exact check_bind_eq_ok.mpr
      ⟨checkCalleeDepth_eq_ok.mpr conditions, checkCalleeDepth_eq_ok.mpr loops⟩

/-- A call is prepared exactly if it is accepted. -/
theorem prepare_eq_ok {invocation : Invocation} {arguments : Nat}
    {returns : Option Nat} :
    program.prepare invocation arguments returns = .ok function ↔
      program.functions[invocation.handle]? = some function ∧
        program.Accepts function arguments returns invocation.uniforms.length
          (invocation.inputs.map List.length) := by
  unfold prepare
  cases known : program.functions[invocation.handle]? with
  | none =>
      constructor
      · rintro ⟨⟩
      · rintro ⟨⟨⟩, _⟩
  | some found =>
      dsimp only
      rw [Option.some.injEq]
      cases checked : program.checkCall found arguments returns
          invocation.uniforms.length (invocation.inputs.map List.length) with
      | ok done =>
          have accepts := checkCall_eq_ok.mp checked
          constructor
          · rintro ⟨⟩
            exact ⟨rfl, accepts⟩
          · rintro ⟨rfl, _⟩
            rfl
      | error fault =>
          constructor
          · rintro ⟨⟩
          · rintro ⟨rfl, accepts⟩
            rw [checkCall_eq_ok.mpr accepts] at checked
            exact absurd checked (by rintro ⟨⟩)

theorem prepare_ne_trap {invocation : Invocation} {arguments : Nat}
    {returns : Option Nat} {failure : Failure}
    (failed : program.prepare invocation arguments returns = .error failure) :
    ∃ fault, failure = .fault fault := by
  unfold prepare at failed
  split at failed
  · rcases failed with ⟨⟩
    exact ⟨_, rfl⟩
  · split at failed
    · exact absurd failed (by rintro ⟨⟩)
    · rcases failed with ⟨⟩
      exact ⟨_, rfl⟩

end Program

/-! ## Arguments that come back -/

theorem Function.lt_of_mem_outSlotsFrom {parameters : List Parameter} {start slot : Nat}
    (listed : slot ∈ outSlotsFrom start parameters) :
    slot < start + (parameters.map Parameter.slotCount).sum := by
  induction parameters generalizing start with
  | nil =>
      exact absurd listed List.not_mem_nil
  | cons parameter parameters induction =>
      rw [List.map_cons, List.sum_cons]
      rcases List.mem_append.mp listed with here | later
      · split at here
        · have inside := List.mem_range'_1.mp here
          omega
        · exact absurd here List.not_mem_nil
      · have inside := induction later
        omega

theorem Function.declaredSlots_eq_some {function : Function} {count : Nat} :
    function.declaredSlots = some count ↔
      (function.parameters.map Parameter.slotCount).sum < 2 ^ 64 ∧
        (function.parameters.map Parameter.slotCount).sum = count := by
  unfold Function.declaredSlots boundedSum
  rw [← List.sum_eq_foldl]
  generalize (function.parameters.map Parameter.slotCount).sum = total
  have bound : total ≤ largestSize ↔ total < 2 ^ 64 := by
    unfold largestSize
    omega
  rw [← bound]
  by_cases small : total ≤ largestSize
  · simp [small]
  · simp [small]

/-- A slot that goes back to the caller is an argument slot. -/
theorem Function.lt_of_isOutSlot {function : Function}
    (widths : function.declaredSlots = some function.parameterCount) {slot : Nat}
    (out : function.isOutSlot slot = true) : slot < function.parameterCount := by
  have inside := lt_of_mem_outSlotsFrom (List.contains_iff_mem.mp out)
  obtain ⟨_, total⟩ := declaredSlots_eq_some.mp widths
  omega

/-- The first slot of each parameter is found without leaving the argument slots. -/
theorem Function.start_le_parameterCount {function : Function}
    (widths : function.declaredSlots = some function.parameterCount)
    {earlier later : List Parameter} (split : function.parameters = earlier ++ later) :
    (earlier.map Parameter.slotCount).sum ≤ function.parameterCount := by
  obtain ⟨_, total⟩ := declaredSlots_eq_some.mp widths
  rw [split, List.map_append, List.sum_append] at total
  omega

/-! ## Starting -/

/-- Every register holds the same word in all lanes. -/
def RegisterFile.Uniform {capacity : Nat} (file : RegisterFile capacity) : Prop :=
  ∀ position lane other,
    (file.register position).get lane = (file.register position).get other

theorem RegisterFile.uniform_blank (capacity : Nat) : (blank capacity).Uniform := by
  intro position lane other
  simp only [register, blank, Vector.getElem?_replicate]
  split <;> simp

/--
Seeding gives globals that are the same in every lane, and fails only for an
input that is mapped beyond the globals.
-/
theorem Program.seed_yields (program : Program) (inputs : List Word) :
    Yields
      (fun failure => ∃ slot ∈ program.inputMap, ¬ slot < program.globalLimit ∧
        ∃ input, failure = .fault
          (.shape (.inputSlot input slot program.globalLimit)))
      RegisterFile.Uniform (program.seed inputs) := by
  unfold seed
  apply Yields.foldlM (RegisterFile.uniform_blank _)
  rintro globals uniform ⟨⟨slot, word⟩, input⟩ member
  have mapped : slot ∈ program.inputMap :=
    (List.of_mem_zip (List.fst_mem_of_mem_zipIdx member)).1
  dsimp only
  split
  · rename_i inside
    have limit := Machine.globalLimit_le program
    have room : slot + [(Lanes.splat word : Register)].length ≤ globalCapacity := by
      rw [List.length_singleton]
      omega
    rw [RegisterFile.writeRun_of_le globals room]
    intro position lane other
    rw [RegisterFile.register_overwrite globals slot _ room]
    split
    · rename_i here
      have first : position - slot = 0 := by
        rw [List.length_singleton] at here
        omega
      rw [first, List.getD_cons_zero, Lanes.get_splat, Lanes.get_splat]
    · exact uniform position lane other
  · rename_i outside
    exact ⟨slot, mapped, outside, input, rfl⟩

namespace Machine

/-- The machine before its outermost function is entered. -/
def idle (function : Function) (lanes : Nat) (registers : RegisterFile stackCapacity)
    (globals : RegisterFile globalCapacity) : Machine where
  registers := registers
  top := 0
  globals := globals
  predicates := .start lanes
  current := {
    function := function
    offset := 0
    base := 0
    floor := 0
    frameSize := 0
    argumentCount := 0 }
  callers := []

/-- The machine in which a function is about to start on some arguments. -/
def booted (function : Function) (lanes : Nat) (globals : RegisterFile globalCapacity)
    (arguments : List Register) : Machine :=
  (idle function lanes ((RegisterFile.blank stackCapacity).overwrite 0 arguments)
    globals).entered function 0

variable {program : Program} {function : Function} {lanes : Nat}
variable {inputs : Option (List Word)} {arguments : List Register}

/-- A function whose frame and arguments fit starts as soon as globals are seeded. -/
theorem boot_eq (frame : function.stackNeed ≤ stackCapacity)
    (counted : arguments.length = function.parameterCount) :
    boot program function lanes inputs arguments =
      (program.seed (inputs.getD [])).map
        fun globals => booted function lanes globals arguments := by
  have sizes := Function.frame_of_fits frame
  have need := Function.frameSize_le sizes.2
  have inside : 0 + arguments.length ≤ stackCapacity := by
    omega
  unfold boot
  cases program.seed (inputs.getD []) with
  | error failure =>
      rfl
  | ok globals =>
      rw [ok_bind, RegisterFile.writeRun_of_le _ inside, ok_bind, enter_eq,
        if_pos (by rw [Nat.zero_add]; exact frame)]
      rfl

/-- A function of the program starts in good order, whatever the registers hold. -/
theorem sound_entered_idle (known : function ∈ program.functions)
    (frame : function.stackNeed ≤ stackCapacity)
    (registers : RegisterFile stackCapacity) (globals : RegisterFile globalCapacity) :
    ((idle function lanes registers globals).entered function 0).Sound program := by
  have sizes := Function.frame_of_fits frame
  have need := Function.frameSize_le sizes.2
  constructor
  · intro activation member
    rcases List.mem_singleton.mp member with rfl
    refine ⟨known, Nat.zero_le _, rfl, rfl, rfl, ?_⟩
    change 0 + function.parameterCount ≤ 0 + function.frameSize
    omega
  · exact List.IsChain.singleton _
  · exact Nat.zero_le _
  · exact Nat.le_refl _
  · change 0 + function.frameSize ≤ stackCapacity
    omega
  · exact Predicates.sound_start lanes

theorem sound_booted (known : function ∈ program.functions)
    (frame : function.stackNeed ≤ stackCapacity)
    (globals : RegisterFile globalCapacity) :
    (booted function lanes globals arguments).Sound program :=
  sound_entered_idle known frame _ globals

end Machine

/-! ## Columns -/

theorem checkColumns_eq_ok {role : ColumnRole} {columns : List Column} {count : Nat} :
    checkColumns role columns count = .ok () ↔
      ∀ column ∈ columns, count ≤ column.length := by
  unfold checkColumns
  rw [forM_eq_ok]
  constructor
  · intro passed column member
    obtain ⟨position, inRange, rfl⟩ := List.getElem_of_mem member
    have indexed : (columns[position], position) ∈ columns.zipIdx := by
      rw [List.mem_zipIdx_iff_getElem?]
      exact List.getElem?_eq_getElem inRange
    have checked := passed _ indexed
    dsimp only at checked
    by_contra short
    rw [if_pos (Nat.lt_of_not_le short)] at checked
    exact absurd checked (by simp)
  · rintro long ⟨column, position⟩ member
    have inside := long column (List.fst_mem_of_mem_zipIdx member)
    exact if_neg (Nat.not_lt_of_le inside)

theorem checkColumns_ne_trap {role : ColumnRole} {columns : List Column} {count : Nat} :
    Yields (fun failure => ∃ fault, failure = .fault fault) (fun _ => True)
      (checkColumns role columns count) := by
  unfold checkColumns
  have each : ∀ entry ∈ columns.zipIdx,
      Yields (fun failure => ∃ fault, failure = .fault fault) (fun _ => True)
        (if entry.1.length < count then
          .error (.fault (.shape (.shortColumn role entry.2 entry.1.length count)))
        else .ok ()) := by
    intro entry _
    split
    · exact ⟨_, rfl⟩
    · trivial
  exact (Yields.forM each).relax fun _ _ => trivial

theorem Column.chunk_of_le {column : Column} {offset lanes : Nat}
    (inside : offset + lanes ≤ column.length) :
    column.chunk offset lanes = .ok ((column.drop offset).take lanes) :=
  if_pos inside

end Lockstep
