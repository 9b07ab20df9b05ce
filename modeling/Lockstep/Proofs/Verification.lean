import Lockstep.Proofs.Safety

/-!
# Verified programs

`Program.verify_eq_ok` says what verification establishes: sizes that fit,
inputs that are mapped to globals, and code that reads to its end as
instructions within the limits of the program, with branches that lead to
instructions.

A verified program is never stopped for a reason that can be read off its
code.  The invariant is that every activation stands at a boundary of its
code, at the start of an instruction or at the end; from a boundary, every
instruction that is read was checked, and its effects lead to boundaries.
-/

namespace Lockstep

variable {σ : Type}

/-! ## What verification establishes -/

/-- A frame that fits the machine. -/
structure Function.FrameVerified (function : Function) : Prop where
  widths : function.declaredSlots = some function.parameterCount
  frame : function.stackNeed ≤ stackCapacity
  conditions : function.conditionDepth < predicateCapacity
  loops : function.loopDepth < predicateCapacity

/-- Code that reads to its end within some limits. -/
structure Function.CodeVerified (bounds : Bounds) (function : Function) : Prop where
  whole : (Listing.ofCode function.code).stopped = none
  checked : ∀ placed ∈ (Listing.ofCode function.code).instructions,
    placed.instruction.check bounds = .ok ()
  branches : ∀ placed ∈ (Listing.ofCode function.code).instructions,
    ∀ target, placed.instruction.target? = some target →
      ∃ other ∈ (Listing.ofCode function.code).instructions, other.offset = target

/-- A program that passes verification. -/
structure Program.Verified (program : Program) (externals : Nat) : Prop where
  globals : program.globalCount ≤ globalCapacity
  inputs : ∀ slot ∈ program.inputMap, slot < program.globalCount
  frames : ∀ function ∈ program.functions, function.FrameVerified
  codes : ∀ function ∈ program.functions,
    function.CodeVerified (program.bounds externals function)

theorem locate_eq_ok {function : Function} {offset : Nat} {checked : Except Fault Unit} :
    locate function offset checked = .ok () ↔ checked = .ok () := by
  cases checked <;> simp [locate]

theorem Listing.checkBranch_eq_ok {listing : Listing} {placed : Placed} :
    listing.checkBranch placed = .ok () ↔
      ∀ target, placed.instruction.target? = some target →
        ∃ other ∈ listing.instructions, other.offset = target := by
  unfold Listing.checkBranch
  cases placed.instruction.target? with
  | none =>
      simp
  | some target =>
      simp only [ite_ok_iff, List.any_eq_true, beq_iff_eq, Option.some.injEq,
        forall_eq']

theorem Function.checkCode_eq_ok {function : Function} {bounds : Bounds} :
    function.checkCode bounds = .ok () ↔ function.CodeVerified bounds := by
  have named : ∀ check : Placed → Except Fault Unit,
      (Listing.ofCode function.code).instructions.forM
          (fun placed => locate function placed.offset (check placed)) = .ok () ↔
        ∀ placed ∈ (Listing.ofCode function.code).instructions,
          check placed = .ok () := by
    intro check
    simp only [forM_eq_ok, locate_eq_ok]
  unfold Function.checkCode
  constructor
  · intro passed
    obtain ⟨checked, passed⟩ := check_bind_eq_ok.mp passed
    cases whole : (Listing.ofCode function.code).stopped with
    | some place =>
        rw [whole] at passed
        exact absurd passed (by rintro ⟨⟩)
    | none =>
        rw [whole] at passed
        refine ⟨whole, (named _).mp checked, ?_⟩
        intro placed listed
        exact Listing.checkBranch_eq_ok.mp ((named _).mp passed placed listed)
  · rintro ⟨whole, checked, branches⟩
    refine check_bind_eq_ok.mpr ⟨(named _).mpr checked, ?_⟩
    rw [whole]
    apply (named _).mpr
    intro placed listed
    exact Listing.checkBranch_eq_ok.mpr (branches placed listed)

theorem checkDepth_eq_ok {nesting : Nesting} {depth : Nat} :
    checkDepth nesting depth = .ok () ↔ depth < predicateCapacity :=
  ite_ok_iff

theorem Function.checkFrame_eq_ok {function : Function} :
    function.checkFrame = .ok () ↔ function.FrameVerified := by
  unfold Function.checkFrame
  constructor
  · intro passed
    split at passed
    · rename_i declared widths
      obtain ⟨same, passed⟩ := guard_eq_ok.mp passed
      obtain ⟨frame, passed⟩ := guard_eq_ok.mp passed
      obtain ⟨conditions, loops⟩ := check_bind_eq_ok.mp passed
      refine ⟨?_, Nat.le_of_not_lt frame, checkDepth_eq_ok.mp conditions,
        checkDepth_eq_ok.mp loops⟩
      rw [widths, Decidable.not_not.mp same]
    · exact absurd passed (by rintro ⟨⟩)
  · rintro ⟨widths, frame, conditions, loops⟩
    rw [widths]
    refine guard_eq_ok.mpr ⟨by simp, ?_⟩
    refine guard_eq_ok.mpr ⟨Nat.not_lt_of_le frame, ?_⟩
    exact check_bind_eq_ok.mpr
      ⟨checkDepth_eq_ok.mpr conditions, checkDepth_eq_ok.mpr loops⟩

theorem Program.checkFunction_eq_ok {program : Program} {externals : Nat}
    {function : Function} :
    program.checkFunction externals function = .ok () ↔
      function.FrameVerified ∧
        function.CodeVerified (program.bounds externals function) := by
  unfold Program.checkFunction
  rw [← Function.checkFrame_eq_ok, ← Function.checkCode_eq_ok]
  cases function.checkFrame with
  | ok done =>
      simp
  | error fault =>
      constructor
      · rintro ⟨⟩
      · rintro ⟨⟨⟩, _⟩

/-- Verification passes exactly the verified programs. -/
theorem Program.verify_eq_ok {program : Program} {externals : Nat} :
    program.verify externals = .ok () ↔ program.Verified externals := by
  have objection : program.verify externals = .ok () ↔
      program.objection externals = .ok () := by
    unfold Program.verify
    cases program.objection externals <;> simp
  have inputs : (program.inputMap.zipIdx.forM fun entry =>
        program.checkInput entry.1 entry.2) = .ok () ↔
      ∀ slot ∈ program.inputMap, slot < program.globalCount := by
    rw [forM_eq_ok]
    constructor
    · intro passed slot member
      obtain ⟨input, inRange, rfl⟩ := List.getElem_of_mem member
      have indexed : (program.inputMap[input], input) ∈ program.inputMap.zipIdx := by
        rw [List.mem_zipIdx_iff_getElem?]
        exact List.getElem?_eq_getElem inRange
      exact ite_ok_iff.mp (passed _ indexed)
    · rintro mapped ⟨slot, input⟩ member
      exact ite_ok_iff.mpr (mapped slot (List.fst_mem_of_mem_zipIdx member))
  rw [objection]
  unfold Program.objection
  constructor
  · intro passed
    obtain ⟨globals, passed⟩ := guard_eq_ok.mp passed
    obtain ⟨mapped, passed⟩ := check_bind_eq_ok.mp passed
    have functions := forM_eq_ok.mp passed
    exact ⟨Nat.le_of_not_lt globals, inputs.mp mapped,
      fun function member => (checkFunction_eq_ok.mp (functions function member)).1,
      fun function member => (checkFunction_eq_ok.mp (functions function member)).2⟩
  · rintro ⟨globals, mapped, frames, codes⟩
    refine guard_eq_ok.mpr ⟨Nat.not_lt_of_le globals, ?_⟩
    refine check_bind_eq_ok.mpr ⟨inputs.mpr mapped, ?_⟩
    apply forM_eq_ok.mpr
    intro function member
    exact checkFunction_eq_ok.mpr ⟨frames function member, codes function member⟩

/-! ## Boundaries -/

/-- An activation that stands at a boundary of its code. -/
def Activation.Aligned (activation : Activation) : Prop :=
  (Listing.ofCode activation.function.code).Boundary
    activation.function.code.length activation.offset

namespace Machine

/-- A machine all of whose activations stand at boundaries. -/
def Aligned (machine : Machine) : Prop :=
  ∀ activation ∈ machine.activations, activation.Aligned

variable {machine : Machine} {batch : Batch σ} {program : Program} {externals : Nat}

/-- What stands at the end of the code is a missing opcode. -/
theorem upcoming_of_end
    (atEnd : machine.current.offset = machine.current.function.code.length) :
    machine.upcoming = .error
      { fault := .truncated machine.current.function.code.length 1 } := by
  unfold upcoming
  rw [atEnd, List.drop_length]
  rfl

/-- An instruction that is read at a boundary is listed there. -/
theorem Aligned.listed {instruction : Instruction} (aligned : machine.Aligned)
    (decoded : machine.upcoming = .ok instruction) :
    ⟨machine.current.offset, instruction⟩ ∈
      (Listing.ofCode machine.current.function.code).instructions := by
  rcases aligned machine.current List.mem_cons_self with
    atEnd | ⟨⟨offset, found⟩, listed, same⟩
  · rw [upcoming_of_end atEnd] at decoded
    exact absurd decoded (by rintro ⟨⟩)
  · rcases same with rfl
    obtain ⟨distance, place, reads⟩ := Listing.decode_of_mem_read listed
    rw [Nat.zero_add] at place
    rw [← place] at reads
    rw [upcoming, reads] at decoded
    rcases decoded with ⟨⟩
    exact listed

theorem Aligned.jumped (aligned : machine.Aligned) {target : Nat}
    (boundary : (Listing.ofCode machine.current.function.code).Boundary
      machine.current.function.code.length target) :
    (machine.jumped target).Aligned := by
  intro activation member
  rcases List.mem_cons.mp member with rfl | older
  · exact boundary
  · exact aligned activation (List.mem_cons_of_mem _ older)

theorem Aligned.advanced {instruction : Instruction} (aligned : machine.Aligned)
    (whole : (Listing.ofCode machine.current.function.code).stopped = none)
    (decoded : machine.upcoming = .ok instruction) :
    (machine.advanced instruction).Aligned := by
  apply aligned.jumped
  have next := Listing.boundary_next whole (aligned.listed decoded)
  rw [Nat.zero_add] at next
  exact next

theorem aligned_start {function : Function}
    (whole : (Listing.ofCode function.code).stopped = none)
    (base floor frameSize argumentCount : Nat) :
    Activation.Aligned ⟨function, 0, base, floor, frameSize, argumentCount⟩ := by
  have start := Listing.boundary_start whole
  rw [Nat.zero_add] at start
  exact start

/-- A step of a verified program leads from boundaries to boundaries. -/
theorem Advances.aligned {instruction : Instruction} {after : Machine}
    (advances : machine.Advances program instruction (.next after))
    (verified : program.Verified externals) (sound : machine.Sound program)
    (aligned : machine.Aligned) : after.Aligned := by
  have code := verified.codes _ sound.running.known
  have listed := aligned.listed advances.decoded
  have advanced := aligned.advanced code.whole advances.decoded
  rcases advances with ⟨_, effect⟩
  cases effect with
  | operated operated =>
      intro activation member
      apply advanced activation
      unfold activations at member ⊢
      rw [show after.current = _ from operated.stack.current,
        show after.callers = _ from operated.stack.callers] at member
      exact member
  | jumped leads inside =>
      apply advanced.jumped
      exact Or.inr (code.branches _ listed _ leads)
  | called calls =>
      have callee := verified.codes _ (List.mem_of_getElem? calls.known)
      intro activation member
      rcases List.mem_cons.mp member with rfl | older
      · exact aligned_start callee.whole _ _ _ _
      · exact advanced activation older
  | returned hands =>
      cases hands with
      | resumed returns waiting reserved =>
          intro activation member
          apply advanced activation
          unfold activations
          rw [waiting]
          exact List.mem_cons_of_mem _ member

theorem Reaches.aligned {start : Machine} (reached : Reaches batch start machine)
    (verified : batch.program.Verified externals) (sound : start.Sound batch.program)
    (aligned : start.Aligned) : machine.Aligned := by
  have both : machine.Sound batch.program ∧ machine.Aligned := by
    apply reached.invariant ⟨sound, aligned⟩
    rintro before after ⟨soundBefore, alignedBefore⟩ steps
    obtain ⟨instruction, advances⟩ := steps.advances soundBefore
    exact ⟨advances.sound soundBefore,
      advances.aligned verified soundBefore alignedBefore⟩
  exact both.2

end Machine

/-! ## Failures that verification rules out -/

/-- Failures that can be read off a program and the shape of a call. -/
def Failure.avoidable : Failure → Bool
  | .fault (.bytecode (.unknownOpcode _ _)) => true
  | .fault (.bytecode (.truncated _ _)) => true
  | .fault (.bytecode (.operand _ _ _ _ _)) => true
  | .fault (.bounds (.slots _ _ _ _ _)) => true
  | .fault (.bytecode (.branchOutside _ _)) => true
  | .fault (.bytecode (.noFunction _ _)) => true
  | .fault (.bytecode (.noExternal _ _)) => true
  | .fault (.shape _) => true
  | .trap => true
  | _ => false

theorem Failure.avoidable_of_runtime {failure : Failure}
    (runtime : failure.runtime = true) : failure.avoidable = false := by
  unfold Failure.runtime at runtime
  split at runtime <;> simp_all [Failure.avoidable]

theorem Batch.bounds_eq {batch : Batch σ} {function : Function}
    (globals : batch.program.globalCount ≤ globalCapacity)
    (uniforms : batch.uniforms.length = batch.program.uniformCount) :
    batch.bounds function = batch.program.bounds batch.externals.length function := by
  have limit : batch.program.globalLimit = batch.program.globalCount :=
    Nat.min_eq_left globals
  unfold Batch.bounds Program.bounds
  rw [limit, uniforms]

/-- The failures that remain: reasons of the run, and a missing opcode at the end. -/
def Machine.Remains (machine : Machine) (failure : Failure) : Prop :=
  failure.runtime = true ∧ failure.avoidable = false ∨
    machine.current.offset = machine.current.function.code.length ∧
      failure = .fault
        (.bytecode (.truncated machine.current.function.code.length 1))

theorem Machine.Stops.remains {machine : Machine} {batch : Batch σ} {failure : Failure}
    (stops : machine.Stops batch failure)
    (verified : batch.program.Verified batch.externals.length)
    (uniforms : batch.uniforms.length = batch.program.uniformCount)
    (sound : machine.Sound batch.program) (aligned : machine.Aligned) :
    machine.Remains failure := by
  have code := verified.codes _ sound.running.known
  cases stops with
  | malformed failed reported =>
      rcases reported with rfl | ⟨runtime, _⟩
      · rcases aligned machine.current List.mem_cons_self with
          atEnd | ⟨⟨offset, found⟩, listed, same⟩
        · rw [upcoming_of_end atEnd] at failed
          rcases failed with ⟨⟩
          exact Or.inr ⟨atEnd, rfl⟩
        · rcases same with rfl
          obtain ⟨distance, place, reads⟩ := Listing.decode_of_mem_read listed
          rw [Nat.zero_add] at place
          rw [← place] at reads
          rw [upcoming, reads] at failed
          exact absurd failed (by rintro ⟨⟩)
      · exact Or.inl ⟨runtime, Failure.avoidable_of_runtime runtime⟩
  | refused decoded refused =>
      rcases refused.of_admitted (Instruction.decode_eq_ok decoded).2 with
        ⟨runtime, _⟩ | ⟨_, _, refused⟩
      · exact Or.inl ⟨runtime, Failure.avoidable_of_runtime runtime⟩
      · refine (refused ⟨?_, ?_⟩).elim
        · rw [Batch.bounds_eq verified.globals uniforms]
          exact code.checked _ (aligned.listed decoded)
        · intro target leads
          obtain ⟨other, listed, rfl⟩ :=
            code.branches _ (aligned.listed decoded) target leads
          obtain ⟨distance, place, reads⟩ := Listing.decode_of_mem_read listed
          have width := Instruction.width_le reads
          have positive := other.instruction.width_pos
          rw [List.length_drop] at width
          change other.offset ≤ machine.current.function.code.length
          omega

/-! ## Calls of verified programs -/

namespace Linked

variable {linked : Linked σ} {invocation : Invocation} {function : Function}

/-- An invocation of a function with the declared numbers of uniforms and inputs. -/
structure Shaped (linked : Linked σ) (invocation : Invocation) (function : Function) :
    Prop where
  known : linked.program.functions[invocation.handle]? = some function
  uniforms : invocation.uniforms.length = linked.program.uniformCount
  inputs : ∀ given, invocation.inputs = some given →
    given.length = linked.program.inputMap.length

theorem Shaped.prepare (shaped : linked.Shaped invocation function)
    (verified : linked.program.Verified linked.externals.length)
    {arguments : Nat} {returns : Option Nat}
    (counted : arguments = function.parameterCount)
    (declared : ∀ given, returns = some given → given = function.returnCount) :
    linked.program.prepare invocation arguments returns = .ok function := by
  have frame := verified.frames _ (List.mem_of_getElem? shaped.known)
  apply Program.prepare_eq_ok.mpr
  refine ⟨shaped.known, frame.widths, counted, declared, shaped.uniforms, ?_,
    frame.frame, verified.globals, frame.conditions, frame.loops⟩
  intro given mapped
  obtain ⟨inputs, present, rfl⟩ := Option.map_eq_some_iff.mp mapped
  exact shaped.inputs inputs present

theorem seed_of_verified (verified : linked.program.Verified linked.externals.length)
    (inputs : List Word) : ∃ globals, linked.program.seed inputs = .ok globals := by
  have seeding := linked.program.seed_yields inputs
  cases seeded : linked.program.seed inputs with
  | ok globals =>
      exact ⟨globals, rfl⟩
  | error failure =>
      rw [seeded] at seeding
      rcases seeding with ⟨slot, mapped, outside, _⟩
      have limit : linked.program.globalLimit = linked.program.globalCount :=
        Nat.min_eq_left verified.globals
      rw [limit] at outside
      exact absurd (verified.inputs slot mapped) outside

theorem Occurs.aligned {firstElement lanes : Nat} {machine : Machine}
    (occurs : linked.Occurs invocation function firstElement lanes machine)
    (verified : linked.program.Verified linked.externals.length) :
    machine.Aligned := by
  obtain ⟨returns, arguments, globals, prepared, _, reached⟩ := occurs_iff.mp occurs
  have ready := Function.Ready.of_prepared prepared
  apply reached.aligned verified (Machine.sound_booted ready.known ready.frame globals)
  intro activation only
  rcases List.mem_singleton.mp only with rfl
  exact Machine.aligned_start (verified.codes _ ready.known).whole _ _ _ _

theorem Occurs.remains {firstElement lanes : Nat} {machine : Machine}
    (occurs : linked.Occurs invocation function firstElement lanes machine)
    (verified : linked.program.Verified linked.externals.length)
    (shaped : linked.Shaped invocation function) (host : σ) :
    Yields machine.Remains (fun _ => True)
      (machine.stepAt (linked.batch invocation firstElement) host).1 := by
  have sound := occurs.serves.sound
  apply (Machine.stepAt_yields sound host).mono
  · intro failure stops
    exact stops.remains verified shaped.uniforms sound (occurs.aligned verified)
  · exact fun _ _ => trivial

/-- A failure that a call of a verified program may end in. -/
def Tolerates (linked : Linked σ) (failure : Failure) : Prop :=
  failure.avoidable = false ∨
    ∃ function ∈ linked.program.functions,
      failure = .fault (.bytecode (.truncated function.code.length 1))

theorem Fails.tolerated {failure : Failure}
    (fails : linked.Fails invocation function failure)
    (verified : linked.program.Verified linked.externals.length)
    (shaped : linked.Shaped invocation function) : linked.Tolerates failure := by
  rcases fails with refused | ⟨firstElement, lanes, machine, state, occurs, failed⟩
  · obtain ⟨globals, seeded⟩ := seed_of_verified verified (invocation.inputs.getD [])
    rw [seeded] at refused
    exact absurd refused (by rintro ⟨⟩)
  · rcases (occurs.remains verified shaped state).of_error failed with
      ⟨_, unavoidable⟩ | ⟨_, missing⟩
    · exact Or.inl unavoidable
    · exact Or.inr ⟨_, occurs.serves.sound.running.known, missing⟩

/--
Verification is sound.  A call of a verified program whose buffers have the
declared shapes is never refused; every machine that occurs in it stands at
boundaries of the code and stops only for a reason of the run or for a missing
opcode at the very end of the code; and so the call fails only in these ways.
-/
theorem verification_is_sound (linked : Linked σ) (invocation : Invocation)
    (function : Function) (verified : linked.verify = .ok ())
    (shaped : linked.Shaped invocation function) :
    (∀ returns, (∀ given, returns = some given → given = function.returnCount) →
        linked.program.prepare invocation function.parameterCount returns =
          .ok function) ∧
      (∃ globals, linked.program.seed (invocation.inputs.getD []) = .ok globals) ∧
      (∀ firstElement lanes machine,
        linked.Occurs invocation function firstElement lanes machine →
          machine.Aligned ∧
            ∀ host, Yields machine.Remains (fun _ => True)
              (machine.stepAt (linked.batch invocation firstElement) host).1) ∧
      (∀ budget arguments returns host failure,
        arguments.length = function.parameterCount →
          returns.length = function.returnCount →
            ((linked.run budget invocation arguments returns).run host).1.ending =
                .failed failure →
              linked.Tolerates failure) ∧
      ∀ budget count arguments returns host,
        arguments.length = function.parameterCount →
          (returns = [] ∨ returns.length = function.returnCount) →
            (∀ column ∈ arguments ++ returns, count ≤ column.length) →
              checkColumns .argument arguments count = .ok () ∧
                checkColumns .result returns count = .ok () ∧
                ∀ failure,
                  ((linked.runStriped budget invocation count arguments
                    returns).run host).1.ending = .failed failure →
                    linked.Tolerates failure := by
  have passed := Program.verify_eq_ok.mp verified
  refine ⟨?_, ?_, ?_, ?_, ?_⟩
  · exact fun returns declared => shaped.prepare passed rfl declared
  · exact seed_of_verified passed _
  · exact fun _ _ _ occurs =>
      ⟨occurs.aligned passed, occurs.remains passed shaped⟩
  · intro budget arguments returns host failure counted declared failed
    have prepared : linked.program.prepare invocation arguments.length
        (some returns.length) = .ok function :=
      shaped.prepare passed counted fun _ same =>
        (Option.some.inj same).symm.trans declared
    exact (run_failed prepared failed).tolerated passed shaped
  · intro budget count arguments returns host counted declared long
    have argumentColumns : ∀ column ∈ arguments, count ≤ column.length :=
      fun column member => long column (List.mem_append_left _ member)
    have returnColumns : ∀ column ∈ returns, count ≤ column.length :=
      fun column member => long column (List.mem_append_right _ member)
    have longArguments : checkColumns .argument arguments count = .ok () :=
      checkColumns_eq_ok.mpr argumentColumns
    have longReturns : checkColumns .result returns count = .ok () :=
      checkColumns_eq_ok.mpr returnColumns
    refine ⟨longArguments, longReturns, ?_⟩
    intro failure failed
    have prepared : linked.program.prepare invocation arguments.length
        (if returns.isEmpty then none else some returns.length) = .ok function := by
      apply shaped.prepare passed counted
      intro given same
      rcases declared with rfl | declared
      · exact absurd same (by simp)
      · split at same
        · exact absurd same (by simp)
        · exact (Option.some.inj same).symm.trans declared
    rw [runStriped_at, prepared, longArguments, longReturns] at failed
    exact (runFrom_failed prepared ⟨counted, declared, argumentColumns, returnColumns⟩
      failed).tolerated passed shaped

/-- A function that calls `echo`, unless no lane is live. -/
def relay : Function where
  name := "relay"
  parameterCount := 1
  stackCount := 2
  returnCount := 1
  parameters := [{ slotCount := 1 }]
  code := (Instruction.compute (.reserve 1)).encode ++
    (Instruction.load .local 1 0).encode ++ (Instruction.branchIfAllFalse 10).encode ++
    (Instruction.call 0).encode ++ (Instruction.compute (.pop 1)).encode ++
    (Instruction.ret 1).encode

/-- A call of `relay` is never refused and fails only as verified programs may. -/
theorem verification_is_sound_relay :
    Linked.verify (⟨{ functions := [echo, relay] }, []⟩ : Linked Unit) = .ok () ∧
      ∀ budget word host failure,
        ((Linked.run (⟨{ functions := [echo, relay] }, []⟩ : Linked Unit) budget
          ⟨1, [], none⟩ [word] [0]).run host).1.ending = .failed failure →
          Linked.Tolerates (⟨{ functions := [echo, relay] }, []⟩ : Linked Unit)
            failure := by
  have verified :
      Linked.verify (⟨{ functions := [echo, relay] }, []⟩ : Linked Unit) = .ok () := by
    rfl
  have shaped : Linked.Shaped (⟨{ functions := [echo, relay] }, []⟩ : Linked Unit)
      ⟨1, [], none⟩ relay :=
    ⟨rfl, rfl, by simp⟩
  refine ⟨verified, ?_⟩
  intro budget word host failure
  exact (verification_is_sound _ _ _ verified shaped).2.2.2.1 budget [word] [0] host
    failure rfl rfl

end Linked

end Lockstep
