import Lockstep.Proofs.Effects

/-!
# Machines in good order

A machine is sound for a program if its activations are: each runs a function
of the program, has its frame in its place and an offset inside its code; the
frame of each starts at or above the floor of its caller; and neither the
stack, the waiting activations nor the predicates exceed their capacity.

`Effect.sound` says that every effect of an instruction keeps a machine sound.
`stepAt_yields` is the account of a whole step: it reads an instruction at the
current offset and has one of its effects, or it stops for one of the reasons
in `Machine.Stops`, none of which is a trap.
-/

namespace Lockstep

variable {σ : Type}

/--
An activation of a function of a program, with its frame in its place.  What was
noted about the frame when it was entered is what the function declares.
-/
structure Activation.Sound (program : Program) (activation : Activation) : Prop where
  known : activation.function ∈ program.functions
  offset : activation.offset ≤ activation.function.code.length
  sized : activation.frameSize = activation.function.frameSize
  counted : activation.argumentCount = activation.function.parameterCount
  frame : activation.base + activation.frameSize = activation.floor
  arguments : activation.base + activation.argumentCount ≤ activation.floor

namespace Machine

/-- All activations, the running one first. -/
def activations (machine : Machine) : List Activation :=
  machine.current :: machine.callers

/-- A machine in good order. -/
structure Sound (program : Program) (machine : Machine) : Prop where
  activations : ∀ activation ∈ machine.activations, activation.Sound program
  /-- Each frame starts at or above the floor of its caller. -/
  nested : machine.activations.IsChain fun above below => below.floor ≤ above.base
  waiting : machine.callers.length ≤ callCapacity
  floor : machine.current.floor ≤ machine.top
  capacity : machine.top ≤ stackCapacity
  predicates : machine.predicates.Sound

variable {program : Program} {machine : Machine} {batch : Batch σ}

theorem Sound.running (sound : machine.Sound program) :
    machine.current.Sound program :=
  sound.activations machine.current List.mem_cons_self

theorem Sound.fits (sound : machine.Sound program) : machine.Fits where
  sized := sound.running.sized
  frame := sound.running.frame
  floor := sound.floor
  capacity := sound.capacity

/-! ## Keeping machines sound -/

/-- What an effect does to an activation does not depend on its offset. -/
theorem Sound.jumped (sound : machine.Sound program) {target : Nat}
    (inside : target ≤ machine.current.function.code.length) :
    (machine.jumped target).Sound program where
  activations := by
    intro activation member
    rcases List.mem_cons.mp member with rfl | older
    · have running := sound.running
      exact ⟨running.known, inside, running.sized, running.counted, running.frame,
        running.arguments⟩
    · exact sound.activations activation (List.mem_cons_of_mem _ older)
  nested := by
    have nested := sound.nested
    unfold Machine.activations at nested ⊢
    cases waiting : machine.callers with
    | nil =>
        rw [Machine.jumped, waiting]
        exact List.IsChain.singleton _
    | cons caller earlier =>
        rw [waiting] at nested
        rw [Machine.jumped, waiting]
        exact List.isChain_cons_cons.mpr (List.isChain_cons_cons.mp nested)
  waiting := sound.waiting
  floor := sound.floor
  capacity := sound.capacity
  predicates := sound.predicates

theorem Operated.predicates_keep {before after : Machine} {instruction : Instruction}
    (operated : before.Operated instruction after) (sound : before.predicates.Sound) :
    before.predicates.Keeps after.predicates := by
  have result := operated.predicates
  unfold predicated at result
  split at result
  · exact (Predicates.perform_yields sound _).of_ok result
  · have same := Except.ok.inj result
    rw [← same]
    exact ⟨sound, rfl⟩

theorem Sound.operated {after : Machine} {instruction : Instruction}
    (sound : machine.Sound program) (operated : machine.Operated instruction after) :
    after.Sound program := by
  have same : after.activations = machine.activations := by
    unfold Machine.activations
    rw [show after.current = machine.current from operated.stack.current,
      show after.callers = machine.callers from operated.stack.callers]
  have fits := operated.stack.fits sound.fits
  constructor
  · rw [same]
    exact sound.activations
  · rw [same]
    exact sound.nested
  · rw [show after.callers = machine.callers from operated.stack.callers]
    exact sound.waiting
  · exact fits.floor
  · exact fits.capacity
  · exact (operated.predicates_keep sound.predicates).1

theorem Sound.called {position : Nat} {callee : Function}
    (sound : machine.Sound program) (calls : machine.Calls program position callee) :
    (machine.called callee).Sound program := by
  have present := calls.present
  have room := calls.room
  have frame := Function.frame_of_fits
    (Nat.le_trans (Nat.le_add_left _ _) room)
  have need : callee.frameSize ≤ callee.stackNeed := Function.frameSize_le frame.2
  constructor
  · intro activation member
    rcases List.mem_cons.mp member with rfl | older
    · refine ⟨List.mem_of_getElem? calls.known, Nat.zero_le _, rfl, rfl, rfl, ?_⟩
      change machine.top - callee.parameterCount + callee.parameterCount ≤
        machine.top - callee.parameterCount + callee.frameSize
      omega
    · exact sound.activations activation older
  · apply List.isChain_cons_cons.mpr
    refine ⟨?_, sound.nested⟩
    change machine.current.floor ≤ machine.top - callee.parameterCount
    omega
  · exact calls.waiting
  · exact Nat.le_refl _
  · change machine.top - callee.parameterCount + callee.frameSize ≤ stackCapacity
    omega
  · exact sound.predicates

theorem Sound.resumed {caller : Activation} {earlier : List Activation}
    {returned : List Register} (sound : machine.Sound program)
    (waiting : machine.callers = caller :: earlier) :
    (machine.resumed caller earlier returned).Sound program := by
  have nested := sound.nested
  unfold Machine.activations at nested
  rw [waiting] at nested
  rcases List.isChain_cons_cons.mp nested with ⟨above, rest⟩
  have arguments := sound.running.arguments
  have floor := sound.floor
  have capacity := sound.capacity
  constructor
  · intro activation member
    apply sound.activations
    unfold Machine.activations
    rw [waiting]
    exact List.mem_cons_of_mem _ member
  · exact rest
  · have bound := sound.waiting
    rw [waiting] at bound
    exact Nat.le_of_succ_le bound
  · change caller.floor ≤ machine.current.base + machine.current.argumentCount
    omega
  · change machine.current.base + machine.current.argumentCount ≤ _
    omega
  · exact sound.predicates

/-- Every effect of an instruction keeps a machine sound. -/
theorem Effect.sound {instruction : Instruction} {after : Machine}
    (effect : Effect program machine instruction (.next after))
    (sound : machine.Sound program) : after.Sound program := by
  cases effect with
  | operated operated =>
      exact sound.operated operated
  | jumped leads inside =>
      exact sound.jumped inside
  | called calls =>
      exact sound.called calls
  | returned hands =>
      cases hands with
      | resumed returns waiting reserved =>
          exact sound.resumed waiting

/-! ## Steps -/

/-- The instruction at the current offset. -/
def upcoming (machine : Machine) : Except Malformed Instruction :=
  Instruction.decode machine.current.offset
    (machine.current.function.code.drop machine.current.offset)

/-- The machine past an instruction. -/
def advanced (machine : Machine) (instruction : Instruction) : Machine :=
  machine.jumped (machine.current.offset + instruction.width)

theorem fetch_of_decoded {instruction : Instruction}
    (decoded : machine.upcoming = .ok instruction) :
    machine.fetch =
      if instruction.opcode.executable then
        .ok (instruction, machine.advanced instruction)
      else .error (.fault (.unsupported instruction.opcode)) := by
  unfold upcoming Instruction.decode at decoded
  split at decoded
  · rename_i opcode opened
    rcases Opcode.complete_eq_ok decoded with ⟨rfl, _⟩
    unfold fetch
    simp only [opened, decoded]
    cases instruction.opcode.executable <;> rfl
  · exact absurd decoded (by rintro ⟨⟩)

theorem fetch_of_malformed {malformed : Malformed}
    (failed : machine.upcoming = .error malformed) :
    Yields
      (fun failure => failure = .fault (.bytecode malformed.fault) ∨
        failure.runtime = true ∧ failure.lane? = none)
      (fun _ => False) machine.fetch := by
  unfold upcoming Instruction.decode at failed
  unfold fetch
  split at failed
  · rename_i opcode opened
    simp only [opened, failed]
    cases opcode.executable with
    | false =>
        exact Or.inr ⟨rfl, rfl⟩
    | true =>
        simp only [Bool.not_true, Bool.false_eq_true, if_false]
        cases required : machine.require malformed.demand with
        | ok done =>
            exact Or.inl rfl
        | error failure =>
            unfold require at required
            split at required
            · exact absurd required (by rintro ⟨⟩)
            · rcases required with ⟨⟩
              exact Or.inr ⟨rfl, rfl⟩
  · rename_i fault opened
    rcases failed with ⟨⟩
    simp only [opened]
    exact Or.inl rfl

theorem fetch_eq_ok {advanced : Machine} {instruction : Instruction}
    (fetched : machine.fetch = .ok (instruction, advanced)) :
    machine.upcoming = .ok instruction ∧ advanced = machine.advanced instruction := by
  cases decoded : machine.upcoming with
  | error malformed =>
      exact ((fetch_of_malformed decoded).of_ok fetched).elim
  | ok read =>
      rw [fetch_of_decoded decoded] at fetched
      split at fetched
      · cases fetched
        exact ⟨rfl, rfl⟩
      · cases fetched

/-- A step at an instruction that can be carried out carries it out. -/
theorem stepAt_of_decoded {instruction : Instruction}
    (decoded : machine.upcoming = .ok instruction)
    (executable : instruction.opcode.executable = true) (host : σ) :
    machine.stepAt batch host =
      ((machine.advanced instruction).execute batch instruction).at host := by
  rw [stepAt_eq, fetch_of_decoded decoded, if_pos executable]

/-- The reasons for which a step may end a run. -/
inductive Stops (batch : Batch σ) (machine : Machine) (failure : Failure) : Prop
  /-- The bytes are not an instruction. -/
  | malformed {malformed : Malformed} (failed : machine.upcoming = .error malformed)
      (reported : failure = .fault (.bytecode malformed.fault) ∨
        failure.runtime = true ∧ failure.lane? = none)
  /-- The instruction is refused. -/
  | refused {instruction : Instruction} (decoded : machine.upcoming = .ok instruction)
      (refused : (machine.advanced instruction).Refuses batch instruction failure)

/-- A step reads an instruction and has one of its effects. -/
structure Advances (program : Program) (machine : Machine) (instruction : Instruction)
    (flow : Flow) : Prop where
  decoded : machine.upcoming = .ok instruction
  effect : Effect program (machine.advanced instruction) instruction flow

theorem Sound.advanced {instruction : Instruction} (sound : machine.Sound program)
    (decoded : machine.upcoming = .ok instruction) :
    (machine.advanced instruction).Sound program := by
  apply sound.jumped
  have width := Instruction.width_le decoded
  have offset := sound.running.offset
  rw [List.length_drop] at width
  omega

/-- A step of a sound machine has an effect or stops for a reason; it never traps. -/
theorem stepAt_yields (sound : machine.Sound batch.program) (host : σ) :
    Yields (machine.Stops batch)
      (fun flow => ∃ instruction, machine.Advances batch.program instruction flow)
      (machine.stepAt batch host).1 := by
  rw [stepAt_eq]
  cases decoded : machine.upcoming with
  | error malformed =>
      have fetched := fetch_of_malformed decoded
      cases outcome : machine.fetch with
      | ok reached =>
          exact (fetched.of_ok outcome).elim
      | error failure =>
          exact Stops.malformed decoded (fetched.of_error outcome)
  | ok instruction =>
      rw [fetch_of_decoded decoded]
      cases instruction.opcode.executable with
      | false =>
          exact Stops.refused decoded
            (.of_allows ((machine.advanced instruction).allows_shared ⟨rfl, rfl⟩))
      | true =>
          have advanced := sound.advanced decoded
          have executed : Yields _ _
              (((machine.advanced instruction).execute batch instruction).at host).1 :=
            execute_ensures advanced.fits advanced.predicates instruction host
          apply executed.mono
          · exact fun _ refused => Stops.refused decoded refused
          · exact fun _ effect => ⟨instruction, decoded, effect⟩

theorem Stops.ne_trap {failure : Failure} (stops : machine.Stops batch failure) :
    failure ≠ .trap := by
  rintro rfl
  cases stops with
  | malformed failed reported =>
      rcases reported with same | ⟨runtime, _⟩
      · exact absurd same (by simp)
      · exact absurd runtime (by decide)
  | refused decoded refused =>
      rcases refused.of_admitted (Instruction.decode_eq_ok decoded).2 with
        ⟨runtime, _⟩ | ⟨different, _⟩
      · exact absurd runtime (by decide)
      · exact different rfl

theorem Steps.advances {after : Machine} (steps : Steps batch machine after)
    (sound : machine.Sound batch.program) :
    ∃ instruction, machine.Advances batch.program instruction (.next after) := by
  rcases steps with ⟨host, later, stepped⟩
  have yields := stepAt_yields sound host
  rw [stepped] at yields
  exact yields

theorem Advances.sound {instruction : Instruction} {after : Machine}
    (advances : machine.Advances program instruction (.next after))
    (sound : machine.Sound program) : after.Sound program :=
  advances.effect.sound (sound.advanced advances.decoded)

/-- Every machine that a sound machine reaches is sound. -/
theorem Reaches.sound {start : Machine} (reached : Reaches batch start machine)
    (sound : start.Sound batch.program) : machine.Sound batch.program := by
  apply reached.invariant sound
  intro before after holds steps
  obtain ⟨instruction, advances⟩ := steps.advances holds
  exact advances.sound holds

end Machine

end Lockstep
