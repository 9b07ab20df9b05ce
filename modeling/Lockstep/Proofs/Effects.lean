import Lockstep.Proofs.Decoding
import Lockstep.Proofs.Predication
import Lockstep.Proofs.Runs
import Lockstep.Proofs.Slots

/-!
# What a step can do

`Machine.Effect` lists everything that an instruction can do to a machine:
operate on the stack, the slots and the predicates; lead to another offset;
open the frame of a callee; or hand results to a caller.  The operands that an
instruction takes and gives are read off the instruction alone, by
`Instruction.taken` and `Instruction.given`.

An instruction is admitted where its operands stay within the limits of the
batch.  `Machine.execute_ensures` says that an instruction has one of these
effects, or fails for a reason of the run, or is not admitted; it never
addresses storage that does not exist.
-/

namespace Lockstep

variable {σ : Type}

/-! ## Reading an instruction -/

namespace Instruction

/-- How many operands an instruction looks at. -/
def taken : Instruction → Nat
  | .compute computation => computation.kernel.operands
  | .divide _ count => 2 * count.toNat
  | .shift _ _ => 1
  | .store _ count _ => count.toNat
  | .gather _ _ => 1
  | .scatter _ count => count.toNat + 1
  | .clampIndex _ => 1
  | .maskPush => 1
  | .maskBlend count => 2 * count.toNat
  | .loopMask => 1
  | .callExternal arguments _ _ => arguments.toNat
  | .writeExternal count _ => count.toNat
  | _ => 0

/-- How many operands an instruction leaves in their place. -/
def given : Instruction → Nat
  | .compute computation => computation.kernel.given
  | .divide _ count => count.toNat
  | .shift _ _ => 1
  | .load _ count _ => count.toNat
  | .gather _ count => count.toNat
  | .clampIndex _ => 1
  | .maskBlend count => count.toNat
  | .callExternal _ results _ => results.toNat
  | .readExternal count _ => count.toNat
  | _ => 0

/-- What an instruction does to the predicates, given the topmost condition. -/
def action? (condition : Mask) : Instruction → Option Predicates.Action
  | .maskPush => some (.maskPush condition)
  | .maskPop => some .maskPop
  | .maskNegate => some .maskNegate
  | .maskBlend _ => some .maskBlend
  | .loopBegin => some .loopBegin
  | .loopNext => some .loopNext
  | .loopMask => some (.loopMask condition)
  | .loopEnd => some .loopEnd
  | .loopBreak => some .loopBreak
  | .loopContinue => some .loopContinue
  | _ => none

end Instruction

/-- The limits that a batch sets to the operands of a function. -/
def Batch.bounds (batch : Batch σ) (function : Function) : Bounds where
  frame := function.frameSize
  globals := batch.program.globalLimit
  uniforms := batch.uniforms.length
  functions := batch.program.functions.length
  externals := batch.externals.length
  returns := function.returnCount

/-- The operands of an instruction stay within the limits of a batch. -/
def Batch.Admits (batch : Batch σ) (function : Function) (instruction : Instruction) :
    Prop :=
  instruction.check (batch.bounds function) = .ok () ∧
    ∀ target, instruction.target? = some target → target ≤ function.code.length

/-- The machine that a step leads to. -/
def Flow.machine : Flow → Machine
  | .next machine => machine
  | .done machine _ => machine

namespace Machine

variable {machine : Machine} {batch : Batch σ}

/-- The cells that an instruction addresses for writing. -/
def addressed (machine : Machine) : Instruction → Bank → Nat → Lane → Prop
  | .store bank count slot => machine.storeCells bank slot.toNat count.toNat
  | .scatter bank count =>
      machine.scatterCells bank (machine.cell .local (machine.top - 1)) count.toNat
        machine.live.active
  | _ => untouched

/-- The predicates after an instruction. -/
def predicated (machine : Machine) (instruction : Instruction) :
    Except Failure Predicates :=
  match instruction.action? (machine.cell .local (machine.top - 1)).truthy with
  | some action => machine.predicates.perform action
  | none => .ok machine.predicates

/-- The machine at another offset. -/
def jumped (machine : Machine) (target : Nat) : Machine :=
  { machine with current := { machine.current with offset := target } }

/-- The machine in a new frame at a base. -/
def entered (machine : Machine) (function : Function) (base : Nat) : Machine :=
  { machine with
    registers := machine.registers.overwrite (base + function.parameterCount)
      (List.replicate function.localCount .zero)
    top := base + function.frameSize
    current := {
      function := function
      offset := 0
      base := base
      floor := base + function.frameSize
      frameSize := function.frameSize
      argumentCount := function.parameterCount } }

/-- The machine that has called a function. -/
def called (machine : Machine) (callee : Function) : Machine :=
  { machine.entered callee (machine.top - callee.parameterCount) with
    callers := machine.current :: machine.callers }

/-- The machine that has handed registers to a caller. -/
def resumed (machine : Machine) (caller : Activation) (earlier : List Activation)
    (returned : List Register) : Machine :=
  { machine with
    registers := machine.registers.overwrite
      (machine.current.base - returned.length) returned
    top := machine.current.base + machine.current.argumentCount
    current := caller
    callers := earlier }

/-! ## Effects -/

/-- A machine after an instruction that stays in its activation. -/
structure Operated (before : Machine) (instruction : Instruction) (after : Machine) :
    Prop where
  stack :
    before.Operates instruction.taken instruction.given (before.addressed instruction)
      { after with predicates := before.predicates }
  predicates : before.predicated instruction = .ok after.predicates

/-- A call of a function that has room. -/
structure Calls (program : Program) (before : Machine) (position : Nat)
    (callee : Function) : Prop where
  live : before.live.any = true
  known : program.functions[position]? = some callee
  waiting : before.callers.length < callCapacity
  present : before.current.floor + callee.parameterCount ≤ before.top
  room :
    before.top - callee.parameterCount + callee.stackNeed ≤ stackCapacity

/-- A return of the topmost registers. -/
structure Returns (before : Machine) (count : Nat) (returned : List Register) :
    Prop where
  declared : count = before.current.function.returnCount
  present : before.current.floor + count ≤ before.top
  returned : returned = before.topmost count

/-- What comes of returning registers. -/
inductive Hands (before : Machine) (count : Nat) : Flow → Prop
  | resumed {returned : List Register} {caller : Activation} {earlier : List Activation}
      (returns : before.Returns count returned)
      (waiting : before.callers = caller :: earlier)
      (reserved : caller.floor + count ≤ before.current.base) :
      Hands before count (.next (before.resumed caller earlier returned))
  | finished {returned : List Register} (returns : before.Returns count returned)
      (outermost : before.callers = []) : Hands before count (.done before returned)

/-- Everything that an instruction can do to a machine. -/
inductive Effect (program : Program) (before : Machine) :
    Instruction → Flow → Prop
  | operated {instruction : Instruction} {after : Machine}
      (operated : before.Operated instruction after) :
      Effect program before instruction (.next after)
  | jumped {instruction : Instruction} {target : Nat}
      (leads : instruction.target? = some target)
      (inside : target ≤ before.current.function.code.length) :
      Effect program before instruction (.next (before.jumped target))
  | called {position : UInt8} {callee : Function}
      (calls : before.Calls program position.toNat callee) :
      Effect program before (.call position) (.next (before.called callee))
  | returned {count : UInt8} {flow : Flow} (hands : before.Hands count.toNat flow) :
      Effect program before (.ret count) flow

/--
The failures of an instruction: reasons of the run, operands beyond a limit, or
operands that no code has and that the scratch cells do not hold.
-/
def Refuses (batch : Batch σ) (machine : Machine) (instruction : Instruction)
    (failure : Failure) : Prop :=
  machine.AllowsUnless instruction.Admitted failure ∨
    (failure ≠ .trap ∧ failure.lane? = none ∧
      ¬ batch.Admits machine.current.function instruction)

theorem Refuses.of_allows {batch : Batch σ} {machine : Machine} {instruction : Instruction}
    {failure : Failure} (allowed : machine.Allows failure) :
    machine.Refuses batch instruction failure :=
  Or.inl (Or.inl allowed)

/-- With admitted operands there are enough scratch cells. -/
theorem AllowsUnless.refuses {batch : Batch σ} {machine : Machine}
    {instruction : Instruction} {enough : Prop} {failure : Failure}
    (allowed : machine.AllowsUnless enough failure) (few : instruction.Admitted → enough) :
    machine.Refuses batch instruction failure :=
  Or.inl (allowed.imp id (And.imp id (mt few)))

theorem Refuses.of_admitted {batch : Batch σ} {machine : Machine}
    {instruction : Instruction} {failure : Failure}
    (refused : machine.Refuses batch instruction failure)
    (admitted : instruction.Admitted) :
    machine.Allows failure ∨ (failure ≠ .trap ∧ failure.lane? = none ∧
      ¬ batch.Admits machine.current.function instruction) :=
  refused.imp_left fun allowed => allowed.resolve_right fun overrun => overrun.2 admitted

/-! ## Operations of an instruction -/

theorem Operates.operated {before after : Machine} {instruction : Instruction}
    (operates : before.Operates instruction.taken instruction.given
      (before.addressed instruction) after)
    (plain : ∀ condition, instruction.action? condition = none) :
    before.Operated instruction after := by
  have same : { after with predicates := before.predicates } = after := by
    rw [← operates.predicates]
  constructor
  · rw [same]
    exact operates
  · rw [predicated, plain, operates.predicates]

/-- An instruction that changes nothing. -/
theorem operated_idle (fits : machine.Fits) {instruction : Instruction}
    (none : instruction.taken = 0 ∧ instruction.given = 0)
    (nowhere : machine.addressed instruction = untouched)
    (plain : ∀ condition, instruction.action? condition = .none) :
    machine.Operated instruction machine := by
  refine Operates.operated ?_ plain
  rw [none.1, none.2, nowhere]
  exact ⟨fits.floor, rfl, fits.capacity, rfl, rfl, rfl,
    fun _ _ _ impossible => impossible.elim, fun _ _ _ _ _ => rfl⟩

/-- An instruction that drops operands and changes the predicates. -/
theorem withPredicates_yields (fits : machine.Fits) (sound : machine.predicates.Sound)
    (instruction : Instruction) {action : Predicates.Action}
    (present : machine.current.floor + instruction.taken ≤ machine.top)
    (none : instruction.given = 0)
    (nowhere : machine.addressed instruction = untouched)
    (acts : instruction.action? (machine.cell .local (machine.top - 1)).truthy =
      some action) :
    Yields machine.Allows (machine.Operated instruction)
      ((machine.drop instruction.taken).withPredicates
        (machine.predicates.perform action)) := by
  have performed := Predicates.perform_yields sound action
  cases outcome : machine.predicates.perform action with
  | error failure =>
      rcases performed.of_error outcome with ⟨runtime, shared⟩
      refine ⟨runtime, ?_⟩
      intro lane concerned
      rw [shared] at concerned
      exact absurd concerned (by simp)
  | ok predicates =>
      refine ⟨?_, ?_⟩
      · rw [none, nowhere]
        exact @operates_replace machine _ [] present
          (Nat.le_trans (Nat.sub_le _ _) fits.capacity)
      · rw [predicated, acts]
        exact outcome

theorem openScope_yields (fits : machine.Fits) (sound : machine.predicates.Sound) :
    Yields machine.Allows (machine.Operated .maskPush) machine.openScope := by
  apply Yields.bind (pop_yields fits)
  rintro _ ⟨present, rfl⟩
  exact withPredicates_yields fits sound .maskPush present rfl rfl rfl

theorem narrowLoop_yields (fits : machine.Fits) (sound : machine.predicates.Sound) :
    Yields machine.Allows (machine.Operated .loopMask) machine.narrowLoop := by
  apply Yields.bind (pop_yields fits)
  rintro _ ⟨present, rfl⟩
  exact withPredicates_yields fits sound .loopMask present rfl rfl rfl

theorem blend_yields (fits : machine.Fits) (sound : machine.predicates.Sound)
    (count : UInt8) :
    Yields machine.Allows (machine.Operated (.maskBlend count))
      (machine.blend count.toNat) := by
  have performed := Predicates.perform_yields sound .maskBlend
  unfold blend
  cases closed : machine.predicates.maskBlend with
  | error failure =>
      have outcome : machine.predicates.perform .maskBlend = .error failure := by
        rw [Predicates.perform, closed]
        rfl
      rcases performed.of_error outcome with ⟨runtime, shared⟩
      refine ⟨runtime, ?_⟩
      intro lane concerned
      rw [shared] at concerned
      exact absurd concerned (by simp)
  | ok answer =>
      rcases answer with ⟨condition, predicates⟩
      rw [ok_bind]
      apply Yields.bind (peek_yields fits _)
      rintro operands ⟨present, rfl⟩
      rw [push_eq]
      split
      · rename_i enough
        have counted : (List.zipWith (Lanes.select condition)
            ((machine.topmost (2 * count.toNat)).take count.toNat)
            ((machine.topmost (2 * count.toNat)).drop count.toNat)).length =
              count.toNat := by
          simp only [List.length_zipWith, List.length_take, List.length_drop,
            length_topmost]
          omega
        have operates := operates_replace present enough
        rw [counted] at operates
        constructor
        · exact operates
        · rw [predicated]
          change machine.predicates.maskBlend.map Prod.snd = _
          rw [closed]
          rfl
      · exact allows_stack machine _

/-! ## Control -/

end Machine

theorem saturatingAdd_le {left right bound : Nat} (small : bound < largestSize) :
    saturatingAdd left right ≤ bound ↔ left + right ≤ bound := by
  unfold saturatingAdd
  omega

theorem stackCapacity_lt : stackCapacity < largestSize := by
  decide

/-- The frame of a function that fits the stack is as large as declared. -/
theorem Function.frame_of_fits {function : Function}
    (fits : function.stackNeed ≤ stackCapacity) :
    function.frameSize = function.parameterCount + function.localCount ∧
      function.frameSize + function.stackCount ≤ stackCapacity := by
  have need := (saturatingAdd_le stackCapacity_lt).mp fits
  have frame : function.frameSize ≤ stackCapacity :=
    Nat.le_trans (Nat.le_add_right _ _) need
  have capacity := stackCapacity_lt
  unfold frameSize saturatingAdd at frame ⊢
  unfold frameSize saturatingAdd at need
  omega

theorem Function.frameSize_le {function : Function}
    (fits : function.frameSize + function.stackCount ≤ stackCapacity) :
    function.frameSize ≤ function.stackNeed := by
  have capacity := stackCapacity_lt
  unfold stackNeed saturatingAdd
  omega

namespace Machine

variable {machine before : Machine} {batch : Batch σ}

theorem cell_called {callee : Function} {bank : Bank} {position : Nat}
    (present : callee.parameterCount ≤ before.top)
    (room : before.top - callee.parameterCount + callee.stackNeed ≤ stackCapacity)
    (below : bank = .local → position < before.top) :
    (before.called callee).cell bank position = before.cell bank position := by
  cases bank with
  | global =>
      rfl
  | «local» =>
      have frame := Function.frame_of_fits (Nat.le_trans (Nat.le_add_left _ _) room)
      have need := Function.frameSize_le frame.2
      have lower := below rfl
      refine RegisterFile.register_overwrite_of_lt _ ?_ ?_
      · rw [List.length_replicate]
        omega
      · omega

theorem cell_resumed {caller : Activation} {earlier : List Activation}
    {returned : List Register} {bank : Bank} {position : Nat}
    (reserved : returned.length ≤ before.current.base)
    (inside : before.current.base ≤ stackCapacity)
    (below : bank = .local → position < before.current.base - returned.length) :
    (before.resumed caller earlier returned).cell bank position =
      before.cell bank position := by
  cases bank with
  | global =>
      rfl
  | «local» =>
      exact RegisterFile.register_overwrite_of_lt _ (by omega) (below rfl)

theorem jump_yields (machine : Machine) {instruction : Instruction} {target : Nat}
    (leads : instruction.target? = some target) :
    Yields (machine.Refuses batch instruction)
      (fun after => Effect batch.program machine instruction (.next after))
      (machine.jump target) := by
  unfold jump
  by_cases inside : target ≤ machine.current.function.code.length
  · rw [if_pos inside]
    exact Effect.jumped leads inside
  · rw [if_neg inside]
    refine Or.inr ⟨by simp, rfl, ?_⟩
    rintro ⟨_, targets⟩
    exact inside (targets target leads)

theorem enter_eq (machine : Machine) (function : Function) (base : Nat) :
    machine.enter function base =
      if base + function.stackNeed ≤ stackCapacity then
        .ok (machine.entered function base)
      else .error (.fault
        (.capacity (.activation function.name function.stackNeed base))) := by
  have fits : saturatingAdd base function.stackNeed ≤ stackCapacity ↔
      base + function.stackNeed ≤ stackCapacity :=
    saturatingAdd_le stackCapacity_lt
  unfold enter
  by_cases room : base + function.stackNeed ≤ stackCapacity
  · have frame := Function.frame_of_fits
      (Nat.le_trans (Nat.le_add_left _ _) room)
    have need := Function.frameSize_le frame.2
    have inside : base + function.parameterCount +
        (List.replicate function.localCount (.zero : Register)).length ≤
          stackCapacity := by
      rw [List.length_replicate]
      omega
    rw [if_pos room, if_neg (Nat.not_lt_of_le (fits.mpr room)),
      RegisterFile.writeRun_of_le _ inside]
    rfl
  · rw [if_neg room, if_pos (Nat.lt_of_not_le fun small => room (fits.mp small))]
    rfl

theorem enter_yields (machine : Machine) (function : Function) (base : Nat) :
    Yields (fun failure => failure.runtime = true ∧ failure.lane? = none)
      (fun after => base + function.stackNeed ≤ stackCapacity ∧
        after = machine.entered function base)
      (machine.enter function base) := by
  rw [enter_eq]
  split
  · rename_i room
    exact ⟨room, rfl⟩
  · exact ⟨rfl, rfl⟩

theorem allows_shared {failure : Failure} (machine : Machine)
    (given : failure.runtime = true ∧ failure.lane? = none) :
    machine.Allows failure := by
  refine ⟨given.1, ?_⟩
  intro lane concerned
  rw [given.2] at concerned
  exact absurd concerned (by simp)

theorem invoke_yields (live : machine.live.any = true) (position : UInt8) :
    Yields (machine.Refuses batch (.call position))
      (fun after => ∃ callee, machine.Calls batch.program position.toNat callee ∧
        after = machine.called callee)
      (machine.invoke batch.program.functions position.toNat) := by
  unfold invoke
  by_cases full : machine.callers.length ≥ callCapacity
  · rw [if_pos full]
    exact Refuses.of_allows (machine.allows_shared ⟨rfl, rfl⟩)
  · rw [if_neg full]
    cases known : batch.program.functions[position.toNat]? with
    | none =>
        refine Or.inr ⟨by simp, rfl, ?_⟩
        rintro ⟨checked, _⟩
        have outside := List.getElem?_eq_none_iff.mp known
        exact Nat.not_lt_of_le outside (ite_ok_iff.mp checked)
    | some callee =>
        apply Yields.bind ((require_yields machine _).permit fun _ => .of_allows)
        intro _ present
        apply Yields.bind ((enter_yields machine callee _).permit fun _ shared =>
          Refuses.of_allows (machine.allows_shared shared))
        rintro _ ⟨room, rfl⟩
        exact ⟨callee, ⟨live, known, Nat.lt_of_not_le full, present, room⟩, rfl⟩

theorem call_yields (fits : machine.Fits) (position : UInt8) :
    Yields (machine.Refuses batch (.call position))
      (fun after => Effect batch.program machine (.call position) (.next after))
      (machine.call batch.program.functions position.toNat) := by
  unfold call
  by_cases live : machine.live.any = true
  · rw [if_pos live]
    apply (invoke_yields live position).relax
    rintro _ ⟨callee, calls, rfl⟩
    exact Effect.called calls
  · rw [if_neg live]
    exact Effect.operated (operated_idle fits ⟨rfl, rfl⟩ rfl fun _ => rfl)

theorem jumpIfAllFalse_yields (fits : machine.Fits) (target : UInt16) :
    Yields (machine.Refuses batch (.branchIfAllFalse target))
      (fun after =>
        Effect batch.program machine (.branchIfAllFalse target) (.next after))
      (machine.jumpIfAllFalse target.toNat) := by
  unfold jumpIfAllFalse
  split
  · exact Effect.operated (operated_idle fits ⟨rfl, rfl⟩ rfl fun _ => rfl)
  · exact jump_yields machine rfl

theorem ret_yields (fits : machine.Fits) (count : UInt8) :
    Yields (machine.Refuses batch (.ret count)) (machine.Hands count.toNat)
      (machine.ret count.toNat) := by
  unfold ret
  by_cases declared : count.toNat ≠ machine.current.function.returnCount
  · rw [if_pos declared]
    refine Or.inr ⟨by simp, rfl, ?_⟩
    rintro ⟨checked, _⟩
    exact declared (ite_ok_iff.mp checked)
  · rw [if_neg declared]
    apply Yields.bind ((peek_yields fits count.toNat).permit fun _ => .of_allows)
    rintro _ ⟨present, rfl⟩
    have returns : machine.Returns count.toNat (machine.topmost count.toNat) :=
      ⟨Decidable.not_not.mp declared, present, rfl⟩
    cases waiting : machine.callers with
    | nil =>
        exact .finished returns waiting
    | cons caller earlier =>
        simp only [resume, length_topmost]
        split
        · rename_i reserved
          have frame := fits.frame
          have floor := fits.floor
          have capacity := fits.capacity
          have inside : machine.current.base - count.toNat +
              (machine.topmost count.toNat).length ≤ stackCapacity := by
            rw [length_topmost]
            omega
          rw [RegisterFile.writeRun_of_le _ inside]
          have handed := Hands.resumed returns waiting reserved
          simp only [resumed, length_topmost] at handed
          exact handed
        · exact Refuses.of_allows (machine.allows_shared ⟨rfl, rfl⟩)

/-! ## Requests to the host -/

theorem external_yields {instruction : Instruction} {position : UInt8}
    (checks : instruction.check (batch.bounds machine.current.function) =
      checkExternal position batch.externals.length) :
    Yields (machine.Refuses batch instruction) (fun _ => True)
      (batch.external position.toNat) := by
  unfold Batch.external
  cases known : batch.externals[position.toNat]? with
  | some external =>
      trivial
  | none =>
      refine Or.inr ⟨by simp, rfl, ?_⟩
      rintro ⟨checked, _⟩
      have outside := List.getElem?_eq_none_iff.mp known
      rw [checks] at checked
      exact Nat.not_lt_of_le outside (ite_ok_iff.mp checked)

@[simp]
theorem length_mergeAnswers (count : Nat) (before : List Register)
    (answers : List (Lane × List Word)) :
    (mergeAnswers count before answers).length = count := by
  simp [mergeAnswers]

theorem refuses_external (machine : Machine) (batch : Batch σ)
    (instruction : Instruction) (error : HostError) :
    machine.Refuses batch instruction (.external error) :=
  Refuses.of_allows (machine.allows_shared ⟨rfl, rfl⟩)

theorem scratch_ensures {instruction : Instruction} {count : Nat}
    (few : instruction.Admitted → count ≤ vectorCells) :
    Session.Ensures (machine.Refuses batch instruction) (fun _ => True)
      (Session.ofExcept (scratch count) : Session σ Unit) :=
  .ofExcept ((scratch_yields machine count).permit fun _ allowed => allowed.refuses few)

theorem readExternal_ensures (fits : machine.Fits) (count external : UInt8) :
    Session.Ensures (machine.Refuses batch (.readExternal count external))
      (machine.Operated (.readExternal count external))
      (machine.readExternal batch count.toNat external.toNat) := by
  apply Session.Ensures.bind (.ofExcept (external_yields rfl))
  intro attached _
  apply Session.Ensures.bind
    (.ofExcept ((room_yields machine count.toNat).permit fun _ => .of_allows))
  intro _ _
  have few : (Instruction.readExternal count external).Admitted → count.toNat ≤ vectorCells :=
    Within.toNat_le
  apply Session.Ensures.bind (scratch_ensures few)
  intro _ _
  apply Session.Ensures.bind (Session.Ensures.mapM ?_)
  · intro answers _
    apply Session.Ensures.ofExcept
    apply ((push_yields machine _).permit fun _ => .of_allows).relax
    rintro after ⟨enough, rfl⟩
    have operates := @operates_replace machine 0 _ fits.floor enough
    rw [length_mergeAnswers] at operates
    exact operates.operated fun _ => rfl
  · intro lane _
    apply Session.Ensures.bind
      (.ask _ _ _ _ (machine.refuses_external batch _))
    exact fun _ _ => .pure trivial

theorem writeExternal_ensures (fits : machine.Fits) (count external : UInt8) :
    Session.Ensures (machine.Refuses batch (.writeExternal count external))
      (machine.Operated (.writeExternal count external))
      (machine.writeExternal batch count.toNat external.toNat) := by
  apply Session.Ensures.bind (.ofExcept (external_yields rfl))
  intro attached _
  apply Session.Ensures.bind
    (.ofExcept ((peek_yields fits count.toNat).permit fun _ => .of_allows))
  rintro _ ⟨present, rfl⟩
  have few : (Instruction.writeExternal count external).Admitted → count.toNat ≤ vectorCells :=
    Within.toNat_le
  apply Session.Ensures.bind (scratch_ensures few)
  intro _ _
  apply Session.Ensures.bind (Session.Ensures.forM ?_)
  · intro _ _
    apply Session.Ensures.pure
    have operates := @operates_replace machine _ [] present
      (Nat.le_trans (Nat.sub_le _ _) fits.capacity)
    exact operates.operated fun _ => rfl
  · intro lane _
    exact .ask _ _ _ _ (machine.refuses_external batch _)

theorem callExternal_ensures (fits : machine.Fits) (arguments results external : UInt8) :
    Session.Ensures
      (machine.Refuses batch (.callExternal arguments results external))
      (machine.Operated (.callExternal arguments results external))
      (machine.callExternal batch arguments.toNat results.toNat external.toNat) := by
  apply Session.Ensures.bind (.ofExcept (external_yields rfl))
  intro attached _
  apply Session.Ensures.bind
    (.ofExcept ((peek_yields fits arguments.toNat).permit fun _ => .of_allows))
  rintro _ ⟨present, rfl⟩
  apply Session.Ensures.bind
    (.ofExcept ((room_yields machine _).permit fun _ => .of_allows))
  intro _ _
  have few : (Instruction.callExternal arguments results external).Admitted →
      max arguments.toNat results.toNat ≤ vectorCells :=
    fun ⟨before, after⟩ => Nat.max_le.mpr ⟨before.toNat_le, after.toNat_le⟩
  apply Session.Ensures.bind (scratch_ensures few)
  intro _ _
  apply Session.Ensures.bind (Session.Ensures.mapM ?_)
  · intro answers _
    apply Session.Ensures.ofExcept
    rw [push_eq]
    split
    · rename_i enough
      have operates := operates_replace present enough
      rw [length_mergeAnswers] at operates
      exact operates.operated fun _ => rfl
    · exact Refuses.of_allows (machine.allows_shared ⟨rfl, rfl⟩)
  · intro lane _
    apply Session.Ensures.bind
      (.ask _ _ _ _ (machine.refuses_external batch _))
    exact fun _ _ => .pure trivial

/-! ## Instructions -/

theorem go_ensures {instruction : Instruction} {result : Except Failure Machine}
    (yields : Yields (machine.Refuses batch instruction)
      (fun after => Effect batch.program machine instruction (.next after)) result) :
    Session.Ensures (machine.Refuses batch instruction)
      (Effect batch.program machine instruction) (go result : Session σ Flow) := by
  intro host
  cases result with
  | ok after =>
      exact yields
  | error failure =>
      exact yields

/-- An operation that carries out an instruction. -/
theorem effect_yields {instruction : Instruction} {result : Except Failure Machine}
    (yields : Yields machine.Allows (machine.Operated instruction) result) :
    Yields (machine.Refuses batch instruction)
      (fun after => Effect batch.program machine instruction (.next after)) result :=
  yields.mono (fun _ => Refuses.of_allows) fun _ => Effect.operated

/-- An operation with scratch cells that carries out an instruction. -/
theorem effect_yields_unless {instruction : Instruction} {result : Except Failure Machine}
    {enough : Prop} (few : instruction.Admitted → enough)
    (yields : Yields (machine.AllowsUnless enough) (machine.Operated instruction) result) :
    Yields (machine.Refuses batch instruction)
      (fun after => Effect batch.program machine instruction (.next after)) result :=
  yields.mono (fun _ allowed => allowed.refuses few) fun _ => Effect.operated

/-- The noted size of the frame sets the limit that its function sets. -/
theorem limit_eq_slots (fits : machine.Fits) (batch : Batch σ) (space : Space) :
    batch.limit machine space = (batch.bounds machine.current.function).slots space := by
  cases space with
  | «local» => exact fits.sized
  | global => rfl
  | uniform => rfl

theorem refuses_slots {instruction : Instruction} {opcode : Opcode} {space : Space}
    {slot count : Nat} {failure : Failure} (fits : machine.Fits)
    (checks : instruction.check (batch.bounds machine.current.function) =
      checkSlots opcode space slot count
        ((batch.bounds machine.current.function).slots space))
    (refused : machine.Allows failure ∨
      machine.slotFailure batch opcode space slot count failure) :
    machine.Refuses batch instruction failure := by
  rcases refused with allowed | ⟨outside, rfl⟩
  · exact .of_allows allowed
  · refine Or.inr ⟨by simp, rfl, ?_⟩
    rintro ⟨checked, _⟩
    rw [checks, ← limit_eq_slots fits] at checked
    exact outside (ite_ok_iff.mp checked)

theorem shift_ensures (fits : machine.Fits) (operation : Shift) (amount : UInt8) :
    Session.Ensures (machine.Refuses batch (.shift operation amount))
      (Effect batch.program machine (.shift operation amount))
      (machine.execute batch (.shift operation amount)) := by
  simp only [execute]
  cases checked : checkShift operation amount with
  | ok done =>
      apply go_ensures
      have total : (operation.kernel amount).Total := fun _ _ => rfl
      apply effect_yields_unless fun _ => total
      exact (compute_yields fits (operation.kernel amount)).relax fun _ operates =>
        operates.operated fun _ => rfl
  | error fault =>
      have cause : ∃ inner, fault = .bytecode inner := by
        unfold checkShift at checked
        split at checked
        · exact absurd checked (by simp)
        · rcases checked with ⟨⟩
          exact ⟨_, rfl⟩
      rcases cause with ⟨inner, rfl⟩
      refine fun _ => Or.inr ⟨by simp, rfl, ?_⟩
      rintro ⟨passed, _⟩
      change checkShift operation amount = .ok () at passed
      rw [checked] at passed
      exact absurd passed (by simp)

/-- An instruction has one of its effects, or fails for a reason of the run or a limit. -/
theorem execute_ensures (fits : machine.Fits) (sound : machine.predicates.Sound)
    (instruction : Instruction) :
    Session.Ensures (machine.Refuses batch instruction)
      (Effect batch.program machine instruction)
      (machine.execute batch instruction) := by
  have switch : ∀ (instruction : Instruction) (action : Predicates.Action),
      instruction.taken = 0 → instruction.given = 0 →
        machine.addressed instruction = untouched →
          instruction.action? (machine.cell .local (machine.top - 1)).truthy =
              some action →
            Yields machine.Allows (machine.Operated instruction)
              (machine.withPredicates (machine.predicates.perform action)) := by
    intro instruction action taken given nowhere acts
    have yields := withPredicates_yields fits sound instruction
      (by rw [taken]; exact fits.floor) given nowhere acts
    rw [taken] at yields
    exact yields
  cases instruction with
  | compute computation =>
      apply go_ensures
      apply effect_yields_unless Computation.kernel_total
      exact (compute_yields fits computation.kernel).relax fun _ operates =>
        operates.operated fun _ => rfl
  | divide operation count =>
      apply go_ensures
      apply effect_yields
      exact (divide_yields fits operation _).relax fun _ operates =>
        operates.operated fun _ => rfl
  | shift operation amount =>
      exact shift_ensures fits operation amount
  | load space count slot =>
      apply go_ensures
      apply (load_yields fits space _ _).mono
      · exact fun _ => refuses_slots fits rfl
      · exact fun _ operates => Effect.operated (operates.operated fun _ => rfl)
  | store bank count slot =>
      apply go_ensures
      apply (store_yields fits bank _ _).mono
      · exact fun _ => refuses_slots fits rfl
      · exact fun _ operates => Effect.operated (operates.operated fun _ => rfl)
  | gather space count =>
      apply go_ensures
      have few : (Instruction.gather space count).Admitted →
          count.toNat ≤ vectorCells := Within.toNat_le
      apply effect_yields_unless few
      exact (gather_yields fits space _).relax fun _ operates =>
        operates.operated fun _ => rfl
  | scatter bank count =>
      apply go_ensures
      apply effect_yields
      exact (scatter_yields fits bank _).relax fun _ operates =>
        operates.operated fun _ => rfl
  | clampIndex length =>
      apply go_ensures
      apply effect_yields
      exact (clampIndex_yields fits _).relax fun _ operates =>
        operates.2.operated fun _ => rfl
  | branch target =>
      exact go_ensures (jump_yields machine rfl)
  | branchIfAllFalse target =>
      exact go_ensures (jumpIfAllFalse_yields fits target)
  | call function =>
      exact go_ensures (call_yields fits function)
  | ret count =>
      exact .ofExcept ((ret_yields fits count).relax fun _ => Effect.returned)
  | maskPush =>
      exact go_ensures (effect_yields (openScope_yields fits sound))
  | maskPop =>
      exact go_ensures (effect_yields (switch .maskPop .maskPop rfl rfl rfl rfl))
  | maskNegate =>
      exact go_ensures
        (effect_yields (switch .maskNegate .maskNegate rfl rfl rfl rfl))
  | maskBlend count =>
      exact go_ensures (effect_yields (blend_yields fits sound count))
  | loopBegin =>
      exact go_ensures (effect_yields (switch .loopBegin .loopBegin rfl rfl rfl rfl))
  | loopNext =>
      exact go_ensures (effect_yields (switch .loopNext .loopNext rfl rfl rfl rfl))
  | loopMask =>
      exact go_ensures (effect_yields (narrowLoop_yields fits sound))
  | loopEnd =>
      exact go_ensures (effect_yields (switch .loopEnd .loopEnd rfl rfl rfl rfl))
  | loopBreak =>
      exact go_ensures (effect_yields (switch .loopBreak .loopBreak rfl rfl rfl rfl))
  | loopContinue =>
      exact go_ensures
        (effect_yields (switch .loopContinue .loopContinue rfl rfl rfl rfl))
  | callExternal arguments results external =>
      exact (callExternal_ensures fits arguments results external).bind
        fun _ operated => .pure (Effect.operated operated)
  | readExternal count external =>
      exact (readExternal_ensures fits count external).bind
        fun _ operated => .pure (Effect.operated operated)
  | writeExternal count external =>
      exact (writeExternal_ensures fits count external).bind
        fun _ operated => .pure (Effect.operated operated)
  | loadFragCoord =>
      exact fun _ => Refuses.of_allows (machine.allows_shared ⟨rfl, rfl⟩)
  | sampleExplicit child =>
      exact fun _ => Refuses.of_allows (machine.allows_shared ⟨rfl, rfl⟩)
  | sampleMatrix child =>
      exact fun _ => Refuses.of_allows (machine.allows_shared ⟨rfl, rfl⟩)

end Machine

end Lockstep
