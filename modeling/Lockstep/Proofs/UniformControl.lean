import Lockstep.Proofs.SingleLane
import Lockstep.Proofs.Verification

/-!
# Uniform control

If no instruction asks the host, and if all elements of a chunk agree whenever
a conditional branch or a call looks at them, then the machine of the chunk and
the machine of each element run in step: after any number of steps they mirror
each other, and they end together.  No structure of the code is needed.

`Linked.uniform_control_is_lane_independent` draws the conclusion for whole
calls.
-/

namespace Lockstep

variable {σ : Type}

namespace Machine

/--
The next instruction does not ask the host; and if it looks at all lanes at
once, then either all or none of the lanes with elements are live.
-/
def UniformControl (lanes : Nat) (machine : Machine) : Prop :=
  ∀ instruction, machine.upcoming = .ok instruction →
    instruction.asksHost = false ∧
      (instruction.looksAround = true →
        (∀ lane : Lane, lane.val < lanes → machine.live.get lane = true) ∨
          ∀ lane : Lane, lane.val < lanes → machine.live.get lane = false)

variable {batch ownBatch : Batch σ} {function : Function} {lanes : Nat} {chosen : Lane}
variable {left right : Machine}

/-- Where control is uniform, one lane speaks for all. -/
theorem UniformControl.any_eq {instruction : Instruction}
    (uniform : left.UniformControl lanes)
    (serves : left.Serves batch.program function lanes)
    (decoded : left.upcoming = .ok instruction) (looks : instruction.looksAround = true)
    (within : chosen.val < lanes) : left.live.any = left.live.get chosen := by
  apply Bool.eq_iff_iff.mpr
  rw [Lanes.any_eq_true]
  constructor
  · rintro ⟨lane, live⟩
    rcases (uniform instruction decoded).2 looks with all | none
    · exact all chosen within
    · rw [none lane (serves.lt_of_live live)] at live
      cases live
  · intro live
    exact ⟨chosen, live⟩

/-- The next instruction of two machines at the same place. -/
theorem Mirrors.upcoming_eq {image : Lane → Option Lane} {clean : Nat → Prop}
    (mirrors : left.Mirrors image clean right) : right.upcoming = left.upcoming := by
  unfold upcoming
  rw [mirrors.current]

/-- The machine of a chunk and that of one of its elements, after as many steps. -/
structure InStep (program : Program) (function : Function) (lanes : Nat) (chosen : Lane)
    (left right : Machine) : Prop where
  serves : left.Serves program function lanes
  own : right.Serves program function 1
  mirrors : left.Mirrors chosen.only spotless right

theorem InStep.outcome_follows
    (inStep : InStep batch.program function lanes chosen left right)
    (uniform : left.UniformControl lanes) (within : chosen.val < lanes) :
    Follows chosen.only (Flow.Mirrors chosen.only spotless) (left.outcome batch)
      (right.outcome batch) := by
  have solo := inStep.own.solo
  refine Machine.outcome_follows inStep.serves.sound inStep.mirrors
    (inStep.mirrors.covers solo) ?_ ?_
  · intro instruction decoded
    exact (uniform instruction decoded).1
  · intro instruction decoded looks
    rw [solo.any_eq, inStep.mirrors.live_only,
      uniform.any_eq inStep.serves decoded looks within]

/-- Machines in step that mirror each other after one step more are in step again. -/
theorem InStep.next {following ownFollowing : Machine}
    (inStep : InStep batch.program function lanes chosen left right)
    (same : ownBatch.silent = batch.silent) (steps : Steps batch left following)
    (ownSteps : Steps ownBatch right ownFollowing)
    (mirrors : following.Mirrors chosen.only spotless ownFollowing) :
    InStep batch.program function lanes chosen following ownFollowing := by
  have program : ownBatch.silent.program = batch.silent.program := by
    rw [same]
  change ownBatch.program = batch.program at program
  have moves : Reaches batch left following := Relation.ReflTransGen.single steps
  have ownMoves : Reaches ownBatch right ownFollowing :=
    Relation.ReflTransGen.single ownSteps
  have own := ownMoves.serves (program ▸ inStep.own)
  rw [program] at own
  exact ⟨moves.serves inStep.serves, own, mirrors⟩

/--
What the run of an element gives under any host, as far as it can be told from
the run of its chunk: the same, unless the chunk has failed because of another
element.
-/
def Accompanies (chosen : Lane) : BatchResult → (σ → BatchResult × σ) → Prop
  | none, reply => ∀ host, reply host = (none, host)
  | some (.ok (final, returned)), reply => ∃ last answers,
      (∀ host, reply host = (some (.ok (last, answers)), host)) ∧
        final.Mirrors chosen.only spotless last ∧
        MirroredRun chosen.only returned answers
  | some (.error failure), reply =>
      match failure.lane? with
      | none => ∀ host, reply host = (some (.error failure), host)
      | some lane => lane = chosen →
          ∀ host, reply host = (some (.error (failure.inLane 0)), host)

/-- Runs with the same budget stay in step. -/
theorem InStep.runAt_accompanies
    (inStep : InStep batch.program function lanes chosen left right)
    (same : ownBatch.silent = batch.silent)
    (uniform : ∀ machine, Reaches batch left machine → machine.UniformControl lanes)
    (within : chosen.val < lanes) (budget : Nat) (host : σ) :
    Accompanies chosen (left.runAt batch budget host).1
      fun state => right.runAt ownBatch budget state := by
  induction budget generalizing left right with
  | zero =>
      exact fun _ => rfl
  | succ budget induction =>
      have here := uniform left Relation.ReflTransGen.refl
      have follows := inStep.outcome_follows here within
      have quiet : left.Quiet := fun instruction decoded => (here instruction decoded).1
      have ownQuiet : right.Quiet := by
        intro instruction decoded
        rw [inStep.mirrors.upcoming_eq] at decoded
        exact quiet instruction decoded
      have stepped : left.stepAt batch host = (left.outcome batch, host) :=
        stepAt_quiet quiet host
      have ownStepped : ∀ state,
          right.stepAt ownBatch state = (right.outcome batch, state) := by
        intro state
        rw [stepAt_quiet ownQuiet, outcome_eq same]
      simp only [runAt_succ, stepped, ownStepped]
      cases outcome : left.outcome batch with
      | error failure =>
          rw [outcome] at follows
          simp only [Accompanies]
          cases concerned : failure.lane? with
          | none =>
              rw [follows.of_error rfl concerned]
              exact fun _ => rfl
          | some lane =>
              rintro rfl
              rw [follows.of_lane_error rfl concerned
                (Lane.only_eq_some.mpr ⟨rfl, rfl⟩)]
              exact fun _ => rfl
      | ok flow =>
          rw [outcome] at follows stepped
          obtain ⟨answer, ownOutcome, related⟩ := follows.of_ok rfl
          rw [ownOutcome] at ownStepped ⊢
          cases flow with
          | next following =>
              cases answer with
              | next ownFollowing =>
                  have steps : Steps batch left following := ⟨host, host, stepped⟩
                  refine induction (inStep.next same steps ⟨host, host, ownStepped host⟩
                    related) ?_
                  intro machine reached
                  exact uniform machine (Relation.ReflTransGen.head steps reached)
              | done last answers =>
                  exact related.elim
          | done final returned =>
              cases answer with
              | next ownFollowing =>
                  exact related.elim
              | done last answers =>
                  exact ⟨last, answers, fun _ => rfl, related.1, related.2⟩

/-- A run that never asks the host goes as it goes without one, whatever the elements. -/
theorem runAt_silent (same : ownBatch.silent = batch.silent)
    (quiet : ∀ machine, Reaches batch left machine → machine.Quiet) (budget : Nat)
    (host : σ) :
    left.runAt ownBatch budget host = ((left.runAt batch.silent budget ()).1, host) := by
  induction budget generalizing left with
  | zero =>
      rfl
  | succ budget induction =>
      have here := quiet left Relation.ReflTransGen.refl
      have stepped : left.stepAt batch host = (left.outcome batch, host) :=
        stepAt_quiet here host
      have alone : left.stepAt batch.silent () = (left.outcome batch, ()) :=
        stepAt_quiet here ()
      rw [runAt_succ, runAt_succ, stepAt_quiet here, outcome_eq same, alone]
      cases outcome : left.outcome batch with
      | error failure =>
          rfl
      | ok flow =>
          cases flow with
          | done final returned =>
              rfl
          | next following =>
              rw [outcome] at stepped
              exact induction fun machine reached =>
                quiet machine (Relation.ReflTransGen.head ⟨host, host, stepped⟩ reached)

theorem decided_of_quiet (quiet : ∀ machine, Reaches batch left machine → machine.Quiet) :
    left.Decided batch := by
  intro budget host result later ended
  have ran := @runAt_silent σ batch batch left rfl quiet budget
  have same : (left.runAt batch.silent budget ()).1 = some result := by
    rw [ran host] at ended
    exact congrArg Prod.fst ended
  exact ⟨budget, fun state => by rw [ran state, same]⟩

/-- A lane whose failure ends a run holds an element. -/
theorem Serves.lt_of_failed {budget : Nat} {host later : σ} {failure : Failure}
    {lane : Lane} (serves : left.Serves batch.program function lanes)
    (ended : left.runAt batch budget host = (some (.error failure), later))
    (concerned : failure.lane? = some lane) : lane.val < lanes := by
  obtain ⟨last, state, reached, concluded⟩ := runAt_ended ended
  have serving := reached.serves serves
  have stepped := stepAt_yields serving.sound state
  generalize (last.stepAt batch state).1 = outcome at concluded stepped
  rcases outcome with other | following | ⟨final, returned⟩
  · cases concluded
    rcases stepped with ⟨_, reported⟩ | ⟨decoded, refused⟩
    · rcases reported with rfl | ⟨_, shared⟩
      · cases concerned
      · rw [shared] at concerned
        cases concerned
    · rcases refused.of_admitted (Instruction.decode_eq_ok decoded).2 with
        ⟨_, live⟩ | ⟨_, shared, _⟩
      · exact serving.lt_of_live (live lane concerned)
      · rw [shared] at concerned
        cases concerned
  · exact concluded.elim
  · cases concluded

/-- Machines that start in step end together. -/
theorem agreement_of_uniform {own : Lane → Machine} (nonempty : 0 < lanes)
    (inStep : ∀ lane : Lane, lane.val < lanes →
      InStep batch.program function lanes lane left (own lane))
    (same : ownBatch.silent = batch.silent)
    (uniform : ∀ machine, Reaches batch left machine → machine.UniformControl lanes)
    (host : σ) :
    LaneAgreement batch ownBatch function.parameterCount lanes left own := by
  have serves := (inStep 0 nonempty).serves
  have decided : left.Decided batch := decided_of_quiet fun machine reached =>
    fun instruction decoded => (uniform machine reached instruction decoded).1
  have accompanies : ∀ budget result,
      (∀ state, left.runAt batch budget state = (some result, state)) →
        ∀ lane : Lane, lane.val < lanes →
          Accompanies lane (some result)
            fun state => (own lane).runAt ownBatch budget state := by
    intro budget result settled lane within
    have follows :=
      (inStep lane within).runAt_accompanies same uniform within budget host
    rw [settled host] at follows
    exact follows
  constructor
  · exact decided
  · rintro final returned ⟨budget, settled⟩ lane within
    have delivers : Delivers batch.program function lanes final returned :=
      runAt_yields serves (settled host)
    obtain ⟨last, answers, ended, mirrors, run⟩ := accompanies budget _ settled lane within
    exact ⟨last, answers, ⟨budget, ended⟩, mirrors.delivered run delivers⟩
  · rintro failure ⟨budget, settled⟩
    cases concerned : failure.lane? with
    | none =>
        have follows := accompanies budget _ settled 0 nonempty
        simp only [Accompanies, concerned] at follows
        exact ⟨0, nonempty, failure, ⟨budget, follows⟩, rfl⟩
    | some lane =>
        have within := serves.lt_of_failed (settled host) concerned
        have follows := accompanies budget _ settled lane within
        simp only [Accompanies, concerned, forall_const] at follows
        exact ⟨lane, within, failure.inLane 0, ⟨budget, follows⟩, failure.kind_inLane 0⟩
  · intro all
    obtain ⟨budget, state, result, later, ended⟩ := all 0 nonempty
    have follows :=
      (inStep 0 nonempty).runAt_accompanies same uniform nonempty budget host
    cases reached : left.runAt batch budget host with
    | mk outcome afterwards =>
        cases outcome with
        | none =>
            rw [reached] at follows
            have endless : (own 0).runAt ownBatch budget state = (none, state) :=
              follows state
            rw [ended] at endless
            cases endless
        | some finished =>
            exact ⟨finished, decided budget host finished afterwards reached⟩

end Machine

/-! ## Programs without masks -/

/-- Whether an instruction neither asks the host nor acts on the predicates. -/
def Instruction.straight (instruction : Instruction) : Bool :=
  !instruction.asksHost && (instruction.action? .none).isNone

theorem Instruction.isNone_action? (instruction : Instruction) (first second : Mask) :
    (instruction.action? first).isNone = (instruction.action? second).isNone := by
  cases instruction <;> rfl

theorem Instruction.straight_iff {instruction : Instruction} :
    instruction.straight = true ↔
      instruction.asksHost = false ∧ ∀ condition, instruction.action? condition = none := by
  simp only [straight, Bool.and_eq_true, Bool.not_eq_true', ← Option.isNone_iff_eq_none]
  constructor
  · rintro ⟨quiet, plain⟩
    exact ⟨quiet, fun condition => (instruction.isNone_action? condition _).trans plain⟩
  · rintro ⟨quiet, plain⟩
    exact ⟨quiet, plain _⟩

/-- All instructions of a program are straight. -/
def Program.Straight (program : Program) : Prop :=
  ∀ function ∈ program.functions,
    ∀ placed ∈ (Listing.ofCode function.code).instructions,
      placed.instruction.straight = true

instance (program : Program) : Decidable program.Straight :=
  inferInstanceAs (Decidable (∀ _ ∈ _, ∀ _ ∈ _, _))

namespace Machine

variable {batch : Batch σ} {start machine : Machine} {externals : Nat}

/-- Straight code leaves the predicates as they were. -/
theorem Reaches.predicates_eq (reached : Reaches batch start machine)
    (verified : batch.program.Verified externals) (straight : batch.program.Straight)
    (sound : start.Sound batch.program) (aligned : start.Aligned) :
    machine.predicates = start.predicates := by
  have kept : machine.Sound batch.program ∧ machine.Aligned ∧
      machine.predicates = start.predicates := by
    apply reached.invariant ⟨sound, aligned, rfl⟩
    rintro before after ⟨soundBefore, alignedBefore, same⟩ steps
    obtain ⟨instruction, advances⟩ := steps.advances soundBefore
    refine ⟨advances.sound soundBefore,
      advances.aligned verified soundBefore alignedBefore, ?_⟩
    have listed := alignedBefore.listed advances.decoded
    have plain := (Instruction.straight_iff.mp
      (straight _ soundBefore.running.known _ listed)).2
    rw [← same]
    rcases advances with ⟨_, effect⟩
    cases effect with
    | operated operated =>
        have result := operated.predicates
        rw [predicated, plain] at result
        exact (Except.ok.inj result).symm
    | jumped leads inside =>
        rfl
    | called calls =>
        rfl
    | returned hands =>
        cases hands with
        | resumed returns waiting reserved =>
            rfl
  exact kept.2.2

end Machine

/-! ## Calls -/

namespace Linked

/-- Control is uniform throughout the run of a chunk. -/
def UniformChunk (linked : Linked σ) (invocation : Invocation)
    (arguments : List Column) (offset lanes : Nat) : Prop :=
  ∀ function start machine,
    linked.program.functions[invocation.handle]? = some function →
      Machine.boot linked.program function lanes invocation.inputs
          (chunkRegisters arguments offset lanes) = .ok start →
        Machine.Reaches (linked.batch invocation offset) start machine →
          machine.UniformControl lanes

variable {linked : Linked σ} {invocation : Invocation} {count : Nat}
variable {arguments returns : List Column} {function : Function}
variable {globals : RegisterFile globalCapacity} {host : σ}

/-- A chunk with uniform control agrees with its elements. -/
theorem Accepted.agreesAt_of_uniform {offset : Nat}
    (accepted : linked.Accepted invocation function globals count arguments returns)
    (within : offset < count)
    (uniform : linked.UniformChunk invocation arguments offset
      (min (count - offset) laneCount)) (host : σ) :
    linked.AgreesAt invocation function globals arguments offset
      (min (count - offset) laneCount) := by
  have positive : 0 < laneCount := by decide
  have known := (Program.prepare_eq_ok.mp accepted.prepared).1
  have counted := accepted.spacious.argumentCount
  have seeding := linked.program.seed_yields (invocation.inputs.getD [])
  have booted : Machine.boot linked.program function (min (count - offset) laneCount)
      invocation.inputs
        (chunkRegisters arguments offset (min (count - offset) laneCount)) =
          .ok (Machine.chunked function globals arguments offset
            (min (count - offset) laneCount)) := by
    rw [Machine.boot_eq accepted.frame
      (by rw [chunkRegisters, List.length_map]; exact counted), accepted.seeded]
    rfl
  refine Machine.agreement_of_uniform (by omega) ?_ rfl ?_ host
  · intro lane inChunk
    exact ⟨Machine.serves_booted accepted.known accepted.frame globals,
      Machine.serves_booted accepted.known accepted.frame globals,
      Machine.mirrors_start accepted.frame (seeding.of_ok accepted.seeded) counted offset
        inChunk⟩
  · intro machine reached
    exact uniform function _ machine known booted reached

/-- Straight code has uniform control: its elements stay live throughout. -/
theorem uniformChunk_of_straight {externals offset lanes : Nat}
    (verified : linked.program.Verified externals) (straight : linked.program.Straight)
    (counted : ∀ function,
      linked.program.functions[invocation.handle]? = some function →
        arguments.length = function.parameterCount) :
    linked.UniformChunk invocation arguments offset lanes := by
  intro function start machine known booted reached
  have member := List.mem_of_getElem? known
  rw [Machine.boot_eq (verified.frames function member).frame
    (by rw [chunkRegisters, List.length_map]; exact counted function known)] at booted
  cases seeded : linked.program.seed (invocation.inputs.getD []) with
  | error failure =>
      rw [seeded] at booted
      cases booted
  | ok globals =>
      rw [seeded] at booted
      cases booted
      have sound := @Machine.sound_booted linked.program function lanes
        (chunkRegisters arguments offset lanes) member
        (verified.frames function member).frame globals
      have aligned : (Machine.booted function lanes globals
          (chunkRegisters arguments offset lanes)).Aligned := by
        intro activation only
        rcases List.mem_singleton.mp only with rfl
        exact Machine.aligned_start (verified.codes function member).whole _ _ _ _
      have predicates := reached.predicates_eq verified straight sound aligned
      intro instruction decoded
      have listed := (reached.aligned verified sound aligned).listed decoded
      have plain := straight _ (reached.sound sound).running.known _ listed
      refine ⟨(Instruction.straight_iff.mp plain).1, fun _ => Or.inl ?_⟩
      intro lane within
      change machine.predicates.live.get lane = true
      rw [predicates]
      change ((Lanes.first lanes).both Lanes.all).get lane = true
      simp [within]

/--
Calls with uniform control are lane independent, whatever the program.  A
chunk is run once the elements before it have completed; control has to be
uniform in those chunks only.
-/
theorem uniform_control_is_lane_independent (linked : Linked σ) (invocation : Invocation)
    (count : Nat) (arguments returns : List Column) (host : σ)
    (buffers : Nat → List Word) (hosts : Nat → σ) (positive : 0 < count)
    (shaped : linked.Matches invocation count arguments returns buffers)
    (uniform : ∀ offset, laneCount ∣ offset → offset < count →
      linked.Completes invocation offset arguments returns host →
        linked.UniformChunk invocation arguments offset
          (min (count - offset) laneCount)) :
    linked.LaneIndependent invocation count arguments returns host buffers hosts := by
  apply laneIndependent_of_agreement positive shaped
  intro function globals accepted offset aligned within completed
  exact accepted.agreesAt_of_uniform within (uniform offset aligned within completed) host

/-- Nine elements, in two chunks, of a function that branches and calls. -/
theorem uniform_control_is_lane_independent_relay :
    LaneIndependent (⟨{ functions := [echo, relay] }, []⟩ : Linked Unit) ⟨1, [], none⟩ 9
      [[1, 2, 3, 4, 5, 6, 7, 8, 9]] [[0, 0, 0, 0, 0, 0, 0, 0, 0]] () (fun _ => [0])
      fun _ => () := by
  have verified : Program.Verified { functions := [echo, relay] } 0 :=
    Program.verify_eq_ok.mp rfl
  have straight : Program.Straight { functions := [echo, relay] } := by
    decide
  refine uniform_control_is_lane_independent _ _ _ _ _ _ _ _ (by decide) ?_ ?_
  · constructor
    · decide
    · decide
    · rintro function ⟨⟩
      exact ⟨rfl, Or.inr rfl, fun _ => rfl⟩
  · intro offset _ _ _
    refine uniformChunk_of_straight verified straight ?_
    rintro function ⟨⟩
    rfl

end Linked

end Lockstep
