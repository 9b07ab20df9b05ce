import Lockstep.Proofs.BlockSteps
import Lockstep.Proofs.LoopTracking
import Lockstep.Proofs.UniformControl
import Mathlib.Data.Fintype.Lattice

/-!
# Structured control

The lanes of a chunk may go separate ways through structured code: take
different sides of a conditional, leave a loop after different numbers of
rounds, or skip a call that others make.  The machine of the chunk still does
for each element what the machine of that element does alone.

The machines are compared through `Plan.serve`, within a bound.  A bound that is
exhausted says that a run is at least that long.  So if the run of a chunk
exceeds every bound, then at every bound the run of some element does, and one
that is longer than all runs of the elements is the contradiction that makes
the chunk end with them.

`Linked.structured_code_is_lane_independent` draws the conclusion for whole
calls.
-/

namespace Lockstep

variable {σ : Type}

namespace Machine

variable {batch other : Batch σ} {inside : Machine → Prop} {count : Nat}
variable {before after last : Machine}

/-! ## Runs without the host -/

theorem Path.congr (path : Path batch inside count before after)
    (same : other.silent = batch.silent) : Path other inside count before after := by
  induction path with
  | refl machine =>
      exact .refl machine
  | head here moves rest induction =>
      refine .head here ⟨moves.quiet, ?_⟩ induction
      rw [outcome_eq same, moves.outcome]

/-- A path to a machine whose step ends the run. -/
theorem Path.settles {result : Except Failure (Machine × List Register)}
    (path : Path batch inside count before last) (same : other.silent = batch.silent)
    (quiet : last.Quiet) (concluded : concludes (last.outcome batch) result) :
    before.Settles other result := by
  refine ⟨count + 1, fun host => ?_⟩
  rw [(path.congr same).runAt_eq, runAt_succ, stepAt_quiet quiet, outcome_eq same]
  generalize last.outcome batch = outcome at concluded
  rcases outcome with failure | following | ⟨final, returned⟩
  · cases concluded
    rfl
  · exact concluded.elim
  · cases concluded
    rfl

end Machine

/-! ## The outermost function -/

namespace Plan

open Machine

variable {plan : Plan} {batch other : Batch σ} {bound : Nat} {machine done : Machine}

/-- The return of the outermost function ends the run. -/
theorem Describes.settles_of_performed (describes : plan.Describes batch.program)
    (same : other.silent = batch.silent) (sound : machine.Sound batch.program)
    (start : machine.current.offset = 0)
    (ran : plan.perform batch bound machine = .ok done)
    {result : Except Failure (Machine × List Register)}
    (concluded : concludes ((done.advanced (.ret (plan machine.current.function).2)).carry
      batch (.ret (plan machine.current.function).2)) result) :
    machine.Settles other result := by
  have realizes := describes.perform_realizes (describes.serve_realized bound) sound start
  rw [ran] at realizes
  obtain ⟨count, path⟩ := realizes
  have upcoming := describes.upcoming_ret sound start ran
  refine path.settles same (quiet_of_decoded upcoming rfl) ?_
  rw [outcome_of_decoded upcoming]
  exact concluded

theorem Describes.settles_of_failed (describes : plan.Describes batch.program)
    (same : other.silent = batch.silent) (sound : machine.Sound batch.program)
    (start : machine.current.offset = 0) {failure : Failure}
    (ran : plan.serve batch (bound + 1) machine = .error (.failed failure)) :
    machine.Settles other (.error failure) := by
  change (plan.perform batch bound machine >>= _) = _ at ran
  cases performed : plan.perform batch bound machine with
  | ok done =>
      rw [performed] at ran
      obtain ⟨refusal, carried, same⟩ := act_eq_error.mp ran
      cases same
      refine describes.settles_of_performed ‹_› sound start performed ?_
      rw [carried]
      rfl
  | error stop =>
      rw [performed] at ran
      cases ran
      have realizes := describes.perform_realizes (describes.serve_realized bound) sound
        start
      rw [performed] at realizes
      obtain ⟨count, last, path, _, quiet, failed⟩ := realizes
      refine path.settles same quiet ?_
      rw [failed]
      rfl

/-- An exhausted bound is one that the run exceeds. -/
theorem Describes.runAt_of_exhausted (describes : plan.Describes batch.program)
    (same : other.silent = batch.silent) (sound : machine.Sound batch.program)
    (start : machine.current.offset = 0)
    (ran : plan.serve batch (bound + 1) machine = .error .exhausted) {budget : Nat}
    (short : budget ≤ bound) (host : σ) : (machine.runAt other budget host).1 = none := by
  change (plan.perform batch bound machine >>= _) = _ at ran
  cases performed : plan.perform batch bound machine with
  | ok done =>
      rw [performed] at ran
      obtain ⟨refusal, carried, different⟩ := act_eq_error.mp ran
      cases different
  | error stop =>
      rw [performed] at ran
      cases ran
      have realizes := describes.perform_realizes (describes.serve_realized bound) sound
        start
      rw [performed] at realizes
      obtain ⟨count, last, enough, path⟩ := realizes
      exact (path.congr same).runAt_short (by omega) host

/-- The outermost function, if it comes to its end, hands over its results. -/
theorem Describes.settles_of_served (describes : plan.Describes batch.program)
    (same : other.silent = batch.silent) (sound : machine.Sound batch.program)
    (start : machine.current.offset = 0) (outermost : machine.callers = [])
    {final : Machine} (ran : plan.serve batch (bound + 1) machine = .ok final) :
    ∃ done returned, plan.perform batch bound machine = .ok done ∧
      (done.advanced (.ret (plan machine.current.function).2)).carry batch
        (.ret (plan machine.current.function).2) = .ok (.done final returned) ∧
      machine.Settles other (.ok (final, returned)) := by
  obtain ⟨done, performed, acted⟩ := bind_eq_ok.mp ran
  obtain ⟨flow, carried, rfl⟩ := act_eq_ok.mp acted
  obtain ⟨body, room⟩ := describes.performed sound start performed
  have moved : (done.advanced (.ret (plan machine.current.function).2)).Sound
      batch.program := body.sound.jumped room
  cases (@ret_yields σ _ batch moved.fits _).of_ok carried with
  | resumed returns nested reserved =>
      have waiting : machine.callers = _ := body.callers.symm.trans nested
      rw [outermost] at waiting
      cases waiting
  | finished returns _ =>
      refine ⟨done, _, performed, carried,
        describes.settles_of_performed same sound start performed ?_⟩
      rw [carried]
      rfl

/-- Within every bound, a run settles or exhausts the bound. -/
theorem Describes.settles_or_exhausted (describes : plan.Describes batch.program)
    (same : other.silent = batch.silent) (sound : machine.Sound batch.program)
    (start : machine.current.offset = 0) (outermost : machine.callers = [])
    (bound : Nat) :
    (∃ result, machine.Settles other result) ∨
      plan.serve batch (bound + 1) machine = .error .exhausted := by
  cases ran : plan.serve batch (bound + 1) machine with
  | ok final =>
      obtain ⟨done, returned, _, _, settles⟩ :=
        describes.settles_of_served same sound start outermost ran
      exact Or.inl ⟨_, settles⟩
  | error stop =>
      cases stop with
      | exhausted =>
          exact Or.inr rfl
      | failed failure =>
          exact Or.inl ⟨_, describes.settles_of_failed same sound start ran⟩

/-- A run that has ended has not exhausted a bound that is as large. -/
theorem Describes.serve_ne_exhausted (describes : plan.Describes batch.program)
    (same : other.silent = batch.silent) (sound : machine.Sound batch.program)
    (start : machine.current.offset = 0) {budget : Nat} {host later : σ}
    {result : Except Failure (Machine × List Register)}
    (ended : machine.runAt other budget host = (some result, later))
    (enough : budget ≤ bound) :
    plan.serve batch (bound + 1) machine ≠ .error .exhausted := by
  intro exhausted
  have endless := describes.runAt_of_exhausted same sound start exhausted enough host
  rw [ended] at endless
  cases endless

theorem Describes.served_of_settles (describes : plan.Describes batch.program)
    (sound : machine.Sound batch.program) (start : machine.current.offset = 0)
    (outermost : machine.callers = []) {final : Machine} {returned : List Register}
    (settles : machine.Settles batch (.ok (final, returned))) (host : σ) :
    ∃ bound done, plan.perform batch bound machine = .ok done ∧
      (done.advanced (.ret (plan machine.current.function).2)).carry batch
        (.ret (plan machine.current.function).2) = .ok (.done final returned) := by
  obtain ⟨budget, settled⟩ := settles
  cases ran : plan.serve batch (budget + 1) machine with
  | ok last =>
      obtain ⟨done, given, performed, carried, finished⟩ :=
        describes.settles_of_served rfl sound start outermost ran
      cases finished.unique ⟨budget, settled⟩ host
      exact ⟨budget, done, performed, carried⟩
  | error stop =>
      cases stop with
      | exhausted =>
          exact absurd ran (describes.serve_ne_exhausted rfl sound start (settled host)
            (Nat.le_refl budget))
      | failed failure =>
          cases (describes.settles_of_failed rfl sound start ran).unique
            ⟨budget, settled⟩ host

theorem Describes.failed_of_settles (describes : plan.Describes batch.program)
    (sound : machine.Sound batch.program) (start : machine.current.offset = 0)
    (outermost : machine.callers = []) {failure : Failure}
    (settles : machine.Settles batch (.error failure)) (host : σ) :
    ∃ bound, plan.serve batch (bound + 1) machine = .error (.failed failure) := by
  obtain ⟨budget, settled⟩ := settles
  cases ran : plan.serve batch (budget + 1) machine with
  | ok last =>
      obtain ⟨_, _, _, _, finished⟩ :=
        describes.settles_of_served rfl sound start outermost ran
      cases finished.unique ⟨budget, settled⟩ host
  | error stop =>
      cases stop with
      | exhausted =>
          exact absurd ran (describes.serve_ne_exhausted rfl sound start (settled host)
            (Nat.le_refl budget))
      | failed other =>
          cases (describes.settles_of_failed rfl sound start ran).unique
            ⟨budget, settled⟩ host
          exact ⟨budget, ran⟩

end Plan

/-! ## Chunks and their elements -/

namespace Machine

variable {plan : Plan} {batch ownBatch : Batch σ} {function : Function} {lanes : Nat}

/-- The machine of a chunk and those of its elements, before their first step. -/
structure Together (program : Program) (function : Function) (lanes : Nat)
    (chunk : Machine) (own : Lane → Machine) : Prop where
  serves : chunk.Serves program function lanes
  start : chunk.current.offset = 0
  outermost : chunk.callers = []
  live : ∀ lane : Lane, lane.val < lanes → chunk.live.get lane = true
  twins : ∀ lane : Lane, lane.val < lanes →
    Twins program spotless (some lane) chunk (own lane)

variable {chunk : Machine} {own : Lane → Machine}

namespace Together

variable (together : Together batch.program function lanes chunk own)
include together

theorem ownStart {lane : Lane} (within : lane.val < lanes) :
    (own lane).current.offset = 0 ∧ (own lane).callers = [] := by
  have mirrors := (together.twins lane within).mirrors
  rw [mirrors.current, mirrors.callers]
  exact ⟨together.start, together.outermost⟩

theorem heeds {lane : Lane} (within : lane.val < lanes) : Heeds chunk.live (some lane) :=
  heeds_some (together.live lane within)

/-- A chunk that stops does so as one of its elements does. -/
theorem stops (describes : plan.Describes batch.program) (nonempty : 0 < lanes)
    {bound : Nat} {stop : Stop} (ran : plan.serve batch (bound + 1) chunk = .error stop) :
    ∃ lane : Lane, lane.val < lanes ∧ ∃ refusal,
      plan.serve batch (bound + 1) (own lane) = .error refusal ∧ refusal.Alike stop := by
  have tracks := describes.serve_mirrors (describes.serve_tracked bound)
    together.serves.sound together.start
    (show ∀ _, chunk.Tidy chunk.current.floor spotless from fun _ _ _ => trivial)
  obtain ⟨who, ⟨heeds, silent⟩, stops⟩ := tracks.fails stop ran
  cases who with
  | none =>
      have idle := silent rfl
      rw [(Lanes.any_eq_true _).mpr ⟨0, together.live 0 nonempty⟩] at idle
      cases idle
  | some lane =>
      have within := together.serves.lt_of_live (heeds lane rfl)
      exact ⟨lane, within, stops (own lane) (together.twins lane within)⟩

/-- A chunk that fails does so as one of its elements does. -/
theorem fails (describes : plan.Describes batch.program)
    (same : ownBatch.silent = batch.silent) (nonempty : 0 < lanes) {failure : Failure}
    (settles : chunk.Settles batch (.error failure)) (host : σ) :
    ∃ lane : Lane, lane.val < lanes ∧ ∃ refusal,
      (own lane).Settles ownBatch (.error refusal) ∧
      refusal.report.kind = failure.report.kind := by
  obtain ⟨bound, ran⟩ := describes.failed_of_settles together.serves.sound together.start
    together.outermost settles host
  obtain ⟨lane, within, refusal, ownRan, alike⟩ := together.stops describes nonempty ran
  cases refusal with
  | exhausted =>
      exact alike.elim
  | failed ownFailure =>
      exact ⟨lane, within, ownFailure, describes.settles_of_failed same
        (together.twins lane within).solo.sound (together.ownStart within).1 ownRan, alike⟩

/-- A chunk that comes to its end does so as its elements do. -/
theorem finishes (describes : plan.Describes batch.program)
    (same : ownBatch.silent = batch.silent) {final : Machine} {returned : List Register}
    (settles : chunk.Settles batch (.ok (final, returned))) (host : σ) {lane : Lane}
    (within : lane.val < lanes) :
    ∃ last answers, (own lane).Settles ownBatch (.ok (last, answers)) ∧
      final.Mirrors lane.only spotless last ∧ MirroredRun lane.only returned answers := by
  have twins := together.twins lane within
  have sound := together.serves.sound
  have tidy : chunk.Tidy chunk.current.floor spotless := fun _ _ => trivial
  obtain ⟨bound, done, performed, carried⟩ :=
    describes.served_of_settles sound together.start together.outermost settles host
  obtain ⟨ownDone, ownPerformed, doneTwins⟩ :=
    (describes.perform_tracked (describes.serve_tracked bound) sound together.start
      fun _ => tidy).succeeds done performed _ (together.heeds within) _ twins
  obtain ⟨answer, ownCarried, mirrored⟩ :=
    (describes.ret_follows sound together.start tidy performed doneTwins _).of_ok carried
  cases answer with
  | next following =>
      exact mirrored.elim
  | done last answers =>
      refine ⟨last, answers, ?_, mirrored.1, mirrored.2⟩
      refine describes.settles_of_performed same twins.solo.sound
        (together.ownStart within).1 ownPerformed ?_
      rw [twins.mirrors.current, ownCarried]
      rfl

/-- If the runs of all elements end, then so does the run of their chunk. -/
theorem settles (describes : plan.Describes batch.program)
    (same : ownBatch.silent = batch.silent) (nonempty : 0 < lanes) (host : σ)
    (all : ∀ lane : Lane, lane.val < lanes → ∃ budget host result later,
      (own lane).runAt ownBatch budget host = (some result, later)) :
    ∃ result, chunk.Settles batch result := by
  have inhabited : Nonempty σ := ⟨host⟩
  choose! budgets states results laters ended using all
  -- Within a bound that exceeds the runs of all elements, no element is exhausted.
  rcases describes.settles_or_exhausted rfl together.serves.sound together.start
    together.outermost (Finset.univ.sup budgets) with settles | exhausted
  · exact settles
  · obtain ⟨lane, within, refusal, ownRan, alike⟩ :=
      together.stops describes nonempty exhausted
    cases refusal with
    | failed failure =>
        exact alike.elim
    | exhausted =>
        exact absurd ownRan (describes.serve_ne_exhausted same
          (together.twins lane within).solo.sound (together.ownStart within).1
          (ended lane within) (Finset.le_sup (Finset.mem_univ lane)))

theorem agreement (describes : plan.Describes batch.program)
    (same : ownBatch.silent = batch.silent) (nonempty : 0 < lanes) (host : σ) :
    LaneAgreement batch ownBatch function.parameterCount lanes chunk own where
  decided := by
    intro budget state result later ended
    rcases describes.settles_or_exhausted rfl together.serves.sound together.start
      together.outermost budget with ⟨settled, settles⟩ | exhausted
    · rw [(settles.of_ended ended).1]
      exact settles
    · exact absurd exhausted (describes.serve_ne_exhausted rfl together.serves.sound
        together.start ended (Nat.le_refl budget))
  finishes := by
    intro final returned settles lane within
    obtain ⟨budget, settled⟩ := settles
    have delivers : Delivers batch.program function lanes final returned :=
      runAt_yields together.serves (settled host)
    obtain ⟨last, answers, ownSettles, mirrors, run⟩ :=
      together.finishes describes same ⟨budget, settled⟩ host within
    exact ⟨last, answers, ownSettles, mirrors.delivered run delivers⟩
  fails := fun _ settles => together.fails describes same nonempty settles host
  settles := together.settles describes same nonempty host

end Together

end Machine

/-! ## Calls -/

theorem Program.Structured.exists_plan {program : Program}
    (structured : program.Structured) : ∃ plan : Plan, plan.Describes program := by
  have inhabited : Nonempty Block := ⟨.skip⟩
  choose! body count describes using structured
  exact ⟨fun function => (body function, count function), describes⟩

namespace Linked

variable {linked : Linked σ} {invocation : Invocation} {count : Nat}
variable {arguments returns : List Column} {function : Function}
variable {globals : RegisterFile globalCapacity}

/-- A chunk of structured code agrees with its elements. -/
theorem Accepted.agreesAt_of_structured {offset : Nat}
    (accepted : linked.Accepted invocation function globals count arguments returns)
    (within : offset < count) (structured : linked.program.Structured) (host : σ) :
    linked.AgreesAt invocation function globals arguments offset
      (min (count - offset) laneCount) := by
  have positive : 0 < laneCount := by decide
  have seeding := linked.program.seed_yields (invocation.inputs.getD [])
  have serves := fun lanes arguments => @Machine.serves_booted linked.program function lanes
    arguments accepted.known accepted.frame globals
  obtain ⟨plan, describes⟩ := structured.exists_plan
  have together : Machine.Together linked.program function (min (count - offset) laneCount)
      (Machine.chunked function globals arguments offset (min (count - offset) laneCount))
      fun lane => Machine.single function globals (row arguments (offset + lane.val)) := by
    refine ⟨serves _ _, rfl, rfl, ?_, ?_⟩
    · intro lane inChunk
      change ((Lanes.first _).both Lanes.all).get lane = true
      simp [inChunk]
    · intro lane inChunk
      exact ⟨(serves 1 _).solo, Machine.mirrors_start accepted.frame
        (seeding.of_ok accepted.seeded) accepted.spacious.argumentCount offset inChunk,
        by rintro ⟨⟩⟩
  exact @Machine.Together.agreement σ plan (linked.batch invocation offset) _ _ _ _ _
    together describes rfl (by omega) host

/--
Calls of structured programs are lane independent, however the lanes part in
their conditionals, loops and calls.
-/
theorem structured_code_is_lane_independent (linked : Linked σ) (invocation : Invocation)
    (count : Nat) (arguments returns : List Column) (host : σ)
    (buffers : Nat → List Word) (hosts : Nat → σ) (positive : 0 < count)
    (shaped : linked.Matches invocation count arguments returns buffers)
    (structured : linked.program.Structured) :
    linked.LaneIndependent invocation count arguments returns host buffers hosts := by
  apply laneIndependent_of_agreement positive shaped
  intro function globals accepted offset _ within _
  exact accepted.agreesAt_of_structured within structured host

/-- Blocks one after the other. -/
def series (blocks : List Block) : Block :=
  blocks.foldr .seq .skip

/-- Add up the numbers from an argument down to one, or to five if five is passed. -/
def tallying : Block :=
  series
    [.loop (.plain (.load .local 1 0))
      (series
        [.plain (.compute (.reserve 1)), .plain (.load .local 1 0), .call 0,
          .plain (.compute (.pop 1)), .plain (.load .local 1 1),
          .plain (.compute (.binary .addI 1)), .plain (.store .local 1 1),
          .plain (.load .local 1 0), .plain (.compute (.immediate 5)),
          .plain (.compute (.binary (.compare .equalI) 1)), .when .leave])
      (series
        [.plain (.load .local 1 0), .plain (.compute (.immediate 1)),
          .plain (.compute (.binary .subtractI 1)), .plain (.store .local 1 0)]),
      .plain (.load .local 1 1)]

/-- The function of `tallying`, which calls `echo` in each round. -/
def tally : Function where
  name := "tally"
  parameterCount := 1
  localCount := 1
  stackCount := 3
  returnCount := 1
  parameters := [{ slotCount := 1 }]
  code := (tallying.listing 0).flatMap (·.instruction.encode) ++ (Instruction.ret 1).encode

theorem structured_tally : Program.Structured { functions := [echo, tally] } := by
  intro function member
  simp only [List.mem_cons, List.not_mem_nil, or_false] at member
  rcases member with rfl | rfl
  · exact ⟨.plain (.load .local 1 0), 1, by rfl, by decide, by decide⟩
  · exact ⟨tallying, 1, by rfl, by decide, by decide⟩

/-- Nine elements that leave their loops after different numbers of rounds. -/
theorem structured_code_is_lane_independent_tally :
    LaneIndependent (⟨{ functions := [echo, tally] }, []⟩ : Linked Unit) ⟨1, [], none⟩ 9
      [[0, 1, 2, 3, 4, 5, 6, 7, 8]] [[0, 0, 0, 0, 0, 0, 0, 0, 0]] () (fun _ => [0])
      fun _ => () := by
  refine structured_code_is_lane_independent _ _ _ _ _ _ _ _ (by decide) ?_
    structured_tally
  constructor
  · decide
  · decide
  · rintro function ⟨⟩
    exact ⟨rfl, Or.inr rfl, fun _ => rfl⟩

end Linked

end Lockstep
