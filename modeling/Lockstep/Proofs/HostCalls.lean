import Lockstep.Proofs.Chunking
import Lockstep.Proofs.HostRequests

/-!
# Which requests a call makes

The requests of a run are those of its steps, one step after the other, and the
requests of a call are those of its batches, one batch after the other.  Each
batch is a stretch of the call: it starts with a machine and a host and serves
the elements of its chunk.

All requests of a call are answered, except possibly the very last one.  If
that one is refused, the call ends right there and reports it; otherwise the
call does not end because of the host.
-/

namespace Lockstep

variable {σ : Type}

/-! ## Requests that are answered up to the last -/

/--
Requests that were answered, up to the last one if that was refused.  What ends
on a refusal fails by naming it, and nothing else fails because of the host.
-/
inductive Told (externals : List (External σ)) (host : σ) :
    List JournalEntry → Option Failure → σ → Prop
  | answered {made : List JournalEntry} {failure : Option Failure} {later : σ}
      (answers : Answers externals host made later)
      (domestic : ∀ reason ∈ failure, reason.domestic = true) :
      Told externals host made failure later
  | refused {earlier : List JournalEntry} {last : JournalEntry} {middle later : σ}
      {error : HostError} (answers : Answers externals host earlier middle)
      (refuses : last.Meets externals middle (.error error) later) :
      Told externals host (earlier ++ [last])
        (some (.external (.context last.title error))) later

namespace Told

variable {externals : List (External σ)} {host middle later : σ}
variable {first second : List JournalEntry} {failure : Option Failure}

theorem nil (domestic : ∀ reason ∈ failure, reason.domestic = true) :
    Told externals host [] failure host :=
  .answered (.nil host) domestic

theorem append (early : Answers externals host first middle)
    (late : Told externals middle second failure later) :
    Told externals host (first ++ second) failure later := by
  cases late with
  | answered answers domestic =>
      exact .answered (early.append answers) domestic
  | refused answers refuses =>
      rw [← List.append_assoc]
      exact .refused (early.append answers) refuses

/-- A step that fails was refused its last request, or has made none. -/
theorem of_consulted {α : Type} {due : List JournalEntry} {reason : Failure}
    (consulted : Consulted externals due host first
      ((.error reason, later) : Except Failure α × σ)) :
    Told externals host first (some reason) later := by
  cases consulted with
  | exchanged exchange =>
      cases exchange with
      | refused _ answers refuses => exact .refused answers refuses
  | failed domestic =>
      exact .nil (by simpa using domestic)

/-- What does not end in a failure was answered. -/
theorem answers_of_none (told : Told externals host first none later) :
    Answers externals host first later := by
  cases told with
  | answered answers _ => exact answers

end Told

/-! ## Runs -/

/-- The failure that a call ends in. -/
def Ending.failure? : Ending → Option Failure
  | .failed failure => some failure
  | _ => none

/-- The failure that a batch ends in. -/
def batchFailure : BatchResult → Option Failure
  | some (.error failure) => some failure
  | _ => none

namespace Machine

variable {batch : Batch σ} {machine : Machine}

theorem requests_succ (sound : machine.Sound batch.program) (budget : Nat) (host : σ) :
    machine.requests batch (budget + 1) host =
      machine.stepRequests batch host ++
        match machine.stepAt batch host with
        | (.ok (.next after), later) => after.requests batch budget later
        | _ => [] := by
  unfold requests
  rw [runAt_succ, (stepAt_consults sound host).1 []]
  rcases machine.stepAt batch host with ⟨failure | after | ⟨final, returned⟩, later⟩
  · exact (List.append_nil _).symm
  · dsimp only
    rw [runAt_recorded]
    rfl
  · exact (List.append_nil _).symm

/-- The requests of a run are those of its steps, in order. -/
theorem requests_eq (sound : machine.Sound batch.program) (budget : Nat) (host : σ) :
    machine.requests batch budget host =
      (machine.moments batch budget host).flatMap fun moment =>
        moment.1.stepRequests batch moment.2 := by
  induction budget generalizing machine host with
  | zero =>
      rfl
  | succ budget induction =>
      rw [requests_succ sound, moments, List.flatMap_cons]
      congr 1
      cases stepped : machine.stepAt batch host with
      | mk outcome later =>
          rcases outcome with failure | after | ⟨final, returned⟩
          · rfl
          · have steps : Steps batch machine after := ⟨host, later, stepped⟩
            obtain ⟨instruction, advances⟩ := steps.advances sound
            exact induction (advances.sound sound) later
          · rfl

/-- The requests of a run are answered up to the last. -/
theorem runAt_told (sound : machine.Sound batch.program) (budget : Nat) (host : σ) :
    Told batch.externals host (machine.requests batch budget host)
      (batchFailure (machine.runAt batch budget host).1)
      (machine.runAt batch budget host).2 := by
  induction budget generalizing machine host with
  | zero =>
      exact .nil (by simp [batchFailure])
  | succ budget induction =>
      have consulted := (stepAt_consults sound host).2
      rw [requests_succ sound, runAt_succ]
      cases stepped : machine.stepAt batch host with
      | mk outcome later =>
          rw [stepped] at consulted
          rcases outcome with failure | after | ⟨final, returned⟩
          · dsimp only
            rw [List.append_nil]
            exact .of_consulted consulted
          · have steps : Steps batch machine after := ⟨host, later, stepped⟩
            obtain ⟨instruction, advances⟩ := steps.advances sound
            obtain ⟨made, answers⟩ := consulted.of_ok
            rw [made]
            exact .append answers (induction (advances.sound sound) later)
          · obtain ⟨made, answers⟩ := consulted.of_ok
            dsimp only
            rw [List.append_nil, made]
            exact .answered answers (by simp [batchFailure])

end Machine

/-! ## Stretches of a call -/

/-- A batch of a call: the elements that it serves, and how it starts. -/
structure Stretch (σ : Type) where
  /-- The element in the lowest lane. -/
  firstElement : Nat
  /-- The number of elements. -/
  lanes : Nat
  /-- The machine at the start. -/
  start : Machine
  /-- The host at the start. -/
  host : σ

namespace Linked

variable {linked : Linked σ} {budget : Nat} {invocation : Invocation}
variable {function : Function} {host : σ}

/-- The machines that take a step in a stretch, each with the host that it finds. -/
def moments (linked : Linked σ) (budget : Nat) (invocation : Invocation)
    (stretch : Stretch σ) : List (Machine × σ) :=
  stretch.start.moments (linked.batch invocation stretch.firstElement) budget stretch.host

/-- The requests of a stretch. -/
def stretchRequests (linked : Linked σ) (budget : Nat) (invocation : Invocation)
    (stretch : Stretch σ) : List JournalEntry :=
  stretch.start.requests (linked.batch invocation stretch.firstElement) budget stretch.host

/-- The requests of some stretches, one after the other. -/
def journal (linked : Linked σ) (budget : Nat) (invocation : Invocation)
    (stretches : List (Stretch σ)) : List JournalEntry :=
  stretches.flatMap (linked.stretchRequests budget invocation)

theorem journal_append (first second : List (Stretch σ)) :
    linked.journal budget invocation (first ++ second) =
      linked.journal budget invocation first ++ linked.journal budget invocation second :=
  List.flatMap_append

/-- What every stretch of a call is like. -/
structure Orderly (linked : Linked σ) (budget : Nat) (invocation : Invocation)
    (stretch : Stretch σ) : Prop where
  /-- Its requests are those of its steps, in order. -/
  requests : linked.stretchRequests budget invocation stretch =
    (linked.moments budget invocation stretch).flatMap fun moment =>
      moment.1.stepRequests (linked.batch invocation stretch.firstElement) moment.2
  /-- Each step makes the requests that are due, up to a refusal, or fails without any. -/
  steps : ∀ moment ∈ linked.moments budget invocation stretch,
    Consulted linked.externals
      (moment.1.due (linked.batch invocation stretch.firstElement)) moment.2
      (moment.1.stepRequests (linked.batch invocation stretch.firstElement) moment.2)
      (moment.1.stepAt (linked.batch invocation stretch.firstElement) moment.2)
  /-- They are due for the elements in the live lanes, if the instruction asks at all. -/
  lanes : ∀ moment ∈ linked.moments budget invocation stretch,
    ∀ instruction, moment.1.upcoming = .ok instruction →
      (moment.1.due (linked.batch invocation stretch.firstElement)).map
          JournalEntry.element =
        if instruction.asksHost then
          moment.1.live.active.map fun lane => stretch.firstElement + lane.val
        else []
  /-- They are made on behalf of elements of the stretch. -/
  elements : ∀ entry ∈ linked.stretchRequests budget invocation stretch,
    stretch.firstElement ≤ entry.element ∧
      entry.element < stretch.firstElement + stretch.lanes

theorem orderly_of_serves {stretch : Stretch σ}
    (serves : stretch.start.Serves linked.program function stretch.lanes) :
    linked.Orderly budget invocation stretch := by
  have serving : ∀ moment ∈ linked.moments budget invocation stretch,
      moment.1.Serves linked.program function stretch.lanes :=
    fun moment member => (Machine.reaches_of_moment member).serves serves
  have requests := @Machine.requests_eq σ (linked.batch invocation stretch.firstElement) _
    serves.sound budget stretch.host
  have steps := fun moment member =>
    (@Machine.stepAt_consults σ (linked.batch invocation stretch.firstElement) _
      (serving moment member).sound moment.2).2
  refine ⟨requests, steps, fun moment _ instruction decoded => ?_, ?_⟩
  · exact Machine.due_elements decoded
  · intro entry made
    rw [stretchRequests, requests] at made
    obtain ⟨moment, member, asked⟩ := List.mem_flatMap.mp made
    obtain ⟨lane, live, element⟩ :=
      Machine.element_of_due ((steps moment member).mem_due asked)
    have inside := (serving moment member).lt_of_live live
    rw [element]
    exact ⟨Nat.le_add_right _ _, Nat.add_lt_add_left inside _⟩

/-- Stretches that account for the requests of a call and for how it ends. -/
structure Narrates (linked : Linked σ) (budget : Nat) (invocation : Invocation)
    (stretches : List (Stretch σ)) (host : σ) (failure : Option Failure) (later : σ) :
    Prop where
  told : Told linked.externals host (linked.journal budget invocation stretches) failure
    later
  orderly : ∀ stretch ∈ stretches, linked.Orderly budget invocation stretch

namespace Narrates

variable {first second : List (Stretch σ)} {failure : Option Failure} {middle later : σ}

theorem nil (domestic : ∀ reason ∈ failure, reason.domestic = true) :
    linked.Narrates budget invocation [] host failure host :=
  ⟨.nil domestic, fun _ member => absurd member List.not_mem_nil⟩

theorem append (early : linked.Narrates budget invocation first host none middle)
    (late : linked.Narrates budget invocation second middle failure later) :
    linked.Narrates budget invocation (first ++ second) host failure later := by
  constructor
  · rw [journal_append]
    exact .append early.told.answers_of_none late.told
  · intro stretch member
    rcases List.mem_append.mp member with inFirst | inSecond
    · exact early.orderly stretch inFirst
    · exact late.orderly stretch inSecond

end Narrates

/-! ## Calls with a journal -/

/-- The program with a host that keeps a journal. -/
def recorded (linked : Linked σ) : Linked (σ × List JournalEntry) where
  program := linked.program
  externals := linked.externals.mapIdx External.recorded

/-- The stretch of a batch, if it starts. -/
def batchStretch (linked : Linked σ) (invocation : Invocation) (function : Function)
    (firstElement lanes : Nat) (arguments : List Register) (host : σ) :
    List (Stretch σ) :=
  match Machine.boot linked.program function lanes invocation.inputs arguments with
  | .error _ => []
  | .ok start => [⟨firstElement, lanes, start, host⟩]

section Batches

variable {firstElement lanes : Nat} {arguments : List Register}

theorem runBatch_recorded (entries : List JournalEntry) :
    (linked.recorded.runBatch budget invocation function firstElement lanes
        arguments).run (host, entries) =
      (((linked.runBatch budget invocation function firstElement lanes
        arguments).run host).1,
        ((linked.runBatch budget invocation function firstElement lanes
          arguments).run host).2,
        entries ++ linked.journal budget invocation
          (linked.batchStretch invocation function firstElement lanes arguments host)) := by
  unfold runBatch launch batchStretch journal
  change StateT.run (match Machine.boot linked.program function lanes invocation.inputs
    arguments with | .error failure => _ | .ok machine => _) _ = _
  cases Machine.boot linked.program function lanes invocation.inputs arguments with
  | error failure =>
      exact congrArg (fun made => (_, _, made)) (List.append_nil entries).symm
  | ok start =>
      rw [List.flatMap_singleton]
      exact @Machine.runAt_recorded σ (linked.batch invocation firstElement) start budget
        host entries

theorem runBatch_narrates (known : function ∈ linked.program.functions)
    (frame : function.stackNeed ≤ stackCapacity)
    (counted : arguments.length = function.parameterCount) :
    linked.Narrates budget invocation
      (linked.batchStretch invocation function firstElement lanes arguments host) host
      (batchFailure ((linked.runBatch budget invocation function firstElement lanes
        arguments).run host).1)
      ((linked.runBatch budget invocation function firstElement lanes
        arguments).run host).2 := by
  have seeding := linked.program.seed_yields (invocation.inputs.getD [])
  rw [runBatch_at frame counted, batchStretch, Machine.boot_eq frame counted]
  cases seeded : linked.program.seed (invocation.inputs.getD []) with
  | error failure =>
      rw [seeded] at seeding
      rcases seeding with ⟨slot, _, _, input, rfl⟩
      exact .nil (by rintro _ ⟨⟩; rfl)
  | ok globals =>
      have serves : (Machine.booted function lanes globals arguments).Serves
          linked.program function lanes :=
        Machine.serves_booted known frame globals
      constructor
      · change Told _ _ ([_].flatMap _) _ _
        rw [List.flatMap_singleton]
        exact @Machine.runAt_told σ (linked.batch invocation firstElement) _ serves.sound
          budget host
      · intro stretch only
        rcases List.mem_singleton.mp only with rfl
        exact orderly_of_serves serves

/-- A batch is at most one stretch, for its own elements. -/
theorem of_getElem?_batchStretch {index : Nat} {stretch : Stretch σ}
    (listed : (linked.batchStretch invocation function firstElement lanes arguments
      host)[index]? = some stretch) :
    index = 0 ∧ stretch.firstElement = firstElement ∧ stretch.lanes = lanes := by
  unfold batchStretch at listed
  cases booted : Machine.boot linked.program function lanes invocation.inputs arguments with
  | error failure =>
      rw [booted] at listed
      cases listed
  | ok start =>
      rw [booted] at listed
      cases index with
      | zero =>
          cases listed
          exact ⟨rfl, rfl, rfl⟩
      | succ index =>
          cases listed

end Batches

/-! ## Single elements -/

/-- The stretch of a call for a single element, if the call is not refused. -/
def singleStretch (linked : Linked σ) (invocation : Invocation)
    (arguments returns : List Word) (host : σ) : List (Stretch σ) :=
  match linked.program.prepare invocation arguments.length (some returns.length) with
  | .error _ => []
  | .ok function =>
      linked.batchStretch invocation function 0 1
        (arguments.map fun word => packWords [word]) host

theorem failure_conclude (arguments returns : List Word) (result : BatchResult) :
    (conclude function arguments returns result).ending.failure? = batchFailure result := by
  rcases result with _ | failure | ⟨machine, returned⟩ <;> rfl

theorem failure_concludeChunk (offset lanes : Nat) (arguments returns : List Column)
    (result : BatchResult) :
    (concludeChunk function offset lanes arguments returns result).ending.failure? =
      batchFailure result := by
  rcases result with _ | failure | ⟨machine, returned⟩ <;> rfl

/-- A failure before the first batch does not come from the host. -/
theorem domestic_of_fault {failure : Failure} (cause : ∃ fault, failure = .fault fault) :
    ∀ reason ∈ (Ending.failed failure).failure?, reason.domestic = true := by
  rcases cause with ⟨fault, rfl⟩
  rintro _ ⟨⟩
  rfl

theorem of_mem_singleStretch {arguments returns : List Word} {stretch : Stretch σ}
    (member : stretch ∈ linked.singleStretch invocation arguments returns host) :
    stretch.firstElement = 0 ∧ stretch.lanes = 1 := by
  unfold singleStretch at member
  split at member
  · cases member
  · obtain ⟨index, listed⟩ := List.mem_iff_getElem?.mp member
    exact (of_getElem?_batchStretch listed).2

theorem run_recorded (arguments returns : List Word) (entries : List JournalEntry) :
    (linked.recorded.run budget invocation arguments returns).run (host, entries) =
      (((linked.run budget invocation arguments returns).run host).1,
        ((linked.run budget invocation arguments returns).run host).2,
        entries ++ linked.journal budget invocation
          (linked.singleStretch invocation arguments returns host)) := by
  rw [run_at, run_at, singleStretch]
  change (match linked.program.prepare invocation arguments.length (some returns.length)
    with | .error failure => _ | .ok function => _) = _
  cases linked.program.prepare invocation arguments.length (some returns.length) with
  | error failure =>
      exact congrArg (fun made => (_, _, made)) (List.append_nil entries).symm
  | ok function =>
      dsimp only
      rw [runBatch_recorded]

theorem run_narrates (arguments returns : List Word) :
    linked.Narrates budget invocation
      (linked.singleStretch invocation arguments returns host) host
      ((linked.run budget invocation arguments returns).run host).1.ending.failure?
      ((linked.run budget invocation arguments returns).run host).2 := by
  rw [run_at, singleStretch]
  cases prepared : linked.program.prepare invocation arguments.length
      (some returns.length) with
  | error failure =>
      exact .nil (domestic_of_fault (Program.prepare_ne_trap prepared))
  | ok function =>
      rcases Program.prepare_eq_ok.mp prepared with ⟨known, accepts⟩
      dsimp only
      rw [failure_conclude]
      apply runBatch_narrates (List.mem_of_getElem? known) accepts.frame
      rw [List.length_map]
      exact accepts.arguments

/-! ## Columns -/

/-- The stretches of the chunks from an offset on. -/
def stretches (linked : Linked σ) (budget : Nat) (invocation : Invocation)
    (function : Function) (count offset : Nat) (arguments returns : List Column)
    (host : σ) : List (Stretch σ) :=
  if offset < count then
    linked.batchStretch invocation function offset (min (count - offset) laneCount)
        (chunkRegisters arguments offset (min (count - offset) laneCount)) host ++
      match (linked.runChunk budget invocation function offset
        (min (count - offset) laneCount) arguments returns).run host with
      | (⟨.completed, after, given⟩, later) =>
          linked.stretches budget invocation function count (offset + laneCount) after given
            later
      | _ => []
  else []
termination_by count - offset
decreasing_by
  have positive : 0 < laneCount := by decide
  omega

section Chunks

variable {count offset : Nat} {arguments returns : List Column}

theorem runChunk_recorded (ready : function.Ready linked.program)
    (spacious : Spacious function count arguments returns) (within : offset < count)
    (entries : List JournalEntry) :
    (linked.recorded.runChunk budget invocation function offset
        (min (count - offset) laneCount) arguments returns).run (host, entries) =
      (((linked.runChunk budget invocation function offset
        (min (count - offset) laneCount) arguments returns).run host).1,
        ((linked.runChunk budget invocation function offset
          (min (count - offset) laneCount) arguments returns).run host).2,
        entries ++ linked.journal budget invocation
          (linked.batchStretch invocation function offset (min (count - offset) laneCount)
            (chunkRegisters arguments offset (min (count - offset) laneCount)) host)) := by
  have chunk := spacious.chunk within
  have narrow := Nat.min_le_right (count - offset) laneCount
  rw [@runChunk_at _ linked.recorded _ _ _ _ ready _ _ _ _ chunk narrow,
    runChunk_at ready chunk narrow]
  dsimp only
  rw [runBatch_recorded]

theorem runChunk_narrates (ready : function.Ready linked.program)
    (spacious : Spacious function count arguments returns) (within : offset < count) :
    linked.Narrates budget invocation
      (linked.batchStretch invocation function offset (min (count - offset) laneCount)
        (chunkRegisters arguments offset (min (count - offset) laneCount)) host) host
      ((linked.runChunk budget invocation function offset
        (min (count - offset) laneCount) arguments returns).run host).1.ending.failure?
      ((linked.runChunk budget invocation function offset
        (min (count - offset) laneCount) arguments returns).run host).2 := by
  rw [runChunk_at ready (spacious.chunk within) (Nat.min_le_right _ _)]
  dsimp only
  rw [failure_concludeChunk]
  exact runBatch_narrates ready.known ready.frame (spacious.counted _ _)

/-- A chunk that completes has started, and is a stretch. -/
theorem batchStretch_of_completed (ready : function.Ready linked.program)
    (spacious : Spacious function count arguments returns) (within : offset < count)
    {after given : List Column} {later : σ}
    (completed : (linked.runChunk budget invocation function offset
      (min (count - offset) laneCount) arguments returns).run host =
        (⟨.completed, after, given⟩, later)) :
    ∃ start, linked.batchStretch invocation function offset
      (min (count - offset) laneCount)
      (chunkRegisters arguments offset (min (count - offset) laneCount)) host =
        [⟨offset, min (count - offset) laneCount, start, host⟩] := by
  rw [runChunk_at ready (spacious.chunk within) (Nat.min_le_right _ _)] at completed
  unfold runBatch launch at completed
  unfold batchStretch
  cases booted : Machine.boot linked.program function (min (count - offset) laneCount)
      invocation.inputs
      (chunkRegisters arguments offset (min (count - offset) laneCount)) with
  | error failure =>
      rw [booted] at completed
      cases congrArg (·.1.ending) completed
  | ok start =>
      exact ⟨start, rfl⟩

theorem stretches_of_le (beyond : count ≤ offset) :
    linked.stretches budget invocation function count offset arguments returns host = [] := by
  rw [stretches, if_neg (Nat.not_lt_of_le beyond)]

/-- A chunk that does not complete is the last one with a stretch. -/
theorem stretches_of_stopped {result : Result Column} {later : σ} (within : offset < count)
    (chunk : (linked.runChunk budget invocation function offset
      (min (count - offset) laneCount) arguments returns).run host = (result, later))
    (incomplete : result.ending ≠ .completed) :
    linked.stretches budget invocation function count offset arguments returns host =
      linked.batchStretch invocation function offset (min (count - offset) laneCount)
        (chunkRegisters arguments offset (min (count - offset) laneCount)) host := by
  rw [stretches, if_pos within, chunk]
  rcases result with ⟨ending, after, given⟩
  cases ending with
  | completed => exact absurd rfl incomplete
  | failed | exhausted => exact List.append_nil _

/-- The stretch of a chunk that completes is followed by those of the later chunks. -/
theorem stretches_of_completed {after given : List Column} {later : σ}
    (within : offset < count)
    (chunk : (linked.runChunk budget invocation function offset
      (min (count - offset) laneCount) arguments returns).run host =
        (⟨.completed, after, given⟩, later)) :
    linked.stretches budget invocation function count offset arguments returns host =
      linked.batchStretch invocation function offset (min (count - offset) laneCount)
          (chunkRegisters arguments offset (min (count - offset) laneCount)) host ++
        linked.stretches budget invocation function count (offset + laneCount) after given
          later := by
  rw [stretches, if_pos within, chunk]

end Chunks

/--
What is said about the chunks of a call from an offset on: with a journal the
same happens, and the journal gains the requests of the stretches.
-/
structure ChunksTold (linked : Linked σ) (budget : Nat) (invocation : Invocation)
    (function : Function) (count offset : Nat) (arguments returns : List Column) (host : σ)
    (reached : Result Column × σ) : Prop where
  recorded : ∀ entries,
    (linked.recorded.runFrom budget invocation function count offset arguments
      returns).run (host, entries) =
      (reached.1, reached.2, entries ++ linked.journal budget invocation
        (linked.stretches budget invocation function count offset arguments returns host))
  narrates : linked.Narrates budget invocation
    (linked.stretches budget invocation function count offset arguments returns host) host
    reached.1.ending.failure? reached.2
  /-- The stretches serve one chunk after the other. -/
  chunks : ∀ index stretch,
    (linked.stretches budget invocation function count offset arguments returns
      host)[index]? = some stretch →
      stretch.firstElement = offset + index * laneCount ∧
        stretch.firstElement < count ∧
        stretch.lanes = min (count - stretch.firstElement) laneCount

theorem runFrom_told (ready : function.Ready linked.program) {count : Nat} (offset : Nat)
    (arguments returns : List Column) (host : σ)
    (spacious : Spacious function count arguments returns) :
    linked.ChunksTold budget invocation function count offset arguments returns host
      ((linked.runFrom budget invocation function count offset arguments
        returns).run host) := by
  revert spacious
  apply @runFrom_induction σ linked budget invocation function count
    (fun offset arguments returns host reached =>
      Spacious function count arguments returns →
        linked.ChunksTold budget invocation function count offset arguments returns host
          reached)
  · intro offset arguments returns host beyond _
    constructor
    · intro entries
      rw [stretches_of_le beyond, runFrom_of_le beyond]
      exact congrArg (fun made => (_, _, made)) (List.append_nil entries).symm
    · rw [stretches_of_le beyond]
      exact .nil (by rintro _ ⟨⟩)
    · rw [stretches_of_le beyond]
      intro index stretch listed
      cases listed
  · intro offset arguments returns host result later within chunk incomplete spacious
    have narrates := @runChunk_narrates σ linked budget invocation function host count
      offset arguments returns ready spacious within
    have alone := stretches_of_stopped within chunk incomplete
    rw [chunk] at narrates
    constructor
    · intro entries
      rw [alone]
      refine runFrom_of_stopped within ?_ incomplete
      rw [runChunk_recorded ready spacious within, chunk]
    · rw [alone]
      exact narrates
    · rw [alone]
      intro index stretch listed
      obtain ⟨rfl, first, lanes⟩ := of_getElem?_batchStretch listed
      rw [lanes, first, Nat.zero_mul]
      exact ⟨rfl, within, rfl⟩
  · intro offset arguments returns host after given state reached within chunk rest spacious
    have clean := @runChunk_clean σ linked budget invocation function host ready
      count offset arguments returns spacious within
    have narrates := @runChunk_narrates σ linked budget invocation function host count
      offset arguments returns ready spacious within
    have split := stretches_of_completed within chunk
    obtain ⟨start, single⟩ := batchStretch_of_completed ready spacious within chunk
    have recorded := @runChunk_recorded σ linked budget invocation function host count
      offset arguments returns ready spacious within
    rw [chunk] at clean narrates recorded
    have later := rest (spacious.of_lengths clean.arguments clean.returns)
    constructor
    · intro entries
      rw [split, runFrom_of_completed within (recorded entries), later.recorded,
        List.append_assoc, journal_append]
    · rw [split]
      exact narrates.append later.narrates
    · rw [split, single]
      intro index stretch listed
      cases index with
      | zero =>
          cases listed
          rw [Nat.zero_mul]
          exact ⟨rfl, within, rfl⟩
      | succ index =>
          obtain ⟨first, bound, lanes⟩ := later.chunks index stretch listed
          refine ⟨?_, bound, lanes⟩
          rw [first, Nat.succ_mul]
          omega

/-- The stretches of a call for columns, if the call is not refused. -/
def stripedStretches (linked : Linked σ) (budget : Nat) (invocation : Invocation)
    (count : Nat) (arguments returns : List Column) (host : σ) : List (Stretch σ) :=
  match linked.accept invocation count arguments returns with
  | .error _ => []
  | .ok function =>
      linked.stretches budget invocation function count 0 arguments returns host

/-- A call for columns is refused for a fault of its own. -/
theorem fault_of_accept {count : Nat} {arguments returns : List Column} {failure : Failure}
    (refused : linked.accept invocation count arguments returns = .error failure) :
    ∃ fault, failure = .fault fault := by
  have preparing : Yields (fun failure => ∃ fault, failure = .fault fault) (fun _ => True)
      (linked.program.prepare invocation arguments.length
        (if returns.isEmpty then none else some returns.length)) := by
    cases prepared : linked.program.prepare invocation arguments.length
        (if returns.isEmpty then none else some returns.length) with
    | ok function => exact trivial
    | error failure => exact Program.prepare_ne_trap prepared
  have accepting : Yields (fun failure => ∃ fault, failure = .fault fault) (fun _ => True)
      (linked.accept invocation count arguments returns) :=
    .bind preparing fun _ _ => .bind checkColumns_ne_trap fun _ _ =>
      .bind checkColumns_ne_trap fun _ _ => trivial
  exact accepting.of_error refused

/-- What is said about the chunks of a call holds of the call, if it is accepted. -/
theorem runStriped_told (count : Nat) (arguments returns : List Column) (host : σ) :
    let reached := (linked.runStriped budget invocation count arguments returns).run host
    let stretches := linked.stripedStretches budget invocation count arguments returns host
    (∀ entries,
      (linked.recorded.runStriped budget invocation count arguments returns).run
          (host, entries) =
        (reached.1, reached.2, entries ++ linked.journal budget invocation stretches)) ∧
      linked.Narrates budget invocation stretches host reached.1.ending.failure?
        reached.2 ∧
      ∀ index stretch, stretches[index]? = some stretch →
        stretch.firstElement = index * laneCount ∧
          stretch.firstElement < count ∧
          stretch.lanes = min (count - stretch.firstElement) laneCount := by
  have same : linked.recorded.accept invocation count arguments returns =
      linked.accept invocation count arguments returns := rfl
  simp only [runStriped_accept, stripedStretches, same]
  cases accepted : linked.accept invocation count arguments returns with
  | error failure =>
      refine ⟨fun entries => ?_, .nil (domestic_of_fault (fault_of_accept accepted)), ?_⟩
      · exact congrArg (fun made => (_, _, made)) (List.append_nil entries).symm
      · intro index stretch listed
        cases listed
  | ok function =>
      have told := @runFrom_told σ linked budget invocation function
        (ready_of_accept accepted) count 0 arguments returns host
        (spacious_of_accept accepted)
      refine ⟨told.recorded, told.narrates, fun index stretch listed => ?_⟩
      obtain ⟨first, bound, lanes⟩ := told.chunks index stretch listed
      rw [Nat.zero_add] at first
      exact ⟨first, bound, lanes⟩

/--
The requests of a call, for one element or for columns and with any host, are
those of its stretches, one after the other.  For columns, each stretch serves
the next chunk.  In each stretch, each step makes the requests that are due:
one for each live lane, in ascending order and for the element of that lane, if
the instruction asks the host.  A refusal is the last request of the call, and
what the call reports; a step that fails otherwise has asked for nothing.
-/
theorem requests_follow_live_lanes (linked : Linked σ) (budget : Nat)
    (invocation : Invocation) (host : σ) :
    (∀ arguments returns,
      let reached := (linked.run budget invocation arguments returns).run host
      let stretches := linked.singleStretch invocation arguments returns host
      (∀ entries,
        (linked.recorded.run budget invocation arguments returns).run (host, entries) =
          (reached.1, reached.2,
            entries ++ linked.journal budget invocation stretches)) ∧
        linked.Narrates budget invocation stretches host reached.1.ending.failure?
          reached.2 ∧
        ∀ entry ∈ linked.journal budget invocation stretches, entry.element = 0) ∧
    ∀ count arguments returns,
      let reached := (linked.runStriped budget invocation count arguments returns).run host
      let stretches :=
        linked.stripedStretches budget invocation count arguments returns host
      (∀ entries,
        (linked.recorded.runStriped budget invocation count arguments returns).run
            (host, entries) =
          (reached.1, reached.2,
            entries ++ linked.journal budget invocation stretches)) ∧
        linked.Narrates budget invocation stretches host reached.1.ending.failure?
          reached.2 ∧
        ∀ index stretch, stretches[index]? = some stretch →
          stretch.firstElement = index * laneCount ∧
            stretch.lanes = min (count - stretch.firstElement) laneCount ∧
            ∀ entry ∈ linked.stretchRequests budget invocation stretch,
              index * laneCount ≤ entry.element ∧
                entry.element < min ((index + 1) * laneCount) count := by
  constructor
  · intro arguments returns reached stretches
    have narrates : linked.Narrates budget invocation stretches host
        reached.1.ending.failure? reached.2 := run_narrates arguments returns
    refine ⟨run_recorded arguments returns, narrates, ?_⟩
    intro entry made
    obtain ⟨stretch, member, made⟩ := List.mem_flatMap.mp made
    obtain ⟨first, lanes⟩ := of_mem_singleStretch member
    have bounds := (narrates.orderly stretch member).elements entry made
    omega
  · intro count arguments returns reached stretches
    obtain ⟨recorded, narrates, chunks⟩ :=
      @runStriped_told σ linked budget invocation count arguments returns host
    refine ⟨recorded, narrates, fun index stretch listed => ?_⟩
    obtain ⟨first, bound, lanes⟩ := chunks index stretch listed
    refine ⟨first, lanes, fun entry made => ?_⟩
    have orderly := narrates.orderly stretch (List.mem_of_getElem? listed)
    have bounds := orderly.elements entry made
    rw [Nat.succ_mul]
    omega

/-- A function that reads a word from the host and drops it. -/
def poll : Function where
  name := "poll"
  parameterCount := 0
  stackCount := 1
  code := (Instruction.readExternal 1 0).encode ++
    (Instruction.compute (.pop 1)).encode ++ (Instruction.ret 0).encode

/-- The program of `poll`, with a host that has nothing for the tenth element. -/
def polling : Linked Unit where
  program := { functions := [poll] }
  externals := [{ read := fun element width =>
    if element = 9 then throw (.reason "gone") else return Vector.replicate width 0 }]

/--
Of eleven elements, the first eight are read in the first chunk, two more in the
second, and the refusal for the tenth is the last request.
-/
theorem requests_follow_live_lanes_polling :
    let stretches := polling.stripedStretches 9 ⟨0, [], none⟩ 11 [] [] ()
    (polling.journal 9 ⟨0, [], none⟩ stretches).map JournalEntry.element =
        [0, 1, 2, 3, 4, 5, 6, 7, 8, 9] ∧
      Told polling.externals () (polling.journal 9 ⟨0, [], none⟩ stretches)
        (some (.external (.context "external 0 read for element 9" (.reason "gone")))) () ∧
      ∃ stretch, stretches[1]? = some stretch ∧
        stretch.firstElement = 8 ∧ stretch.lanes = 3 := by
  intro stretches
  obtain ⟨recorded, narrates, chunks⟩ :=
    (requests_follow_live_lanes polling 9 ⟨0, [], none⟩ ()).2 11 [] []
  have elements : ((polling.recorded.runStriped 9 ⟨0, [], none⟩ 11 [] []).run
      ((), [])).2.2.map JournalEntry.element = [0, 1, 2, 3, 4, 5, 6, 7, 8, 9] := by
    decide +kernel
  have failed : ((polling.runStriped 9 ⟨0, [], none⟩ 11 [] []).run ()).1.ending.failure? =
      some (.external (.context "external 0 read for element 9" (.reason "gone"))) := by
    decide +kernel
  have started : stretches[1]?.isSome = true := by
    decide +kernel
  obtain ⟨stretch, second⟩ := Option.isSome_iff_exists.mp started
  obtain ⟨first, lanes, _⟩ := chunks 1 stretch second
  refine ⟨?_, failed ▸ narrates.told, stretch, second, first, ?_⟩
  · rw [recorded []] at elements
    exact elements
  · rw [lanes, first]
    rfl

end Linked

end Lockstep
