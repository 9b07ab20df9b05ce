import Lockstep.Proofs.Blocks

/-!
# Blocks and the steps that carry them out

`Block.exec` carries out a block without looking at code.  Where the
instructions of the block are what a machine reads, its steps do the same: they
lead to the end of the block, or to a step that fails, or they are at least as
many as the bound that was exhausted.  The steps do not leave the block before
its end, apart from the functions that it calls.

`Block.exec_realizes` is the account for blocks, by induction on the block, and
`Plan.Describes.serve_realized` the one for functions, by induction on the
bound.
-/

namespace Lockstep

variable {σ : Type}

namespace Machine

/-! ## Paths -/

/-- A step that does not ask the host leads from one machine to the next. -/
structure Moves (batch : Batch σ) (before after : Machine) : Prop where
  quiet : before.Quiet
  outcome : before.outcome batch = .ok (.next after)

/-- A number of steps that do not ask the host, each from a machine of some kind. -/
inductive Path (batch : Batch σ) (inside : Machine → Prop) :
    Nat → Machine → Machine → Prop
  | refl (machine : Machine) : Path batch inside 0 machine machine
  | head {count : Nat} {before middle after : Machine} (here : inside before)
      (moves : Moves batch before middle) (rest : Path batch inside count middle after) :
      Path batch inside (count + 1) before after

variable {batch : Batch σ} {inside wider : Machine → Prop} {count limit : Nat}
variable {machine before middle after : Machine}

namespace Path

theorem single (here : inside before) (moves : Moves batch before after) :
    Path batch inside 1 before after :=
  head here moves (refl after)

theorem trans {more : Nat} (first : Path batch inside count before middle)
    (second : Path batch inside more middle after) :
    Path batch inside (count + more) before after := by
  induction first with
  | refl machine =>
      rw [Nat.zero_add]
      exact second
  | head here moves rest induction =>
      rw [Nat.add_right_comm]
      exact head here moves (induction second)

theorem mono (path : Path batch inside count before after)
    (weaker : ∀ machine, inside machine → wider machine) :
    Path batch wider count before after := by
  induction path with
  | refl machine =>
      exact refl machine
  | head here moves rest induction =>
      exact head (weaker _ here) moves induction

/-- A run passes along a path. -/
theorem runAt_eq (path : Path batch inside count before after) (budget : Nat) (host : σ) :
    before.runAt batch (count + budget) host = after.runAt batch budget host := by
  induction path with
  | refl machine =>
      rw [Nat.zero_add]
  | head here moves rest induction =>
      rw [Nat.add_right_comm, runAt_succ, stepAt_quiet moves.quiet, moves.outcome]
      exact induction

/-- A run that is as long as a path at most has not ended. -/
theorem runAt_short (path : Path batch inside count before after) {budget : Nat}
    (short : budget ≤ count) (host : σ) :
    (before.runAt batch budget host).1 = none := by
  cases ended : before.runAt batch budget host with
  | mk outcome later =>
      cases outcome with
      | none =>
          rfl
      | some result =>
          have longer := runAt_mono ended short
          have along := path.runAt_eq 0 host
          rw [Nat.add_zero, longer, runAt_zero] at along
          cases along

end Path

/--
What steps make of a machine, compared with the outcome of carrying out some
code within a bound.
-/
def Realizes (batch : Batch σ) (inside : Machine → Prop) (limit : Nat)
    (before : Machine) : Except Stop Machine → Prop
  | .ok after => ∃ count, Path batch inside count before after
  | .error (.failed failure) => ∃ count last, Path batch inside count before last ∧
      inside last ∧ last.Quiet ∧ last.outcome batch = .error failure
  | .error .exhausted => ∃ count last, limit ≤ count ∧ Path batch inside count before last

namespace Realizes

variable {result : Except Stop Machine}

theorem mono {lower : Nat} (realizes : before.Realizes batch inside limit result)
    (weaker : ∀ machine, inside machine → wider machine) (fewer : lower ≤ limit) :
    before.Realizes batch wider lower result := by
  rcases result with (_ | failure) | final
  · obtain ⟨count, last, enough, path⟩ := realizes
    exact ⟨count, last, Nat.le_trans fewer enough, path.mono weaker⟩
  · obtain ⟨count, last, path, here, failed⟩ := realizes
    exact ⟨count, last, path.mono weaker, weaker _ here, failed⟩
  · obtain ⟨count, path⟩ := realizes
    exact ⟨count, path.mono weaker⟩

/-- Steps before the others count towards the bound. -/
theorem along (path : Path batch inside count before middle)
    (realizes : middle.Realizes batch inside limit result) :
    before.Realizes batch inside (count + limit) result := by
  rcases result with (_ | failure) | final
  · obtain ⟨more, last, enough, rest⟩ := realizes
    exact ⟨count + more, last, Nat.add_le_add_left enough count, path.trans rest⟩
  · obtain ⟨more, last, rest, failed⟩ := realizes
    exact ⟨count + more, last, path.trans rest, failed⟩
  · obtain ⟨more, rest⟩ := realizes
    exact ⟨count + more, path.trans rest⟩

theorem bind {next : Conduct} (begun : before.Realizes batch inside limit result)
    (continued : ∀ middle, result = .ok middle →
      middle.Realizes batch inside limit (next middle)) :
    before.Realizes batch inside limit (result >>= next) := by
  rcases result with (_ | failure) | middle
  · exact begun
  · exact begun
  · obtain ⟨count, path⟩ := begun
    exact (along path (continued middle rfl)).mono (fun _ held => held)
      (Nat.le_add_left limit count)

end Realizes

/-! ## Single steps -/

theorem outcome_of_decoded {instruction : Instruction}
    (decoded : machine.upcoming = .ok instruction) :
    machine.outcome batch = (machine.advanced instruction).carry batch instruction := by
  unfold outcome
  rw [fetch_of_decoded decoded]
  cases instruction with
  | compute computation =>
      cases computation <;> rfl
  | _ =>
      rfl

theorem quiet_of_decoded {instruction : Instruction}
    (decoded : machine.upcoming = .ok instruction)
    (quiet : instruction.asksHost = false) : machine.Quiet := by
  intro other read
  rw [decoded] at read
  cases read
  exact quiet

/-- An instruction other than a return goes on in the same run. -/
theorem carry_next {instruction : Instruction} {flow : Flow}
    (quiet : instruction.asksHost = false) (onward : ∀ count, instruction ≠ .ret count)
    (carried : machine.carry batch instruction = .ok flow) : flow = .next flow.machine := by
  have mapped : ∀ result : Except Failure Machine,
      result.map Flow.next = .ok flow → flow = .next flow.machine := by
    rintro (_ | following) ⟨⟩
    rfl
  cases instruction with
  | ret count =>
      exact absurd rfl (onward count)
  | callExternal arguments results external =>
      cases quiet
  | readExternal count external =>
      cases quiet
  | writeExternal count external =>
      cases quiet
  | shift operation amount =>
      unfold carry at carried
      simp only [execute] at carried
      cases checked : checkShift operation amount with
      | ok done =>
          rw [checked] at carried
          exact mapped _ carried
      | error fault =>
          rw [checked] at carried
          cases carried
  | loadFragCoord =>
      cases carried
  | sampleExplicit child =>
      cases carried
  | sampleMatrix child =>
      cases carried
  | _ =>
      exact mapped _ carried

theorem act_moves {instruction : Instruction}
    (decoded : machine.upcoming = .ok instruction) (quiet : instruction.asksHost = false)
    (onward : ∀ count, instruction ≠ .ret count)
    (acted : machine.act batch instruction = .ok after) : Moves batch machine after := by
  obtain ⟨flow, carried, rfl⟩ := act_eq_ok.mp acted
  refine ⟨quiet_of_decoded decoded quiet, ?_⟩
  rw [outcome_of_decoded decoded, carried, ← carry_next quiet onward carried]

/-- An instruction is carried out by a step. -/
theorem act_realizes {instruction : Instruction}
    (decoded : machine.upcoming = .ok instruction) (quiet : instruction.asksHost = false)
    (onward : ∀ count, instruction ≠ .ret count) (here : inside machine) (limit : Nat) :
    machine.Realizes batch inside limit (machine.act batch instruction) := by
  cases acted : machine.act batch instruction with
  | ok after =>
      exact ⟨1, .single here (act_moves decoded quiet onward acted)⟩
  | error stop =>
      obtain ⟨failure, carried, rfl⟩ := act_eq_error.mp acted
      refine ⟨0, machine, .refl machine, here, quiet_of_decoded decoded quiet, ?_⟩
      rw [outcome_of_decoded decoded, carried]

theorem jump_eq {target : Nat}
    (within : target ≤ machine.current.function.code.length) :
    machine.jump target = .ok (machine.jumped target) :=
  if_pos within

theorem branch_moves {target : UInt16} {goal : Nat}
    (decoded : machine.upcoming = .ok (.branch target)) (leads : target.toNat = goal)
    (within : goal ≤ machine.current.function.code.length) :
    Moves batch machine (machine.jumped goal) := by
  refine ⟨quiet_of_decoded decoded rfl, ?_⟩
  rw [outcome_of_decoded decoded]
  change Except.map Flow.next ((machine.advanced _).jump target.toNat) = _
  rw [leads, @jump_eq (machine.advanced _) goal within]
  rfl

theorem branch_moves_idle {target : UInt16} {goal : Nat}
    (decoded : machine.upcoming = .ok (.branchIfAllFalse target))
    (leads : target.toNat = goal)
    (within : goal ≤ machine.current.function.code.length)
    (idle : machine.live.any = false) : Moves batch machine (machine.jumped goal) := by
  refine ⟨quiet_of_decoded decoded rfl, ?_⟩
  rw [outcome_of_decoded decoded]
  change Except.map Flow.next ((machine.advanced _).jumpIfAllFalse target.toNat) = _
  have still : (machine.advanced (.branchIfAllFalse target)).live.any = false := idle
  rw [jumpIfAllFalse, still, leads, @jump_eq (machine.advanced _) goal within]
  rfl

theorem branch_moves_live {target : UInt16}
    (decoded : machine.upcoming = .ok (.branchIfAllFalse target))
    (live : machine.live.any = true) :
    Moves batch machine (machine.jumped (machine.current.offset + 3)) := by
  refine ⟨quiet_of_decoded decoded rfl, ?_⟩
  rw [outcome_of_decoded decoded]
  change Except.map Flow.next ((machine.advanced _).jumpIfAllFalse target.toNat) = _
  have still : (machine.advanced (.branchIfAllFalse target)).live.any = true := live
  rw [jumpIfAllFalse, still]
  rfl

theorem call_moves_idle {function : UInt8}
    (decoded : machine.upcoming = .ok (.call function)) (idle : machine.live.any = false) :
    Moves batch machine (machine.advanced (.call function)) := by
  refine ⟨quiet_of_decoded decoded rfl, ?_⟩
  rw [outcome_of_decoded decoded]
  change Except.map Flow.next ((machine.advanced _).call _ _) = _
  have still : (machine.advanced (.call function)).live.any = false := idle
  rw [Machine.call, still]
  rfl

/-! ## Places in the code -/

/--
A machine between two offsets of an activation with a number of callers, or in
a function that it has called.
-/
def Between (depth start finish : Nat) (machine : Machine) : Prop :=
  depth < machine.callers.length ∨
    (machine.callers.length = depth ∧ start ≤ machine.current.offset ∧
      machine.current.offset < finish)

theorem between_of_offset {depth start finish : Nat}
    (same : machine.callers.length = depth) (lower : start ≤ machine.current.offset)
    (upper : machine.current.offset < finish) : machine.Between depth start finish :=
  Or.inr ⟨same, lower, upper⟩

theorem Between.widen {depth start finish first last : Nat}
    (between : machine.Between depth start finish) (lower : first ≤ start)
    (upper : finish ≤ last) : machine.Between depth first last := by
  rcases between with deeper | ⟨same, above, below⟩
  · exact Or.inl deeper
  · exact Or.inr ⟨same, Nat.le_trans lower above, Nat.lt_of_lt_of_le below upper⟩

end Machine

/-- The instruction that is read at an offset of the code of a function. -/
def Function.Reads (function : Function) (offset : Nat) (instruction : Instruction) :
    Prop :=
  Instruction.decode offset (function.code.drop offset) = .ok instruction

theorem Instruction.quiet_of_inner {instruction : Instruction}
    (inner : instruction.inner = true) :
    instruction.asksHost = false ∧ ∀ count, instruction ≠ .ret count := by
  cases instruction with
  | ret count =>
      cases inner
  | callExternal arguments results external =>
      cases inner
  | readExternal count external =>
      cases inner
  | writeExternal count external =>
      cases inner
  | _ =>
      exact ⟨rfl, by rintro _ ⟨⟩⟩

namespace Machine

variable {function : Function} {offset : Nat} {instruction : Instruction}
variable {machine : Machine} {batch : Batch σ} {depth first last : Nat}

/-- A machine of some activation at an offset of its code. -/
structure Stands (function : Function) (depth offset : Nat) (machine : Machine) : Prop where
  function : machine.current.function = function
  offset : machine.current.offset = offset
  callers : machine.callers.length = depth

theorem Stands.upcoming (stands : machine.Stands function depth offset)
    (reads : function.Reads offset instruction) : machine.upcoming = .ok instruction := by
  unfold Machine.upcoming
  rw [stands.function, stands.offset]
  exact reads

theorem Stands.length (stands : machine.Stands function depth offset) :
    machine.current.function.code.length = function.code.length := by
  rw [stands.function]

theorem Stands.between (stands : machine.Stands function depth offset)
    (lower : first ≤ offset) (upper : offset < last) :
    machine.Between depth first last :=
  between_of_offset stands.callers (stands.offset ▸ lower) (stands.offset ▸ upper)

/-- An instruction that goes on behind itself is carried out where it stands. -/
theorem Stands.act_realizes (stands : machine.Stands function depth offset)
    (reads : function.Reads offset instruction) (inner : instruction.inner = true)
    (lower : first ≤ offset) (upper : offset < last) (limit : Nat) :
    machine.Realizes batch (Between depth first last) limit
      (machine.act batch instruction) :=
  Machine.act_realizes (stands.upcoming reads) (Instruction.quiet_of_inner inner).1
    (Instruction.quiet_of_inner inner).2 (stands.between lower upper) limit

end Machine

namespace Block

open Machine

/-- The instructions of a block are what is read where the block starts. -/
structure Lies (block : Block) (function : Function) (start : Nat) : Prop where
  reads : ∀ placed ∈ block.listing start, function.Reads placed.offset placed.instruction
  addressable : block.Addressable start

theorem Lies.part {block piece : Block} {function : Function} {start offset : Nat}
    (lies : block.Lies function start)
    (listed : piece.listing offset ⊆ block.listing start)
    (addressable : piece.Addressable offset) : piece.Lies function offset :=
  ⟨fun placed member => lies.reads placed (listed member), addressable⟩

/-- A way to carry out a block that is what steps do. -/
def Realized (batch : Batch σ) (limit : Nat) (block : Block) (conduct : Conduct) : Prop :=
  ∀ entry function depth start machine, Machine.Ready batch.program block entry machine →
    block.Lies function start → Machine.Stands function depth start machine →
      machine.Realizes batch (Between depth start (start + block.size)) limit
        (conduct machine)

variable {batch : Batch σ} {place : Place} {run : Conduct} {limit entry : Nat}
variable {function : Function} {depth start first last offset : Nat}
variable {machine before middle after : Machine} {block : Block}

/-- A block as part of others. -/
theorem Realized.within {conduct : Conduct} (realized : block.Realized batch limit conduct)
    (ready : machine.Ready batch.program block entry) (lies : block.Lies function start)
    (stands : machine.Stands function depth start) (lower : first ≤ start)
    (upper : start + block.size ≤ last) :
    machine.Realizes batch (Between depth first last) limit (conduct machine) :=
  (realized entry function depth start machine ready lies stands).mono
    (fun _ between => between.widen lower upper) (Nat.le_refl _)

theorem stands_of_frames {touched : Mask} {program : Program}
    (frames : Frames program touched entry before after)
    (stands : before.Stands function depth start) (here : after.current.offset = offset) :
    after.Stands function depth offset :=
  ⟨frames.function.trans stands.function, here,
    (congrArg List.length frames.callers).trans stands.callers⟩

theorem Ran.stands {program : Program}
    (ran : Machine.Ran program place block entry before after)
    (stands : before.Stands function depth start) :
    after.Stands function depth (start + block.size) :=
  stands_of_frames ran.toFrames stands (by rw [ran.offset, stands.offset])

theorem stands_of_acted {program : Program} {instruction : Instruction}
    (acted : Machine.Acted program instruction before after)
    (stands : before.Stands function depth start) :
    after.Stands function depth (start + instruction.width) :=
  stands_of_frames acted.toFrames stands (by rw [acted.offset, stands.offset])

/-- A block of one instruction. -/
theorem realized_single {instruction : Instruction} (inner : instruction.inner = true)
    (listed : ∀ start, ⟨start, instruction⟩ ∈ block.listing start) (size : 0 < block.size) :
    block.Realized batch limit (Machine.act batch instruction) := by
  intro entry function depth start machine ready lies stands
  exact stands.act_realizes (lies.reads _ (listed start)) inner (Nat.le_refl _) (by omega)
    limit

/-! ## Sequences, guards and calls -/

variable {body otherwise condition step : Block}
variable {bodyConduct otherwiseConduct : Conduct}

theorem realized_seq {first second : Block}
    (firstRuns : first.Runs batch.program place (first.exec batch run limit))
    (firstRealized : first.Realized batch limit (first.exec batch run limit))
    (secondRealized : second.Realized batch limit (second.exec batch run limit)) :
    (seq first second).Realized batch limit ((seq first second).exec batch run limit) := by
  intro entry function depth start machine ready lies stands
  have addressable := lies.addressable
  have size : (seq first second).size = first.size + second.size := rfl
  refine Realizes.bind (firstRealized.within (ready_first ready)
    (lies.part (List.subset_append_left _ _) addressable.1) stands (Nat.le_refl _)
    (by omega)) ?_
  intro middle ran
  have firstRan := firstRuns entry machine middle (ready_first ready) ran
  exact secondRealized.within (ready_second ready firstRan)
    (lies.part (List.subset_append_right _ _) addressable.2) (Ran.stands firstRan stands)
    (by omega) (by omega)

theorem toNat_target {target : Nat} (small : target < 2 ^ 16) :
    (UInt16.ofNat target).toNat = target :=
  UInt16.toNat_ofNat_of_lt small

theorem realized_guarded
    (bodyRealized : body.Realized batch limit (body.exec batch run limit))
    (gives : body.Gives batch.program.functions 0) :
    (guarded body).Realized batch limit ((guarded body).exec batch run limit) := by
  intro entry function depth start machine ready lies stands
  have room := ready.room
  have size : (guarded body).size = 3 + body.size := rfl
  obtain ⟨small, addressable⟩ := lies.addressable
  have upcoming := stands.upcoming (lies.reads _ List.mem_cons_self)
  have here : machine.Between depth start (start + (guarded body).size) :=
    stands.between (Nat.le_refl _) (by omega)
  have offset := stands.offset
  cases live : machine.live.any with
  | true =>
      change Machine.Realizes batch _ limit machine (Conduct.unlessIdle _ _ machine)
      rw [Conduct.unlessIdle_live live]
      have moved : (machine.jumped (machine.current.offset + 3)).Stands function depth
          (start + 3) := ⟨stands.function, by rw [← offset]; rfl, stands.callers⟩
      refine (Realizes.along (.single here (branch_moves_live upcoming live))
        (bodyRealized.within (ready_guarded ready gives)
          (lies.part (List.subset_cons_self _ _) addressable) moved (by omega)
          (by omega))).mono (fun _ held => held) (Nat.le_add_left _ _)
  | false =>
      change Machine.Realizes batch _ limit machine (Conduct.unlessIdle _ _ machine)
      rw [Conduct.unlessIdle_idle live]
      refine ⟨1, .single here (branch_moves_idle upcoming ?_ (by omega) live)⟩
      rw [toNat_target small, offset]

end Block

/-- A way to carry out a function that is what steps do. -/
def Conduct.Realized (batch : Batch σ) (bound : Nat) (run : Conduct) : Prop :=
  ∀ machine : Machine, machine.Sound batch.program → machine.current.offset = 0 →
    machine.callers ≠ [] → machine.Realizes batch
      (fun other => machine.callers.length ≤ other.callers.length) bound (run machine)

namespace Block

open Machine

variable {batch : Batch σ} {place : Place} {run : Conduct} {limit entry : Nat}
variable {function : Function} {depth start first last offset : Nat}
variable {machine before middle after : Machine} {block : Block}
variable {body otherwise condition step : Block}
variable {bodyConduct otherwiseConduct : Conduct}

/-- A call is a step of its own, so that the bound for the function is one less. -/
theorem realized_call (runRealized : run.Realized batch limit) (function : UInt8) :
    (call function).Realized batch (limit + 1)
      (exec batch run (limit + 1) (call function)) := by
  intro entry code depth start machine ready lies stands
  have size : (call function).size = 2 := rfl
  have upcoming := stands.upcoming (lies.reads _ (List.mem_singleton.mpr rfl))
  have here : machine.Between depth start (start + (call function).size) :=
    stands.between (Nat.le_refl _) (by omega)
  change Machine.Realizes batch _ _ machine (Conduct.unlessIdle _ _ machine)
  cases live : machine.live.any with
  | false =>
      rw [Conduct.unlessIdle_idle live]
      exact ⟨1, .single here (call_moves_idle upcoming live)⟩
  | true =>
      rw [Conduct.unlessIdle_live live]
      have entering : machine.Realizes batch _ (limit + 1)
          (machine.act batch (.call function)) :=
        Machine.act_realizes upcoming rfl (by rintro _ ⟨⟩) here (limit + 1)
      cases acted : machine.act batch (.call function) with
      | error stop =>
          rw [acted] at entering
          exact entering
      | ok called =>
          obtain ⟨callee, calls, rfl⟩ := act_called live acted
          have moved : (machine.advanced (.call function)).Sound batch.program :=
            ready.sound.jumped ready.room
          have moves := act_moves upcoming rfl (by rintro _ ⟨⟩) acted
          have rest := runRealized _ (moved.called calls) rfl (by rintro ⟨⟩)
          rw [Nat.add_comm limit 1]
          refine Realizes.along (.single here moves) (rest.mono ?_ (Nat.le_refl _))
          intro other deeper
          have waiting : machine.callers.length + 1 ≤ other.callers.length := deeper
          refine Or.inl ?_
          rw [← stands.callers]
          exact waiting

/-! ## Conditionals -/

theorem side_realizes (bodyRealized : body.Realized batch limit bodyConduct)
    {count : Nat} (gives : body.Gives batch.program.functions count)
    (sound : before.Sound batch.program)
    (room : before.current.offset + (1 + body.size) ≤ before.current.function.code.length)
    (stands : before.Stands function depth start) (opens : function.Reads start .maskPush)
    (bodyLies : body.Lies function (start + 1)) (lower : first ≤ start)
    (upper : start + (1 + body.size) ≤ last) :
    before.Realizes batch (Between depth first last) limit
      (side batch bodyConduct before) := by
  refine Realizes.bind (stands.act_realizes opens rfl lower (by omega) limit) ?_
  intro opened pushed
  have acted := Machine.act_single sound rfl (by omega) rfl pushed
  exact bodyRealized.within (ready_side acted (by omega) gives) bodyLies
    (stands_of_acted acted stands) (by omega) (by omega)

theorem half_realizes (bodyRuns : body.Runs batch.program place bodyConduct)
    (bodyRealized : body.Realized batch limit bodyConduct)
    {count : Nat} (gives : body.Gives batch.program.functions count)
    (sound : before.Sound batch.program)
    (room : before.current.offset + (1 + body.size + 1) ≤
      before.current.function.code.length)
    (stands : before.Stands function depth start) (opens : function.Reads start .maskPush)
    (bodyLies : body.Lies function (start + 1))
    (turns : function.Reads (start + 1 + body.size) .maskNegate) (lower : first ≤ start)
    (upper : start + (1 + body.size + 1) ≤ last) :
    before.Realizes batch (Between depth first last) limit
      (half batch bodyConduct before) := by
  refine Realizes.bind (side_realizes bodyRealized gives sound (by omega) stands opens
    bodyLies lower (by omega)) ?_
  intro done ran
  have left := side_sided bodyRuns gives sound (by omega) (fun _ => Nat.le_refl _) ran
  refine (stands_of_frames left.toFrames stands ?_).act_realizes turns rfl (by omega)
    (by omega) limit
  rw [left.offset, stands.offset]
  omega

theorem sides_realizes (bodyRuns : body.Runs batch.program place bodyConduct)
    (bodyRealized : body.Realized batch limit bodyConduct)
    (otherwiseRealized : otherwise.Realized batch limit otherwiseConduct)
    {count rightCount : Nat} (gives : body.Gives batch.program.functions count)
    (givesOtherwise : otherwise.Gives batch.program.functions rightCount)
    (sound : before.Sound batch.program)
    (room : before.current.offset + (1 + body.size + 1 + otherwise.size) ≤
      before.current.function.code.length)
    (stands : before.Stands function depth start) (opens : function.Reads start .maskPush)
    (bodyLies : body.Lies function (start + 1))
    (turns : function.Reads (start + 1 + body.size) .maskNegate)
    (otherwiseLies : otherwise.Lies function (start + 1 + body.size + 1))
    (lower : first ≤ start)
    (upper : start + (1 + body.size + 1 + otherwise.size) ≤ last) :
    before.Realizes batch (Between depth first last) limit
      (sides batch bodyConduct otherwiseConduct before) := by
  refine Realizes.bind (half_realizes bodyRuns bodyRealized gives sound (by omega) stands
    opens bodyLies turns lower (by omega)) ?_
  intro turned ran
  have left := half_sided bodyRuns gives sound (by omega) (fun _ => Nat.le_refl _) ran
  refine otherwiseRealized.within (ready_otherwise left room givesOtherwise) otherwiseLies
    (stands_of_frames left.toFrames stands ?_) (by omega) (by omega)
  rw [left.offset, stands.offset]
  omega

theorem realized_when (bodyRuns : body.Runs batch.program place (body.exec batch run limit))
    (bodyRealized : body.Realized batch limit (body.exec batch run limit))
    (gives : body.Gives batch.program.functions 0) :
    (when body).Realized batch limit ((when body).exec batch run limit) := by
  intro entry function depth start before ready lies stands
  have room := ready.room
  have size : (when body).size = 1 + body.size + 1 := rfl
  refine Realizes.bind (side_realizes bodyRealized gives ready.sound (by omega) stands
    (lies.reads _ List.mem_cons_self) (lies.part ?_ lies.addressable) (Nat.le_refl _)
    (by omega)) ?_
  · intro placed member
    simp [listing, member]
  · intro done ran
    have inside := side_sided bodyRuns gives ready.sound (by omega) (fun _ => Nat.le_refl _)
      ran
    have standsEnd : done.Stands function depth (start + 1 + body.size) :=
      stands_of_frames inside.toFrames stands (by rw [inside.offset, stands.offset]; omega)
    exact standsEnd.act_realizes (lies.reads ⟨_, .maskPop⟩ (by simp [listing])) rfl
      (by omega) (by omega) limit

/-- A conditional with two parts, up to the instruction that closes its scope. -/
theorem realized_sides {closing : Instruction} {count rightCount : Nat}
    (bodyRuns : body.Runs batch.program place bodyConduct)
    (otherwiseRuns : otherwise.Runs batch.program place otherwiseConduct)
    (bodyRealized : body.Realized batch limit bodyConduct)
    (otherwiseRealized : otherwise.Realized batch limit otherwiseConduct)
    (gives : body.Gives batch.program.functions count)
    (givesOtherwise : otherwise.Gives batch.program.functions rightCount)
    (inner : closing.inner = true)
    (size : block.size = 1 + body.size + 1 + otherwise.size + closing.width)
    (listed : ∀ start, block.listing start =
      ⟨start, .maskPush⟩ :: body.listing (start + 1) ++
        ⟨start + 1 + body.size, .maskNegate⟩ ::
          otherwise.listing (start + 1 + body.size + 1) ++
        [⟨start + 1 + body.size + 1 + otherwise.size, closing⟩])
    (addressable : ∀ start, block.Addressable start → body.Addressable (start + 1) ∧
      otherwise.Addressable (start + 1 + body.size + 1)) :
    block.Realized batch limit (fun machine =>
      sides batch bodyConduct otherwiseConduct machine >>= Machine.act batch closing) := by
  intro entry function depth start before ready lies stands
  have room := ready.room
  have wide : 0 < closing.width := closing.width_pos
  obtain ⟨bodyAddressable, otherwiseAddressable⟩ := addressable start lies.addressable
  have reads := lies.reads
  rw [listed] at reads
  refine Realizes.bind (sides_realizes bodyRuns bodyRealized otherwiseRealized gives
    givesOtherwise ready.sound (by omega) stands (reads ⟨_, .maskPush⟩ (by simp))
    (lies.part ?_ bodyAddressable) (reads ⟨_, .maskNegate⟩ (by simp))
    (lies.part ?_ otherwiseAddressable) (Nat.le_refl _) (by omega)) ?_
  · intro placed member
    simp [listed, member]
  · intro placed member
    simp [listed, member]
  · intro done ran
    have inside := sides_sided bodyRuns otherwiseRuns gives givesOtherwise ready.sound
      (by omega) (fun _ => Nat.le_refl _) ran
    have standsEnd : done.Stands function depth
        (start + 1 + body.size + 1 + otherwise.size) :=
      stands_of_frames inside.toFrames stands (by rw [inside.offset, stands.offset]; omega)
    exact standsEnd.act_realizes (reads ⟨_, closing⟩ (by simp)) inner (by omega) (by omega)
      limit

/-! ## Loops -/

variable {conditionConduct stepConduct next : Conduct} {tested : Machine}

/-- The instructions of a round are what is read where it starts. -/
structure RoundLies (condition body step : Block) (function : Function) (start : Nat) :
    Prop where
  conditionLies : condition.Lies function start
  tests : function.Reads (start + condition.size) .loopMask
  exits : function.Reads (start + condition.size + 1)
    (.branchIfAllFalse (.ofNat (start + span condition.size body.size step.size)))
  bodyLies : body.Lies function (start + condition.size + 1 + 3)
  resumes : function.Reads (start + condition.size + 1 + 3 + body.size) .loopNext
  stepLies : step.Lies function (start + condition.size + 1 + 3 + body.size + 1)
  repeats : function.Reads (start + condition.size + 1 + 3 + body.size + 1 + step.size)
    (.branch (.ofNat start))
  small : start + span condition.size body.size step.size < 2 ^ 16

theorem Lies.round (lies : (loop condition body step).Lies function start) :
    RoundLies condition body step function (start + 1) := by
  obtain ⟨small, conditionAddressable, bodyAddressable, stepAddressable⟩ :=
    lies.addressable
  constructor
  · exact lies.part (fun placed member => by simp [listing, member]) conditionAddressable
  · exact lies.reads ⟨_, .loopMask⟩ (by simp [listing])
  · exact lies.reads ⟨_, .branchIfAllFalse _⟩ (by simp [listing])
  · exact lies.part (fun placed member => by simp [listing, member]) bodyAddressable
  · exact lies.reads ⟨_, .loopNext⟩ (by simp [listing])
  · exact lies.part (fun placed member => by simp [listing, member]) stepAddressable
  · exact lies.reads ⟨_, .branch _⟩ (by simp [listing])
  · exact small

/-- Some rounds of a loop are what steps do. -/
def RoundsRealized (batch : Batch σ) (condition body step : Block) (limit : Nat)
    (conduct : Conduct) : Prop :=
  ∀ function depth start machine,
    RoundReady batch.program (span condition.size body.size step.size) machine →
      RoundLies condition body step function start →
        Machine.Stands function depth start machine →
          machine.Realizes batch
            (Between depth start (start + span condition.size body.size step.size)) limit
            (conduct machine)

/-- The rest of a round: going back to its start is a step of its own. -/
theorem turn_realizes {fewer : Nat} (bodyRuns : body.Runs batch.program .body bodyConduct)
    (stepRuns : step.Runs batch.program .edge stepConduct)
    (bodyRealized : body.Realized batch limit bodyConduct)
    (stepRealized : step.Realized batch limit stepConduct)
    (gives : body.Gives batch.program.functions 0)
    (givesStep : step.Gives batch.program.functions 0)
    (nextRealized : RoundsRealized batch condition body step fewer next)
    (bounded : fewer + 1 ≤ limit) (sound : tested.Sound batch.program) (calm : tested.Calm)
    (stands : tested.Stands function depth (start + condition.size + 1))
    (room : start + span condition.size body.size step.size ≤ function.code.length)
    (lies : RoundLies condition body step function start)
    (live : tested.live.any = true) :
    tested.Realizes batch
      (Between depth start (start + span condition.size body.size step.size)) (fewer + 1)
      (turn batch bodyConduct stepConduct next start tested) := by
  have bytes := span_eq condition.size body.size step.size
  have offset := stands.offset
  have code := stands.length
  have moved : (tested.jumped (tested.current.offset + 3)).Stands function depth
      (start + condition.size + 1 + 3) :=
    ⟨stands.function, by rw [← offset]; rfl, stands.callers⟩
  have entered : tested.Realizes batch
      (Between depth start (start + span condition.size body.size step.size)) limit
      (bodyConduct (tested.jumped (tested.current.offset + 3))) :=
    (Realizes.along (.single (stands.between (by omega) (by omega))
      (branch_moves_live (stands.upcoming lies.exits) live))
      (bodyRealized.within (ready_body gives sound (by omega)) lies.bodyLies moved (by omega)
        (by omega))).mono (fun _ held => held) (Nat.le_add_left _ _)
  refine Realizes.bind (entered.mono (fun _ held => held) bounded) ?_
  intro done ranBody
  obtain ⟨kept, _, doneOffset⟩ := body_kept bodyRuns gives sound (by omega) ranBody
  have doneStands : done.Stands function depth
      (start + condition.size + 1 + 3 + body.size) :=
    stands_of_frames kept.toFrames stands (by omega)
  refine Realizes.bind (doneStands.act_realizes lies.resumes rfl (by omega) (by omega) _) ?_
  intro resumed acted
  have rounded := resumed_rounded bodyRuns gives sound calm (by omega) ranBody acted
  have resumedStands : resumed.Stands function depth
      (start + condition.size + 1 + 3 + body.size + 1) :=
    stands_of_frames rounded.toFrames stands (by rw [rounded.offset]; omega)
  refine Realizes.bind ((stepRealized.within (ready_step rounded givesStep (by omega))
    lies.stepLies resumedStands (by omega) (by omega)).mono (fun _ held => held) bounded) ?_
  intro stepped ranStep
  have whole := stepped_rounded stepRuns givesStep rounded (by omega) ranStep
  have steppedStands : stepped.Stands function depth
      (start + condition.size + 1 + 3 + body.size + 1 + step.size) :=
    stands_of_frames whole.toFrames stands (by rw [whole.offset]; omega)
  have length := steppedStands.length
  have back := whole.jumped (show start ≤ _ by omega)
  rw [Nat.add_comm fewer 1]
  refine Realizes.along (.single (steppedStands.between (by omega) (by omega))
    (branch_moves (steppedStands.upcoming lies.repeats) (toNat_target ?_) (by omega))) ?_
  · have small := lies.small
    omega
  · refine nextRealized function depth start _ ⟨back.sound, ?_, back.calm⟩ lies
      (stands_of_frames back.toFrames stands rfl)
    change start + _ ≤ stepped.current.function.code.length
    omega

theorem rounds_realized (conditionRuns : condition.Runs batch.program .edge conditionConduct)
    (bodyRuns : body.Runs batch.program .body bodyConduct)
    (stepRuns : step.Runs batch.program .edge stepConduct)
    (conditionRealized : condition.Realized batch limit conditionConduct)
    (bodyRealized : body.Realized batch limit bodyConduct)
    (stepRealized : step.Realized batch limit stepConduct)
    (givesCondition : condition.Gives batch.program.functions 1)
    (gives : body.Gives batch.program.functions 0)
    (givesStep : step.Gives batch.program.functions 0) {count : Nat}
    (bounded : count ≤ limit) :
    RoundsRealized batch condition body step count
      (rounds batch (span condition.size body.size step.size) conditionConduct bodyConduct
        stepConduct count) := by
  induction count with
  | zero =>
      intro function depth start machine _ _ _
      exact ⟨0, machine, Nat.le_refl 0, .refl machine⟩
  | succ count induction =>
      intro function depth start machine ready lies stands
      have bytes := span_eq condition.size body.size step.size
      have room := ready.room
      have offset := stands.offset
      refine Realizes.bind ((conditionRealized.within
        (ready_part givesCondition ready.sound (by omega) rfl) lies.conditionLies stands
        (Nat.le_refl _) (by omega)).mono (fun _ held => held) bounded) ?_
      intro done ranCondition
      have ran := conditionRuns _ _ _
        (ready_part givesCondition ready.sound (by omega) rfl) ranCondition
      refine Realizes.bind ((Ran.stands ran stands).act_realizes lies.tests rfl (by omega)
        (by omega) _) ?_
      intro tested narrowed
      have test := tested_rounded conditionRuns givesCondition ready.sound ready.calm
        (by omega) ranCondition narrowed
      have testStands : tested.Stands function depth (start + condition.size + 1) :=
        stands_of_frames test.toFrames stands (by rw [test.offset]; omega)
      have length := stands.length
      have testLength := testStands.length
      cases live : tested.live.any with
      | true =>
          rw [Conduct.unlessIdle_live live, offset]
          exact turn_realizes bodyRuns stepRuns bodyRealized stepRealized gives givesStep
            (induction (Nat.le_of_succ_le bounded)) bounded test.sound test.calm testStands
            (by omega) lies live
      | false =>
          rw [Conduct.unlessIdle_idle live]
          refine ⟨1, .single (testStands.between (by omega) (by omega))
            (branch_moves_idle (testStands.upcoming lies.exits) ?_ (by omega) live)⟩
          rw [toNat_target lies.small, offset]

theorem realized_loop
    (conditionRuns : condition.Runs batch.program .edge (condition.exec batch run limit))
    (bodyRuns : body.Runs batch.program .body (body.exec batch run limit))
    (stepRuns : step.Runs batch.program .edge (step.exec batch run limit))
    (conditionRealized : condition.Realized batch limit (condition.exec batch run limit))
    (bodyRealized : body.Realized batch limit (body.exec batch run limit))
    (stepRealized : step.Realized batch limit (step.exec batch run limit))
    (givesCondition : condition.Gives batch.program.functions 1)
    (gives : body.Gives batch.program.functions 0)
    (givesStep : step.Gives batch.program.functions 0) :
    (loop condition body step).Realized batch limit
      ((loop condition body step).exec batch run limit) := by
  intro entry function depth start machine ready lies stands
  have room := ready.room
  have offset := stands.offset
  have size : (loop condition body step).size =
    1 + span condition.size body.size step.size + 1 := rfl
  refine Realizes.bind (stands.act_realizes (lies.reads _ List.mem_cons_self) rfl
    (Nat.le_refl _) (by omega) limit) ?_
  intro begun begins
  have beginning := Machine.act_single ready.sound rfl (by omega) rfl begins
  have begunStands : begun.Stands function depth (start + 1) :=
    stands_of_acted beginning stands
  have begunOffset := begunStands.offset
  have begunReady : RoundReady batch.program (span condition.size body.size step.size)
      begun :=
    ready_round ready.sound (by omega) begins
  refine Realizes.bind ((rounds_realized conditionRuns bodyRuns stepRuns conditionRealized
    bodyRealized stepRealized givesCondition gives givesStep (Nat.le_refl _) function depth
    (start + 1) begun begunReady lies.round begunStands).mono ?_ (Nat.le_refl _)) ?_
  · intro other between
    exact between.widen (by omega) (by omega)
  · intro done ranRounds
    have rounded := rounds_rounded conditionRuns bodyRuns stepRuns givesCondition gives
      givesStep limit _ _ begunReady ranRounds
    have doneStands : done.Stands function depth
        (start + 1 + span condition.size body.size step.size) :=
      stands_of_frames rounded.toFrames begunStands (by rw [rounded.offset, begunOffset])
    exact doneStands.act_realizes (lies.reads ⟨_, .loopEnd⟩ (by simp [listing])) rfl
      (by omega) (by omega) limit

/-! ## All blocks -/

/-- Carrying out a block is what the steps of a machine do, if that holds of its calls. -/
theorem exec_realizes (returns : run.Returns batch.program) (block : Block)
    (wellFormed : block.WellFormed batch.program.functions place)
    (calls : block.callFree = true ∨ ∀ function,
      (call function).Realized batch limit (exec batch run limit (call function))) :
    block.Realized batch limit (block.exec batch run limit) := by
  have ran := fun (place : Place) (block : Block) =>
    @exec_ran σ place batch run returns limit block
  induction block generalizing place with
  | skip =>
      intro entry function depth start machine _ _ _
      exact ⟨0, .refl machine⟩
  | plain instruction =>
      have inner := instruction.inner_of_stays (instruction.stays_of_plain wellFormed).1
      exact realized_single inner (fun start => List.mem_singleton.mpr rfl)
        instruction.width_pos
  | call function =>
      rcases calls with free | realized
      · cases free
      · exact realized function
  | seq first second firstRealized secondRealized =>
      have firstCalls := calls.imp_left fun free => (Bool.and_eq_true_iff.mp free).1
      have secondCalls := calls.imp_left fun free => (Bool.and_eq_true_iff.mp free).2
      exact realized_seq (ran place _ wellFormed.1) (firstRealized wellFormed.1 firstCalls)
        (secondRealized wellFormed.2 secondCalls)
  | guarded body bodyRealized =>
      exact realized_guarded (bodyRealized wellFormed.1 calls) wellFormed.2
  | when body bodyRealized =>
      exact realized_when (ran place _ wellFormed.1) (bodyRealized wellFormed.1 calls)
        wellFormed.2
  | choose body otherwise bodyRealized otherwiseRealized =>
      obtain ⟨⟨bodyForm, gives⟩, otherwiseForm, givesOtherwise⟩ := wellFormed
      have bodyCalls := calls.imp_left fun free => (Bool.and_eq_true_iff.mp free).1
      have otherwiseCalls := calls.imp_left fun free => (Bool.and_eq_true_iff.mp free).2
      exact realized_sides (ran place _ bodyForm) (ran place _ otherwiseForm)
        (bodyRealized bodyForm bodyCalls) (otherwiseRealized otherwiseForm otherwiseCalls)
        gives givesOtherwise rfl rfl (fun _ => rfl) fun _ addressable => addressable
  | blend count body otherwise bodyRealized otherwiseRealized =>
      obtain ⟨⟨bodyForm, gives⟩, otherwiseForm, givesOtherwise⟩ := wellFormed
      have bodyCalls := calls.imp_left fun free => (Bool.and_eq_true_iff.mp free).1
      have otherwiseCalls := calls.imp_left fun free => (Bool.and_eq_true_iff.mp free).2
      exact realized_sides (ran place _ bodyForm) (ran place _ otherwiseForm)
        (bodyRealized bodyForm bodyCalls) (otherwiseRealized otherwiseForm otherwiseCalls)
        gives givesOtherwise rfl rfl (fun _ => rfl) fun _ addressable => addressable
  | loop condition body step conditionRealized bodyRealized stepRealized =>
      obtain ⟨⟨conditionForm, givesCondition⟩, ⟨bodyForm, gives⟩, stepForm, givesStep⟩ :=
        wellFormed
      have headCalls := calls.imp_left fun free => (Bool.and_eq_true_iff.mp free).1
      have conditionCalls := headCalls.imp_left fun free => (Bool.and_eq_true_iff.mp free).1
      have bodyCalls := headCalls.imp_left fun free => (Bool.and_eq_true_iff.mp free).2
      have stepCalls := calls.imp_left fun free => (Bool.and_eq_true_iff.mp free).2
      exact realized_loop (ran _ _ conditionForm) (ran _ _ bodyForm) (ran _ _ stepForm)
        (conditionRealized conditionForm conditionCalls) (bodyRealized bodyForm bodyCalls)
        (stepRealized stepForm stepCalls) givesCondition gives givesStep
  | leave =>
      exact realized_single rfl (fun start => List.mem_singleton.mpr rfl) Nat.one_pos
  | again =>
      exact realized_single rfl (fun start => List.mem_singleton.mpr rfl) Nat.one_pos

theorem exec_realized (returns : run.Returns batch.program)
    (runRealized : run.Realized batch limit) (block : Block)
    (wellFormed : block.WellFormed batch.program.functions place) :
    block.Realized batch (limit + 1) (block.exec batch run (limit + 1)) :=
  exec_realizes returns block wellFormed (Or.inr (realized_call runRealized))

end Block

/-! ## Functions -/

namespace Plan

open Machine

variable {plan : Plan} {batch : Batch σ} {bound : Nat} {machine : Machine}

/-- The code of a function, up to its return, is carried out by steps. -/
theorem Describes.perform_realizes (describes : plan.Describes batch.program)
    (realized : Conduct.Realized batch bound (plan.serve batch bound))
    (sound : machine.Sound batch.program) (start : machine.current.offset = 0) :
    machine.Realizes batch (fun other => machine.callers.length ≤ other.callers.length)
      (bound + 1) (plan.perform batch bound machine) := by
  have structured := describes _ sound.running.known
  have block := Block.exec_realized (describes.serve_returns bound) realized _
    structured.wellFormed
  have lies : (plan machine.current.function).1.Lies machine.current.function 0 :=
    ⟨fun placed listed => structured.reads (List.mem_append_left _ listed),
      structured.addressable⟩
  refine (block _ _ _ 0 machine (describes.ready sound start) lies
    ⟨rfl, start, rfl⟩).mono ?_ (Nat.le_refl _)
  rintro other (deeper | ⟨same, _, _⟩)
  · exact Nat.le_of_lt deeper
  · exact Nat.le_of_eq same.symm

/-- The instruction behind the block of a function is its return. -/
theorem Describes.upcoming_ret (describes : plan.Describes batch.program)
    {before done : Machine} (sound : before.Sound batch.program)
    (start : before.current.offset = 0) (ran : plan.perform batch bound before = .ok done) :
    done.upcoming = .ok (.ret (plan before.current.function).2) := by
  have structured := describes _ sound.running.known
  have body := (describes.performed sound start ran).1
  have stands : done.Stands before.current.function before.callers.length
      (plan before.current.function).1.size :=
    Block.stands_of_frames body.toFrames ⟨rfl, start, rfl⟩
      (by rw [body.offset, start, Nat.zero_add])
  exact stands.upcoming
    (structured.reads (List.mem_append_right _ (List.mem_singleton.mpr rfl)))

/-- Carrying out a function is what the steps of a machine do. -/
theorem Describes.serve_realized (describes : plan.Describes batch.program) (bound : Nat) :
    Conduct.Realized batch bound (plan.serve batch bound) := by
  induction bound with
  | zero =>
      intro machine _ _ _
      exact ⟨0, machine, Nat.le_refl 0, .refl machine⟩
  | succ bound induction =>
      intro machine sound start waiting
      refine Realizes.bind (describes.perform_realizes induction sound start) ?_
      intro done ran
      have upcoming := describes.upcoming_ret sound start ran
      obtain ⟨body, room⟩ := describes.performed sound start ran
      have here : machine.callers.length ≤ done.callers.length :=
        Nat.le_of_eq (congrArg List.length body.callers).symm
      cases acted : done.act batch (.ret (plan machine.current.function).2) with
      | error stop =>
          obtain ⟨failure, carried, rfl⟩ := act_eq_error.mp acted
          refine ⟨0, done, .refl done, here, quiet_of_decoded upcoming rfl, ?_⟩
          rw [outcome_of_decoded upcoming, carried]
      | ok after =>
          obtain ⟨flow, carried, rfl⟩ := act_eq_ok.mp acted
          have moved : (done.advanced (.ret (plan machine.current.function).2)).Sound
              batch.program := body.sound.jumped room
          refine ⟨1, .single here ⟨quiet_of_decoded upcoming rfl, ?_⟩⟩
          rw [outcome_of_decoded upcoming, carried]
          cases (@ret_yields σ _ batch moved.fits _).of_ok carried with
          | resumed returns nested reserved =>
              rfl
          | finished returns outermost =>
              exact absurd (body.callers.symm.trans outermost) waiting

end Plan

end Lockstep
