import Lockstep.Proofs.LaneTracking

/-!
# Loops follow their lanes

A loop goes on for as long as any lane is in it, while the machine of a lane on
its own leaves at the first test that its lane does not pass.  From then on the
lane waits, in the whole machine, for the other lanes: nothing below the top of
the stack changes for it, and it stays out of the loop since it neither runs
nor waits for the next round.  `Block.Rounded.restored` finds it again as it
was when the rounds are over.

With loops, all blocks follow their lanes, `Block.exec_tracked`, and so do all
functions whose code is a block, `Plan.Describes.serve_tracked`.
-/

namespace Lockstep

variable {σ : Type}

namespace Block

open Machine

variable {program : Program} {batch : Batch σ} {bytes finish : Nat} {lanes : Mask}
variable {whole own final last : Machine} {who : Option Lane}

/-! ## Lanes that have left a loop -/

/-- Where the scopes are the same, the lanes that were live are in the mask. -/
theorem unmasked_of_frames {touched : Mask} {entry : Nat}
    (frames : Frames program touched entry whole final)
    (scopes : final.predicates.scopes = whole.predicates.scopes) :
    whole.live.Within final.predicates.mask := by
  unfold Predicates.mask
  rw [frames.occupied, scopes]
  exact .both_left _ _

/-- A lane in the mask that is not live has left the innermost loop. -/
theorem outside_of_idle {clean : Nat → Prop} (twins : Twins program clean who whole own)
    (idle : own.live.any = false) (unmasked : lanes.Within whole.predicates.mask)
    (heeds : Heeds lanes who) (lane : Lane) (watched : who = some lane) :
    whole.predicates.running.get lane = false := by
  subst watched
  have asleep := twins.idle_of_watched idle
  change (Lanes.both _ _).get lane = false at asleep
  rw [Lanes.get_both, unmasked lane (heeds lane rfl), Bool.true_and] at asleep
  exact asleep

/-- Lanes out of a loop stay out of it, and do not wait for its next round. -/
theorem Rounded.mirrors (rounded : Rounded program finish whole final)
    (ownRounded : Rounded program finish own last)
    (mirrors : whole.predicates.Mirrors (watching who) own.predicates)
    (outside : ∀ lane, who = some lane → whole.predicates.running.get lane = false) :
    final.predicates.Mirrors (watching who) last.predicates := by
  obtain ⟨loop, nested, narrower, _⟩ := rounded.loops
  obtain ⟨ownLoop, ownNested, ownNarrower, _⟩ := ownRounded.loops
  obtain ⟨_, _, same, none⟩ := rounded.calm
  obtain ⟨_, _, ownSame, ownNone⟩ := ownRounded.calm
  rw [nested] at same
  rw [ownNested] at ownSame
  cases same
  cases ownSame
  have around : List.Forall₂ (Loop.Mirrors (watching who)) whole.predicates.loops.tail
      own.predicates.loops.tail := by
    have loops := mirrors.loops
    generalize whole.predicates.loops = first, own.predicates.loops = second at loops
    cases loops with
    | nil =>
        exact .nil
    | cons _ outer =>
        exact outer
  refine ⟨?_, ?_, ?_⟩
  · rw [rounded.occupied, ownRounded.occupied]
    exact mirrors.occupied
  · rw [rounded.scopes, ownRounded.scopes]
    exact mirrors.scopes
  · rw [nested, ownNested]
    refine .cons ⟨?_, ?_⟩ around
    · intro lane target mapped
      have out := outside lane (watching_eq_some.mp mapped).1
      have ownOut := Predicates.runningWithin_mirrors mirrors.loops lane target mapped
      rw [narrower.idle out, ownNarrower.idle (ownOut.trans out)]
    · intro lane target _
      rw [none lane, ownNone target]

/-- A lane that has left a loop is found again as it was once the rounds are over. -/
theorem Rounded.restored {clean : Nat → Prop} (rounded : Rounded program finish whole final)
    (ownRounded : Rounded program finish own last)
    (twins : Twins program clean who whole own) (idle : own.live.any = false)
    (outside : ∀ lane, who = some lane → whole.predicates.running.get lane = false) :
    Twins program clean who final last := by
  have ownFrames := ownRounded.toFrames
  rw [twins.mirrors.top] at ownFrames
  refine ((twins.shadows whole.top).restored idle (Nat.le_refl _) rounded.toFrames ownFrames
    ?_ ?_ (rounded.mirrors ownRounded twins.mirrors.predicates outside)
    (ownRounded.live.any idle)).level (Nat.le_of_eq rounded.top)
  · rw [ownRounded.top, rounded.top]
    exact twins.mirrors.top
  · rw [rounded.current, ownRounded.current, rounded.offset, ownRounded.offset,
      twins.mirrors.current]

/-- A machine on its own that is in the loop of the whole machine. -/
structure Circling (program : Program) (clean : Nat → Prop) (who : Option Lane)
    (whole own : Machine) : Prop where
  twins : Twins program clean who whole own
  calm : own.Calm

/-- Some rounds of a loop do to a whole machine what they do to its live lanes. -/
def RoundsTracked (program : Program) (bytes : Nat) (conduct : Conduct) : Prop :=
  ∀ whole (clean : Option Lane → Nat → Prop), RoundReady program bytes whole →
    (∀ who, whole.Tidy whole.top (clean who)) →
      Tracks whole.live (fun who => Circling program (clean who) who whole)
        (fun final who => Circling program (clean who) who final) conduct whole

/-- A machine on its own is ready for a round with the whole machine. -/
theorem Circling.ready {clean : Nat → Prop} (circling : Circling program clean who whole own)
    (ready : RoundReady program bytes whole) : RoundReady program bytes own := by
  refine ⟨circling.twins.solo.sound, ?_, circling.calm⟩
  rw [circling.twins.mirrors.current]
  exact ready.room

/-- Rounds that some of the lanes that are watched have already left. -/
theorem RoundsTracked.within {conduct : Conduct} {clean : Option Lane → Nat → Prop}
    (tracked : RoundsTracked program bytes conduct)
    (runs : RoundsRun program bytes conduct) (ready : RoundReady program bytes whole)
    (tidy : ∀ who, whole.Tidy whole.top (clean who)) (narrow : whole.live.Within lanes)
    (unmasked : lanes.Within whole.predicates.mask) :
    Tracks lanes (fun who => Circling program (clean who) who whole)
      (fun final who => Circling program (clean who) who final) conduct whole := by
  have tracks := tracked whole clean ready tidy
  constructor
  · intro final ran who heeds own circling
    have twins := circling.twins
    cases awake : own.live.any with
    | true =>
        obtain ⟨lane, rfl, inside⟩ := twins.any_iff.mp awake
        exact tracks.succeeds final ran _ (heeds_some inside) own circling
    | false =>
        obtain ⟨last, ownRan, _⟩ := tracks.succeeds final ran none (heeds_none _) own
          ⟨twins.unwatched awake, circling.calm⟩
        have rounded := runs whole final ready ran
        have ownRounded := runs own last (circling.ready ready) ownRan
        rw [twins.mirrors.current] at ownRounded
        exact ⟨last, ownRan, rounded.restored ownRounded twins awake
          (outside_of_idle twins awake unmasked heeds), ownRounded.calm⟩
  · intro stop ran
    obtain ⟨who, ⟨heeds, silent⟩, stops⟩ := tracks.fails stop ran
    cases who with
    | some lane =>
        exact ⟨some lane, ⟨heeds.mono narrow, by rintro ⟨⟩⟩, stops⟩
    | none =>
        obtain ⟨other, speaks⟩ := exists_speaks lanes
        refine ⟨other, speaks, fun own circling => stops own ⟨?_, circling.calm⟩⟩
        exact circling.twins.unwatched (circling.twins.idle_of_all (silent rfl))

/-! ## Rounds -/

variable {condition body step : Block} {run : Conduct} {limit : Nat}
variable {conditionConduct bodyConduct stepConduct next : Conduct}
variable {clean : Option Lane → Nat → Prop}

/-- The lanes that run in a loop have a sensible condition; the others need none. -/
theorem narrowed_tracked {entry : Nat} {done : Machine} (sound : done.Sound batch.program)
    (room : done.current.offset < done.current.function.code.length)
    (top : done.top = entry + 1) (narrow : done.live.Within lanes)
    (unmasked : lanes.Within done.predicates.mask)
    (tidy : ∀ who, done.Tidy entry (clean who)) :
    Tracks lanes (fun who => Shadows batch.program entry (clean who) who done)
      (fun tested who last => tested.Mirrors (watching who) (clean who) last)
      (Machine.act batch .loopMask) done := by
  have moved : (done.advanced .loopMask).Sound batch.program := sound.jumped room
  refine @Tracks.act σ _ _ _ _ batch .loopMask
    (fun who _ final last => final.Mirrors (watching who)
      (fun position => clean who position ∧ position < entry) last)
    sound room narrow ?_ ?_
  · intro who own heeds shadows
    have below : (done.advanced .loopMask).Mirrors (watching who)
        (fun position => clean who position ∧ position < entry)
        (own.advanced .loopMask) :=
      (shadows.mirrors.advanced _).mono fun _ _ held => ⟨held.1, Or.inr held.2⟩
    refine Follows.mono (Follows.next (narrowLoop_follows moved.fits below ?_))
      fun _ _ => (·.machine)
    intro _ lane target mapped running
    obtain ⟨rfl, rfl⟩ := watching_eq_some.mp mapped
    have live : done.live.get lane = true := by
      change (Lanes.both _ _).get lane = true
      rw [Lanes.get_both, unmasked lane (heeds lane rfl), Bool.true_and]
      exact running
    have awake := (Twins.any_iff shadows).mpr ⟨lane, rfl, live⟩
    refine shadows.mirrors.locals _ ⟨tidy _ _ (Or.inr ?_), Or.inl awake⟩ ?_ lane 0 mapped
    · change entry ≤ done.top - 1
      omega
    · change done.top - 1 < done.top
      omega
  · intro final who own last ran _ _ _ mirrors
    have acted := Machine.act_single sound rfl room rfl ran
    have finalTop : final.top = done.top - 1 := acted.top
    exact mirrors.mono fun position below held => ⟨held, by omega⟩

/-- The condition of a round and the test of it. -/
theorem tested_tracked (conditionRuns : condition.Runs batch.program .edge conditionConduct)
    (conditionTracked : condition.Tracked batch.program conditionConduct)
    (gives : condition.Gives batch.program.functions 1)
    (ready : RoundReady batch.program bytes whole)
    (room : whole.current.offset + condition.size + 1 ≤
      whole.current.function.code.length)
    (tidy : ∀ who, whole.Tidy whole.top (clean who)) :
    Tracks whole.live (fun who => Circling batch.program (clean who) who whole)
      (fun tested who => Circling batch.program (clean who) who tested)
      (fun machine => conditionConduct machine >>= Machine.act batch .loopMask) whole := by
  have start : whole.Ready batch.program condition whole.top :=
    ready_part gives ready.sound (by omega) rfl
  have tracks : Tracks whole.live
      (fun who => Circling batch.program (clean who) who whole)
      (fun tested who own => tested.Mirrors (watching who) (clean who) own)
      (fun machine => conditionConduct machine >>= Machine.act batch .loopMask) whole := by
    refine Tracks.bind ((conditionTracked _ _ clean start tidy).given
      fun who own circling => circling.twins.shadows _) ?_
    intro done ran
    have conditionRan := conditionRuns _ _ _ start ran
    refine narrowed_tracked conditionRan.sound ?_ (conditionRan.gave gives rfl)
      conditionRan.live (unmasked_of_frames conditionRan.toFrames conditionRan.scopes)
      fun who => conditionRan.toFrames.tidy (tidy who) (Nat.le_refl _)
    rw [conditionRan.offset, conditionRan.function]
    exact room
  refine tracks.imp (fun _ _ _ circling => circling) ?_
  intro final who own last _ _ circling ownRan mirrors
  obtain ⟨done, ranCondition, narrowed⟩ := bind_eq_ok.mp ownRan
  have twins := circling.twins
  have rounded := tested_rounded conditionRuns gives twins.solo.sound circling.calm
    (by rw [twins.mirrors.current]; exact room) ranCondition narrowed
  refine ⟨⟨rounded.toFrames.solo twins.solo, mirrors, fun unwatched => ?_⟩, rounded.calm⟩
  exact rounded.live.any (twins.idle unwatched)

/-- The body of a round, for the lanes that pass its test. -/
theorem body_tracked {tested : Machine} (bodyRuns : body.Runs batch.program .body bodyConduct)
    (bodyTracked : body.Tracked batch.program bodyConduct)
    (gives : body.Gives batch.program.functions 0)
    (sound : tested.Sound batch.program)
    (room : tested.current.offset + (3 + body.size) ≤ tested.current.function.code.length)
    (tidy : ∀ who, tested.Tidy tested.top (clean who)) :
    Tracks tested.live
      (fun who own => Circling batch.program (clean who) who tested own ∧
        own.live.any = true)
      (fun done who own => Twins batch.program (clean who) who done own ∧
        ∃ lane, who = some lane)
      (fun machine => bodyConduct (machine.jumped (machine.current.offset + 3)))
      tested := by
  have jumps : Tracks tested.live
      (fun who own => Circling batch.program (clean who) who tested own ∧
        own.live.any = true)
      (fun moved who => Shadows batch.program tested.top (clean who) who moved)
      (fun machine => .ok (machine.jumped (machine.current.offset + 3))) tested := by
    apply Tracks.pure
    rintro who own _ ⟨circling, _⟩
    rw [circling.twins.mirrors.current]
    exact (circling.twins.jumped (by omega)).shadows _
  have tracks := Tracks.bind jumps fun moved ran => by
    cases ran
    exact bodyTracked _ _ clean (ready_body gives sound room) tidy
  refine tracks.imp (fun _ _ _ given => given) ?_
  rintro done who own last ran _ ⟨circling, awake⟩ _ shadows
  obtain ⟨lane, watched, _⟩ := circling.twins.any_iff.mp awake
  have top := (body_kept bodyRuns gives sound room ran).2.1
  exact ⟨Shadows.level shadows (Nat.le_of_eq top), lane, watched⟩

/-- The lanes that wait for the next round, and the step before it. -/
theorem stepped_tracked {tested done : Machine}
    (bodyRuns : body.Runs batch.program .body bodyConduct)
    (stepRuns : step.Runs batch.program .edge stepConduct)
    (stepTracked : step.Tracked batch.program stepConduct)
    (gives : body.Gives batch.program.functions 0)
    (givesStep : step.Gives batch.program.functions 0)
    (sound : tested.Sound batch.program) (calm : tested.Calm)
    (room : tested.current.offset + (3 + body.size + 1 + step.size) ≤
      tested.current.function.code.length)
    (tidy : ∀ who, tested.Tidy tested.top (clean who))
    (ran : bodyConduct (tested.jumped (tested.current.offset + 3)) = .ok done) :
    Tracks tested.live
      (fun who own => Twins batch.program (clean who) who done own ∧
        ∃ lane, who = some lane)
      (fun stepped who => Circling batch.program (clean who) who stepped)
      (fun machine => machine.act batch .loopNext >>= stepConduct) done := by
  obtain ⟨kept, _, offset⟩ := body_kept bodyRuns gives sound (by omega) ran
  have roomNext : done.current.offset + Instruction.loopNext.width ≤
      done.current.function.code.length := by
    rw [offset, kept.function]
    change _ + 1 ≤ _
    omega
  refine Tracks.bind (Tracks.stays rfl kept.sound roomNext kept.live
    (fun who own _ given => given.1)
    (fun who => (kept.toFrames.tidy (tidy who) (Nat.le_refl _)).frame)
    fun who => exposes_none _) ?_
  intro resumed acted
  have rounded := resumed_rounded bodyRuns gives sound calm (by omega) ran acted
  have ready := ready_step rounded givesStep (by omega)
  have tracks := stepTracked.within stepRuns ready
    (fun who => rounded.toFrames.tidy (tidy who) (Nat.le_refl _)) rounded.live
  refine tracks.imp ?_ ?_
  · intro who own _ stayed
    obtain ⟨origin, ⟨twins, lane, rfl⟩, ownActed⟩ := stayed.own
    exact Twins.shadows ⟨ownActed.toFrames.solo twins.solo, stayed.mirrors, by rintro ⟨⟩⟩ _
  · intro stepped who own last ranStep _ stayed ownRan shadows
    obtain ⟨origin, ⟨twins, lane, rfl⟩, ownActed⟩ := stayed.own
    have top := (stepped_rounded stepRuns givesStep rounded (by omega) ranStep).top
    have ownReady := (Twins.shadows ⟨ownActed.toFrames.solo twins.solo, stayed.mirrors,
      by rintro ⟨⟩⟩ tested.top).ready ready
    have ownRan := stepRuns _ _ _ ownReady ownRan
    exact ⟨Shadows.level shadows (Nat.le_of_eq top), ownRan.toKept.calm ownActed.calmed⟩

/-- The rest of a round and the rounds after it, for the lanes that pass its test. -/
theorem turn_tracked {start : Nat} {tested : Machine}
    (bodyRuns : body.Runs batch.program .body bodyConduct)
    (stepRuns : step.Runs batch.program .edge stepConduct)
    (nextRuns : RoundsRun batch.program bytes next)
    (bodyTracked : body.Tracked batch.program bodyConduct)
    (stepTracked : step.Tracked batch.program stepConduct)
    (nextTracked : RoundsTracked batch.program bytes next)
    (gives : body.Gives batch.program.functions 0)
    (givesStep : step.Gives batch.program.functions 0)
    (sound : tested.Sound batch.program) (calm : tested.Calm)
    (room : tested.current.offset + (3 + body.size + 1 + step.size) ≤
      tested.current.function.code.length)
    (inside : start + bytes ≤ tested.current.function.code.length)
    (tidy : ∀ who, tested.Tidy tested.top (clean who)) :
    Tracks tested.live
      (fun who own => Circling batch.program (clean who) who tested own ∧
        own.live.any = true)
      (fun final who => Circling batch.program (clean who) who final)
      (turn batch bodyConduct stepConduct next start) tested := by
  have unfolded : turn batch bodyConduct stepConduct next start = fun machine =>
      bodyConduct (machine.jumped (machine.current.offset + 3)) >>= fun done =>
        (done.act batch .loopNext >>= stepConduct) >>= fun stepped =>
          next (stepped.jumped start) := by
    funext machine
    simp only [turn, bind_assoc]
  rw [unfolded]
  refine Tracks.bind (body_tracked bodyRuns bodyTracked gives sound (by omega) tidy) ?_
  intro done ranBody
  refine Tracks.bind (stepped_tracked bodyRuns stepRuns stepTracked gives givesStep sound
    calm room tidy ranBody) ?_
  intro stepped ran
  obtain ⟨resumed, acted, ranStep⟩ := bind_eq_ok.mp ran
  have rounded := stepped_rounded stepRuns givesStep
    (resumed_rounded bodyRuns gives sound calm (by omega) ranBody acted) (by omega) ranStep
  have back := rounded.jumped (show start ≤ _ by omega)
  have jumps : Tracks tested.live
      (fun who => Circling batch.program (clean who) who stepped)
      (fun moved who => Circling batch.program (clean who) who moved)
      (fun machine => .ok (machine.jumped start)) stepped := by
    apply Tracks.pure
    intro who own _ circling
    refine ⟨circling.twins.jumped ?_, circling.calm⟩
    rw [rounded.function]
    omega
  refine Tracks.bind jumps ?_
  rintro _ ⟨⟩
  exact nextTracked.within nextRuns
    ⟨back.sound, by rw [back.function]; exact inside, back.calm⟩
    (fun who => back.toFrames.tidy (tidy who) (Nat.le_of_eq back.top.symm)) back.live
    (unmasked_of_frames back.toFrames back.scopes)

theorem rounds_tracked
    (conditionRuns : condition.Runs batch.program .edge conditionConduct)
    (bodyRuns : body.Runs batch.program .body bodyConduct)
    (stepRuns : step.Runs batch.program .edge stepConduct)
    (conditionTracked : condition.Tracked batch.program conditionConduct)
    (bodyTracked : body.Tracked batch.program bodyConduct)
    (stepTracked : step.Tracked batch.program stepConduct)
    (givesCondition : condition.Gives batch.program.functions 1)
    (gives : body.Gives batch.program.functions 0)
    (givesStep : step.Gives batch.program.functions 0) (limit : Nat) :
    RoundsTracked batch.program (span condition.size body.size step.size)
      (rounds batch (span condition.size body.size step.size) conditionConduct
        bodyConduct stepConduct limit) := by
  induction limit with
  | zero =>
      intro whole clean ready tidy
      obtain ⟨who, speaks⟩ := exists_speaks whole.live
      refine ⟨by rintro final ⟨⟩, ?_⟩
      rintro stop ⟨⟩
      exact ⟨who, speaks, fun own _ => ⟨.exhausted, rfl, trivial⟩⟩
  | succ limit induction =>
      intro whole clean ready tidy
      have room := ready.room
      have spanned := span_eq condition.size body.size step.size
      generalize bytesEq : span condition.size body.size step.size = bytes at *
      have nextRuns := rounds_rounded conditionRuns bodyRuns stepRuns givesCondition gives
        givesStep limit
      rw [bytesEq] at nextRuns
      -- The offset of the round is the same for all machines concerned.
      refine @Tracks.congr _ _ _ (fun machine =>
        (conditionConduct machine >>= Machine.act batch .loopMask) >>=
          (turn batch bodyConduct stepConduct (rounds batch bytes conditionConduct
            bodyConduct stepConduct limit) whole.current.offset).unlessIdle
              (·.jumped (whole.current.offset + bytes))) _ _ ?_ ?_ ?_
      · refine Tracks.bind (tested_tracked conditionRuns conditionTracked givesCondition ready
          (by omega) tidy) ?_
        intro tested ran
        obtain ⟨done, ranCondition, narrowed⟩ := bind_eq_ok.mp ran
        have test := tested_rounded conditionRuns givesCondition ready.sound ready.calm
          (by omega) ranCondition narrowed
        have offset := test.offset
        have function := test.function
        have roomTested : tested.current.offset + (3 + body.size + 1 + step.size) ≤
            tested.current.function.code.length := by
          rw [function]
          omega
        rw [← function] at room
        refine Tracks.unlessIdle test.live (fun who own circling => circling.twins.any_iff)
          ?_ ?_
        · intro _
          exact turn_tracked bodyRuns stepRuns nextRuns bodyTracked stepTracked induction
            gives givesStep test.sound test.calm roomTested room fun who =>
              test.toFrames.tidy (tidy who) (Nat.le_of_eq test.top.symm)
        · intro final ranRest who own heeds circling idle
          have twins := circling.twins
          have rounded : Rounded batch.program (whole.current.offset + bytes) tested
              final := by
            unfold Conduct.unlessIdle at ranRest
            split at ranRest
            · exact turn_rounded bodyRuns stepRuns gives givesStep nextRuns test.sound
                test.calm roomTested room ranRest
            · cases ranRest
              exact rounded_jumped test.sound test.calm room
          have ownRounded := @rounded_jumped batch.program own
            (whole.current.offset + bytes) twins.solo.sound circling.calm
            (by rw [twins.mirrors.current]; exact room)
          exact ⟨rounded.restored ownRounded twins idle (outside_of_idle twins idle
            (unmasked_of_frames test.toFrames test.scopes) heeds), circling.calm⟩
      · simp only [rounds, bind_assoc]
      · intro who own circling
        simp only [rounds, bind_assoc, circling.twins.mirrors.current]

theorem tracked_loop
    (conditionRuns : condition.Runs batch.program .edge (condition.exec batch run limit))
    (bodyRuns : body.Runs batch.program .body (body.exec batch run limit))
    (stepRuns : step.Runs batch.program .edge (step.exec batch run limit))
    (conditionTracked : condition.Tracked batch.program (condition.exec batch run limit))
    (bodyTracked : body.Tracked batch.program (body.exec batch run limit))
    (stepTracked : step.Tracked batch.program (step.exec batch run limit))
    (givesCondition : condition.Gives batch.program.functions 1)
    (gives : body.Gives batch.program.functions 0)
    (givesStep : step.Gives batch.program.functions 0) :
    (loop condition body step).Tracked batch.program
      ((loop condition body step).exec batch run limit) := by
  have runs : (loop condition body step).Runs batch.program .outside _ :=
    runs_loop conditionRuns bodyRuns stepRuns givesCondition gives givesStep
  refine tracked_of_mirrors runs ?_
  intro entry whole clean ready tidy
  have room := ready.room
  unfold size at room
  have level := ready.level
  have width : Instruction.loopBegin.width = 1 := rfl
  refine Tracks.bind (Tracks.stays rfl ready.sound (by omega) (.refl _)
    (fun who own heeds shadows => Shadows.twins shadows heeds)
    (fun who => (tidy who).frame) fun who => exposes_none _) ?_
  intro begun begins
  have beginning := Machine.act_single ready.sound rfl (by omega) rfl begins
  obtain ⟨live, calm, _, _⟩ := beginning.begun
  have begunTop : begun.top = whole.top := beginning.top
  have begunOffset : begun.current.offset = whole.current.offset + 1 := beginning.offset
  have start : RoundReady batch.program (span condition.size body.size step.size) begun :=
    ready_round ready.sound (by omega) begins
  have tidyBegun : ∀ who, begun.Tidy begun.top (clean who) := fun who =>
    beginning.toFrames.tidy (tidy who) (by omega)
  have rounds := rounds_tracked conditionRuns bodyRuns stepRuns conditionTracked bodyTracked
    stepTracked givesCondition gives givesStep limit begun clean start tidyBegun
  rw [live] at rounds
  refine Tracks.bind (rounds.given ?_) ?_
  · intro who own stayed
    obtain ⟨origin, shadows, ownActed⟩ := stayed.own
    obtain ⟨ownLive, ownCalm, _, _⟩ := ownActed.begun
    refine ⟨⟨ownActed.toFrames.solo shadows.solo, stayed.mirrors, fun unwatched => ?_⟩,
      ownCalm⟩
    rw [ownLive]
    exact shadows.idle unwatched
  · intro done ranRounds
    have rounded := rounds_rounded conditionRuns bodyRuns stepRuns givesCondition gives
      givesStep limit begun done start ranRounds
    have doneOffset := rounded.offset
    have roomEnd : done.current.offset + Instruction.loopEnd.width ≤
        done.current.function.code.length := by
      rw [doneOffset, rounded.function, beginning.function]
      change _ + 1 ≤ _
      omega
    refine (Tracks.stays rfl rounded.sound roomEnd (live ▸ rounded.live)
      (fun who own _ circling => circling.twins)
      (fun who => (rounded.toFrames.tidy (tidyBegun who) (Nat.le_refl _)).frame)
      fun who => exposes_none _).relax ?_
    intro final who last stayed
    exact stayed.mirrors.mono fun _ _ held => held.1

/-! ## All blocks -/

/-- Every block does to a whole machine what it does to its lanes on their own. -/
theorem exec_tracked {place : Place} (returns : run.Returns batch.program)
    (runTracked : run.Tracked batch.program) (limit : Nat) (block : Block)
    (wellFormed : block.WellFormed batch.program.functions place) :
    block.Tracked batch.program (block.exec batch run limit) := by
  have ran := fun (place : Place) (block : Block) =>
    @exec_ran σ place batch run returns limit block
  induction block generalizing place with
  | skip =>
      intro entry whole clean _ _
      exact @Tracks.pure _ _ _ _ id fun who own _ shadows => shadows
  | plain instruction =>
      exact tracked_plain wellFormed
  | call function =>
      exact tracked_call returns runTracked function limit
  | seq first second firstTracked secondTracked =>
      exact tracked_seq (ran place _ wellFormed.1) (ran place _ wellFormed.2)
        (firstTracked wellFormed.1) (secondTracked wellFormed.2)
  | guarded body bodyTracked =>
      exact tracked_guarded (ran place _ wellFormed.1) (bodyTracked wellFormed.1) wellFormed.2
  | when body bodyTracked =>
      exact tracked_when (ran place _ wellFormed.1) (bodyTracked wellFormed.1) wellFormed.2
  | choose body otherwise bodyTracked otherwiseTracked =>
      obtain ⟨⟨bodyForm, gives⟩, otherwiseForm, givesOtherwise⟩ := wellFormed
      exact tracked_choose (ran place _ bodyForm) (ran place _ otherwiseForm)
        (bodyTracked bodyForm) (otherwiseTracked otherwiseForm) gives givesOtherwise
  | blend count body otherwise bodyTracked otherwiseTracked =>
      obtain ⟨⟨bodyForm, gives⟩, otherwiseForm, givesOtherwise⟩ := wellFormed
      exact tracked_blend (ran place _ bodyForm) (ran place _ otherwiseForm)
        (bodyTracked bodyForm) (otherwiseTracked otherwiseForm) gives givesOtherwise
  | loop condition body step conditionTracked bodyTracked stepTracked =>
      obtain ⟨⟨conditionForm, givesCondition⟩, ⟨bodyForm, gives⟩, stepForm, givesStep⟩ :=
        wellFormed
      exact tracked_loop (ran _ _ conditionForm) (ran _ _ bodyForm) (ran _ _ stepForm)
        (conditionTracked conditionForm) (bodyTracked bodyForm) (stepTracked stepForm)
        givesCondition gives givesStep
  | leave =>
      exact tracked_single rfl rfl (fun _ _ => Nat.zero_le _) (runs_leave wellFormed)
  | again =>
      cases wellFormed
      exact tracked_single rfl rfl (fun _ _ => Nat.zero_le _) runs_again

end Block

/-! ## Functions -/

namespace Plan

open Machine

variable {plan : Plan} {batch : Batch σ}

/-- A function does to a whole machine what it does to its lanes, up to its return. -/
theorem Describes.perform_tracked (describes : plan.Describes batch.program) {bound : Nat}
    (tracked : Conduct.Tracked batch.program (plan.serve batch bound)) {whole : Machine}
    {clean : Option Lane → Nat → Prop} (sound : whole.Sound batch.program)
    (start : whole.current.offset = 0)
    (tidy : ∀ who, whole.Tidy whole.current.floor (clean who)) :
    Tracks whole.live (fun who => Twins batch.program (clean who) who whole)
      (fun done who => Twins batch.program (clean who) who done)
      (plan.perform batch bound) whole := by
  have structured := describes _ sound.running.known
  have block := Block.exec_tracked (describes.serve_returns bound) tracked (bound + 1) _
    structured.wellFormed _ whole clean (describes.ready sound start) tidy
  refine (@Tracks.congr _ _ _ _ (plan.perform batch bound) _ block rfl ?_).imp
    (fun who own _ twins => Twins.shadows twins _) ?_
  · intro who own shadows
    unfold perform
    rw [shadows.mirrors.current]
  · intro done who own last ran heeds _ _ shadows
    have same := (describes.performed sound start ran).1.predicates_eq
    refine Shadows.twins shadows fun lane watched => ?_
    change done.predicates.live.get lane = true
    rw [same]
    exact heeds lane watched

/-- Machines that have come to the return of a function carry it out in step. -/
theorem Describes.ret_follows (describes : plan.Describes batch.program) {bound : Nat}
    {whole done last : Machine} {clean : Nat → Prop} {who : Option Lane}
    (sound : whole.Sound batch.program) (start : whole.current.offset = 0)
    (tidy : whole.Tidy whole.current.floor clean)
    (ran : plan.perform batch bound whole = .ok done)
    (twins : Twins batch.program clean who done last) (count : UInt8) :
    Follows (watching who) (Flow.Mirrors (watching who) clean)
      ((done.advanced (.ret count)).carry batch (.ret count))
      ((last.advanced (.ret count)).carry batch (.ret count)) := by
  obtain ⟨body, room⟩ := describes.performed sound start ran
  have moved : (done.advanced (.ret count)).Sound batch.program := body.sound.jumped room
  refine Machine.ret_follows moved.fits (twins.mirrors.advanced _) moved.running.arguments
    _ ?_
  exact (body.toFrames.tidy tidy (Nat.le_refl _)).exposes (Or.inl body.floor)

/-- With its return, a function leaves machines that mirror each other. -/
theorem Describes.serve_mirrors (describes : plan.Describes batch.program) {bound : Nat}
    (tracked : Conduct.Tracked batch.program (plan.serve batch bound)) {whole : Machine}
    {clean : Option Lane → Nat → Prop} (sound : whole.Sound batch.program)
    (start : whole.current.offset = 0)
    (tidy : ∀ who, whole.Tidy whole.current.floor (clean who)) :
    Tracks whole.live (fun who => Twins batch.program (clean who) who whole)
      (fun final who last => final.Mirrors (watching who) (clean who) last)
      (plan.serve batch (bound + 1)) whole := by
  refine @Tracks.congr _ _ _ (fun machine => plan.perform batch bound machine >>=
    Machine.act batch (.ret (plan whole.current.function).2)) _ whole ?_ rfl ?_
  · refine Tracks.bind (describes.perform_tracked tracked sound start tidy) ?_
    intro done ran
    obtain ⟨body, room⟩ := describes.performed sound start ran
    refine @Tracks.act σ _ _ _ _ batch _
      (fun who _ final last => final.Mirrors (watching who) (clean who) last)
      body.sound room body.live ?_ fun _ _ _ _ _ _ _ _ mirrors => mirrors
    intro who own _ twins
    exact (describes.ret_follows sound start (tidy who) ran twins _).mono
      fun _ _ => (·.machine)
  · intro who own twins
    unfold serve perform
    rw [twins.mirrors.current]

/-- A function does to a whole machine what it does to its lanes. -/
theorem Describes.serve_tracked (describes : plan.Describes batch.program) (bound : Nat) :
    Conduct.Tracked batch.program (plan.serve batch bound) := by
  induction bound with
  | zero =>
      intro whole clean sound start waiting tidy
      obtain ⟨who, speaks⟩ := exists_speaks whole.live
      refine ⟨by rintro final ⟨⟩, ?_⟩
      rintro stop ⟨⟩
      exact ⟨who, speaks, fun own _ => ⟨.exhausted, rfl, trivial⟩⟩
  | succ bound induction =>
      intro whole clean sound start waiting tidy
      refine (describes.serve_mirrors induction sound start tidy).imp
        (fun _ _ _ twins => twins) ?_
      intro final who own last _ _ twins ownRan mirrors
      have current := twins.mirrors.current
      have answers := describes.serve_returns (bound + 1) own last twins.solo.sound
        (by rw [current]; exact start) (by rw [twins.mirrors.callers]; exact waiting) ownRan
      refine ⟨⟨answers.sound, ?_⟩, mirrors, fun unwatched => ?_⟩
      · rw [answers.predicates]
        exact twins.solo.occupied
      · change last.predicates.live.any = false
        rw [answers.predicates]
        exact twins.idle unwatched

end Plan

end Lockstep
