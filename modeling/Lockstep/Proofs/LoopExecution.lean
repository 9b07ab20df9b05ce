import Lockstep.Proofs.LaneExecution

/-!
# Each lane goes through the rounds of a loop on its own

The rounds of a loop go on until the last lane has left it.  A lane that leaves
earlier keeps what it has, so that it ends as the element in it does when it
goes through the loop alone, however many rounds the others need.

`Block.exec_shows` collects this for all blocks that call no functions.
-/

namespace Lockstep

variable {σ : Type}

namespace Machine

variable {batch : Batch σ} {lane : Lane} {entry : Nat} {before after : Machine}
variable {state final : Element} {exit : Exit}

theorem Calm.parked (calm : after.Calm) (lane : Lane) :
    after.predicates.parked.get lane = false := by
  obtain ⟨loop, outer, nested, none⟩ := calm
  unfold Predicates.parked
  rw [nested]
  exact none lane

/-- A lane does not go on with the next round where no lane waits for it. -/
theorem Arrives.ne_again (arrives : Arrives batch lane entry before exit state after)
    (calm : after.Calm) : exit ≠ .again := by
  rintro rfl
  have parked := arrives.parked
  rw [calm.parked] at parked
  cases parked

end Machine

namespace Block

open Machine (Arrives Ends Holds Rests Steady Unmoved)

variable {batch : Batch σ} {lane : Lane} {place : Place} {run : Conduct}
variable {condition body step : Block} {conditionConduct bodyConduct stepConduct : Conduct}
variable {before tested done resumed stepped after : Machine} {state final : Element}
variable {next : Conduct} {start bytes finish : Nat}

/-- A lane that is out of a loop keeps what it has. -/
theorem Rounded.unmoved (rounded : Rounded batch.program finish before after)
    (idle : before.live.get lane = false) : Unmoved lane before.top before after :=
  ⟨rounded.current, fun bank position => rounded.cells bank position lane idle⟩

/-- A lane behind a loop that the element in it has gone through. -/
structure Leaves (batch : Batch σ) (lane : Lane) (before : Machine) (state final : Element)
    (after : Machine) : Prop extends Holds batch lane after final where
  steady : Steady lane before.top before after
  operands : final.operands = state.operands

/-- A lane that has left a loop. -/
theorem leaves_of_unmoved {middle : Machine} (holds : Holds batch lane middle final)
    (sound : middle.Sound batch.program) (steady : Steady lane before.top before middle)
    (top : middle.top = before.top) (unmoved : Unmoved lane middle.top middle after)
    (operands : final.operands = state.operands) :
    Leaves batch lane before state final after :=
  ⟨unmoved.holds sound.frame_le holds,
    steady.trans (unmoved.steady.mono (Nat.le_of_eq top.symm)), operands⟩

/-- A lane that stays in a loop before it leaves it. -/
theorem Leaves.staying {middle : Machine}
    (leaves : Leaves batch lane middle state final after)
    (steady : Steady lane before.top before middle) (top : middle.top = before.top) :
    Leaves batch lane before state final after :=
  ⟨leaves.toHolds, steady.trans (leaves.steady.mono (Nat.le_of_eq top.symm)),
    leaves.operands⟩

/-- Rounds of a loop that each live lane goes through as the element in it does. -/
def RoundsShow (batch : Batch σ) (condition body step : Block) (conduct : Conduct) : Prop :=
  ∀ lane state before after,
    RoundReady batch.program (span condition.size body.size step.size) before →
    Holds batch lane before state → before.live.get lane = true →
    conduct before = .ok after →
      ∃ final, Element.Executes batch.uniforms (loop condition body step) state .normal final ∧
        Leaves batch lane before state final after

/-! ## Rounds -/

/-- A lane that a test keeps in its loop. -/
theorem running_narrowed (acted : Machine.Acted batch.program .loopMask done tested) :
    tested.predicates.running.get lane =
      (done.predicates.running.get lane && meets done lane) := by
  obtain ⟨loop, outer, nested, changed⟩ := acted.onLoops rfl rfl
  unfold Predicates.running
  rw [changed, nested]
  change (Lanes.both _ _).get lane = _
  rw [Lanes.get_both, Lanes.get_truthy]
  rfl

/-- A condition on top of the operands of a lane. -/
theorem test_shown {base : List Word} {level : Nat} (top : done.top = level + 1)
    (holds : Holds batch lane done final)
    (operands : final.operands = base ++ done.words lane .local level 1) :
    ∃ inner, final.test? = some (meets done lane, inner) ∧ Holds batch lane done inner ∧
      inner.operands = base := by
  have final_eq : final = done.element batch lane level base := by
    refine holds.eq_element ?_
    rw [operands, top, Nat.add_sub_cancel_left]
  subst final_eq
  refine ⟨_, Machine.test?_element (Nat.le_of_eq top.symm), ⟨rfl, rfl⟩, ?_⟩
  change base ++ Machine.words _ _ _ _ (done.top - 1 - level) = _
  rw [top, Nat.add_sub_cancel, Nat.sub_self]
  exact List.append_nil _

/-- A lane at the test of a round has left the loop, or goes on to the body. -/
theorem tested_shown (conditionRuns : condition.Runs batch.program .edge conditionConduct)
    (conditionShown : condition.Shows batch conditionConduct)
    (givesCondition : condition.Gives batch.program.functions 1)
    (sound : before.Sound batch.program) (calm : before.Calm)
    (room : before.current.offset + condition.size + 1 ≤
      before.current.function.code.length)
    (holds : Holds batch lane before state) (live : before.live.get lane = true)
    (ran : conditionConduct before = .ok done)
    (narrowed : done.act batch .loopMask = .ok tested) :
    Steady lane before.top before tested ∧
      ((tested.live.get lane = false ∧ ∃ final,
          Element.Executes batch.uniforms (loop condition body step) state .normal final ∧
          Holds batch lane tested final ∧ final.operands = state.operands) ∨
        (tested.live.get lane = true ∧ ∃ last inner,
          Element.Executes batch.uniforms condition state .normal last ∧
          last.test? = some (true, inner) ∧ Holds batch lane tested inner)) := by
  have ready : before.Ready batch.program condition before.top :=
    Machine.ready_part givesCondition sound (by omega) rfl
  have conditionRan := conditionRuns _ _ _ ready ran
  have top := conditionRan.gave givesCondition rfl
  have inside : done.current.offset < done.current.function.code.length := by
    rw [conditionRan.offset, conditionRan.function]
    exact room
  have unmoved : Unmoved lane (done.top - 1) done tested :=
    Machine.act_unmoved_single conditionRan.sound rfl inside rfl rfl narrowed lane
  rw [top, Nat.add_sub_cancel] at unmoved
  have frame : done.current.base + done.current.function.frameSize ≤ before.top := by
    rw [conditionRan.sound.fits.frame_eq, conditionRan.floor]
    exact sound.floor
  have running := @running_narrowed σ batch lane tested done
    (Machine.act_single conditionRan.sound rfl inside rfl narrowed)
  obtain ⟨exit, last, executes, arrives, operands⟩ :=
    conditionShown.part conditionRuns givesCondition ready holds live ran
  rw [arrives.running] at running
  refine ⟨arrives.steady.trans unmoved.steady, ?_⟩
  cases exit with
  | again =>
      exact absurd rfl (arrives.ne_again (conditionRan.toKept.calm calm))
  | leave =>
      have held := unmoved.holds frame arrives.toHolds
      exact Or.inl ⟨idle_of_running running, _, .loopLeftEarly executes,
        ⟨held.slots, held.globals⟩, rfl⟩
  | normal =>
      obtain ⟨inner, test, held, same⟩ := test_shown top arrives.toHolds (operands rfl)
      have stays := unmoved.holds frame held
      cases met : meets done lane with
      | false =>
          rw [met] at running test
          exact Or.inl ⟨idle_of_running running, _, .loopDone executes test, stays, same⟩
      | true =>
          rw [met] at running test
          have rounded := tested_rounded conditionRuns givesCondition sound calm room ran
            narrowed
          exact Or.inr ⟨live_of_running rounded.occupied rounded.scopes live running, _, _,
            executes, test, stays⟩

/-- The lanes that run where those that wait are back in the loop. -/
theorem running_resumed (acted : Machine.Acted batch.program .loopNext done resumed) :
    resumed.predicates.running.get lane =
      (done.predicates.running.get lane || done.predicates.parked.get lane) := by
  obtain ⟨loop, outer, nested, changed⟩ := acted.onLoops rfl rfl
  unfold Predicates.running Predicates.parked
  rw [changed, nested]
  exact Lanes.get_either _ _ _

/-- A lane behind the body of a round is live for its step unless it has left the loop. -/
theorem resumed_shown (bodyRuns : body.Runs batch.program .body bodyConduct)
    (bodyShown : body.Shows batch bodyConduct)
    (gives : body.Gives batch.program.functions 0)
    (sound : tested.Sound batch.program) (calm : tested.Calm)
    (room : tested.current.offset + (3 + body.size + 1) ≤
      tested.current.function.code.length)
    (holds : Holds batch lane tested state) (live : tested.live.get lane = true)
    (ran : bodyConduct (tested.jumped (tested.current.offset + 3)) = .ok done)
    (acted : done.act batch .loopNext = .ok resumed) :
    Steady lane tested.top tested resumed ∧
      ∃ exit last, Element.Executes batch.uniforms body state exit last ∧
        Holds batch lane resumed last ∧ resumed.live.get lane = (exit != .leave) := by
  obtain ⟨kept, top, offset⟩ := body_kept bodyRuns gives sound (by omega) ran
  have inside : done.current.offset < done.current.function.code.length := by
    rw [offset, kept.function]
    omega
  have unmoved := Machine.act_unmoved_single kept.sound rfl inside rfl rfl acted lane
  obtain ⟨exit, last, executes, arrives, _⟩ := bodyShown.part bodyRuns gives
    (ready_body gives sound (by omega))
    (show Holds batch lane (tested.jumped (tested.current.offset + 3)) state from
      ⟨holds.slots, holds.globals⟩) live ran
  have steady : Steady lane tested.top tested done :=
    ⟨arrives.steady.floor, arrives.steady.cells⟩
  refine ⟨steady.trans (unmoved.steady.mono (Nat.le_of_eq top.symm)), exit, last, executes,
    unmoved.holds kept.sound.frame_le arrives.toHolds, ?_⟩
  have running := @running_resumed σ batch lane done resumed
    (Machine.act_single kept.sound rfl inside rfl acted)
  have parked : (tested.jumped (tested.current.offset + 3)).predicates.parked.get lane =
      false := calm.parked lane
  rw [arrives.running, arrives.parked, parked] at running
  cases exit with
  | leave =>
      exact idle_of_running running
  | normal | again =>
      have rounded := resumed_rounded bodyRuns gives sound calm room ran acted
      exact live_of_running rounded.occupied rounded.scopes live running

theorem rounded_refl (sound : before.Sound batch.program) (calm : before.Calm) :
    Rounded batch.program before.current.offset before before :=
  rounded_jumped sound calm sound.running.offset

section Turn

variable {tests inner last : Element} {exit : Exit}

/-- A lane goes through the step of a round and the rounds after it. -/
theorem step_shown (stepRuns : step.Runs batch.program .edge stepConduct)
    (stepShown : step.Shows batch stepConduct)
    (givesStep : step.Gives batch.program.functions 0)
    (nextRounds : RoundsRun batch.program (span condition.size body.size step.size) next)
    (nextShown : RoundsShow batch condition body step next)
    (sound : resumed.Sound batch.program) (calm : resumed.Calm)
    (room : resumed.current.offset + step.size ≤ resumed.current.function.code.length)
    (inside : start + span condition.size body.size step.size ≤
      resumed.current.function.code.length)
    (ranCondition : Element.Executes batch.uniforms condition state .normal tests)
    (meets : tests.test? = some (true, inner))
    (ranBody : Element.Executes batch.uniforms body inner exit last) (stays : exit ≠ .leave)
    (holds : Holds batch lane resumed last) (live : resumed.live.get lane = true)
    (ran : (stepConduct resumed >>= fun stepped => next (stepped.jumped start)) =
      .ok after) :
    ∃ final, Element.Executes batch.uniforms (loop condition body step) state .normal final ∧
      Leaves batch lane resumed state final after := by
  obtain ⟨stepped, ranStep, ran⟩ := bind_eq_ok.mp ran
  have ready : resumed.Ready batch.program step resumed.top :=
    Machine.ready_part givesStep sound room rfl
  have stepRan := stepRuns _ _ _ ready ranStep
  have top := stepRan.gave givesStep rfl
  have calmAgain := stepRan.toKept.calm calm
  have roundReady : RoundReady batch.program (span condition.size body.size step.size)
      (stepped.jumped start) := by
    have reach : start + span condition.size body.size step.size ≤
        stepped.current.function.code.length := by
      rw [stepRan.function]
      exact inside
    exact ⟨stepRan.sound.jumped (by omega), reach, calmAgain⟩
  obtain ⟨way, following, executes, arrives, operands⟩ :=
    stepShown.part stepRuns givesStep ready
      (show Holds batch lane resumed (last.back state) from ⟨holds.slots, holds.globals⟩)
      live ranStep
  have steady : Steady lane resumed.top resumed (stepped.jumped start) :=
    ⟨arrives.steady.floor, arrives.steady.cells⟩
  have held : Holds batch lane (stepped.jumped start) following :=
    ⟨arrives.slots, arrives.globals⟩
  cases way with
  | again =>
      exact absurd rfl (arrives.ne_again calmAgain)
  | leave =>
      have idle : (stepped.jumped start).live.get lane = false :=
        @idle_of_running lane stepped arrives.running
      exact ⟨following.back state, .loopLeftLate ranCondition meets ranBody stays executes,
        leaves_of_unmoved ⟨held.slots, held.globals⟩ roundReady.sound steady top
          ((nextRounds _ _ roundReady ran).unmoved idle) rfl⟩
  | normal =>
      have steppedLive : (stepped.jumped start).live.get lane = true :=
        @live_of_running lane resumed stepped stepRan.occupied stepRan.scopes live
          arrives.running
      obtain ⟨final, rest, leaves⟩ := nextShown lane following _ after roundReady held
        steppedLive ran
      refine ⟨final, .loopRound ranCondition meets ranBody stays executes rest,
        ⟨leaves.toHolds, steady.trans (leaves.steady.mono (Nat.le_of_eq top.symm)), ?_⟩⟩
      rw [leaves.operands, operands rfl]
      exact List.append_nil _

/-- A lane that has passed the test goes through the rest of the round. -/
theorem turn_shown (bodyRuns : body.Runs batch.program .body bodyConduct)
    (stepRuns : step.Runs batch.program .edge stepConduct)
    (bodyShown : body.Shows batch bodyConduct) (stepShown : step.Shows batch stepConduct)
    (gives : body.Gives batch.program.functions 0)
    (givesStep : step.Gives batch.program.functions 0)
    (nextRounds : RoundsRun batch.program (span condition.size body.size step.size) next)
    (nextShown : RoundsShow batch condition body step next)
    (sound : tested.Sound batch.program) (calm : tested.Calm)
    (room : tested.current.offset + (3 + body.size + 1 + step.size) ≤
      tested.current.function.code.length)
    (inside : start + span condition.size body.size step.size ≤
      tested.current.function.code.length)
    (ranCondition : Element.Executes batch.uniforms condition state .normal tests)
    (meets : tests.test? = some (true, inner))
    (holds : Holds batch lane tested inner) (live : tested.live.get lane = true)
    (ran : turn batch bodyConduct stepConduct next start tested = .ok after) :
    ∃ final, Element.Executes batch.uniforms (loop condition body step) state .normal final ∧
      Leaves batch lane tested state final after := by
  obtain ⟨done, ranBody, ran⟩ := bind_eq_ok.mp ran
  obtain ⟨resumed, acted, ran⟩ := bind_eq_ok.mp ran
  have rounded := resumed_rounded bodyRuns gives sound calm (by omega) ranBody acted
  have offset := rounded.offset
  have top := rounded.top
  have roomStep : resumed.current.offset + step.size ≤
      resumed.current.function.code.length := by
    rw [offset, rounded.function]
    omega
  have reach : start + span condition.size body.size step.size ≤
      resumed.current.function.code.length := by
    rw [rounded.function]
    exact inside
  obtain ⟨steady, exit, last, executes, held, resumedLive⟩ := resumed_shown bodyRuns bodyShown
    gives sound calm (by omega) holds live ranBody acted
  cases exit with
  | leave =>
      have unmoved := (step_rounded stepRuns givesStep nextRounds
        (rounded_refl rounded.sound rounded.calm) roomStep reach ran).unmoved resumedLive
      exact ⟨last.back state, .loopLeft ranCondition meets executes,
        leaves_of_unmoved ⟨held.slots, held.globals⟩ rounded.sound steady top unmoved rfl⟩
  | normal | again =>
      obtain ⟨final, rounds, leaves⟩ := step_shown stepRuns stepShown givesStep nextRounds
        nextShown rounded.sound rounded.calm roomStep reach ranCondition meets executes
        (by decide) held resumedLive ran
      exact ⟨final, rounds, leaves.staying steady top⟩

end Turn

/-- The rounds of a loop, by induction on their bound. -/
theorem rounds_shown (conditionRuns : condition.Runs batch.program .edge conditionConduct)
    (bodyRuns : body.Runs batch.program .body bodyConduct)
    (stepRuns : step.Runs batch.program .edge stepConduct)
    (conditionShown : condition.Shows batch conditionConduct)
    (bodyShown : body.Shows batch bodyConduct) (stepShown : step.Shows batch stepConduct)
    (givesCondition : condition.Gives batch.program.functions 1)
    (gives : body.Gives batch.program.functions 0)
    (givesStep : step.Gives batch.program.functions 0) (limit : Nat) :
    RoundsShow batch condition body step
      (rounds batch (span condition.size body.size step.size) conditionConduct bodyConduct
        stepConduct limit) := by
  induction limit with
  | zero =>
      rintro lane state before after ready holds live ⟨⟩
  | succ limit induction =>
      intro lane state before after ready holds live ran
      have room := ready.room
      have bytes := span_eq condition.size body.size step.size
      have nextRounds := rounds_rounded conditionRuns bodyRuns stepRuns givesCondition gives
        givesStep limit
      obtain ⟨done, ranCondition, ran⟩ := bind_eq_ok.mp ran
      obtain ⟨tested, narrowed, ran⟩ := bind_eq_ok.mp ran
      have test := tested_rounded conditionRuns givesCondition ready.sound ready.calm
        (by omega) ranCondition narrowed
      have offset := test.offset
      have top := test.top
      have roomTurn : tested.current.offset + (3 + body.size + 1 + step.size) ≤
          tested.current.function.code.length := by
        rw [test.function]
        omega
      have reach : before.current.offset + span condition.size body.size step.size ≤
          tested.current.function.code.length := by
        rw [test.function]
        exact room
      obtain ⟨steady, ⟨idle, final, executes, held, operands⟩ |
        ⟨testedLive, tests, inner, executes, meets, held⟩⟩ :=
          @tested_shown σ batch lane condition body step conditionConduct before tested done
            state conditionRuns conditionShown givesCondition ready.sound ready.calm
            (by omega) holds live ranCondition narrowed
      · have unmoved := (narrowed_rounded bodyRuns stepRuns gives givesStep nextRounds
          test.sound test.calm roomTurn reach ran).unmoved idle
        exact ⟨final, executes, leaves_of_unmoved held test.sound steady top unmoved operands⟩
      · rw [Conduct.unlessIdle_live ((Lanes.any_eq_true _).mpr ⟨lane, testedLive⟩)] at ran
        obtain ⟨final, rounds, leaves⟩ := turn_shown bodyRuns stepRuns bodyShown stepShown
          gives givesStep nextRounds induction test.sound test.calm roomTurn reach executes
          meets held testedLive ran
        exact ⟨final, rounds, leaves.staying steady top⟩

theorem shows_loop {limit : Nat}
    (conditionRuns : condition.Runs batch.program .edge (condition.exec batch run limit))
    (bodyRuns : body.Runs batch.program .body (body.exec batch run limit))
    (stepRuns : step.Runs batch.program .edge (step.exec batch run limit))
    (conditionShown : condition.Shows batch (condition.exec batch run limit))
    (bodyShown : body.Shows batch (body.exec batch run limit))
    (stepShown : step.Shows batch (step.exec batch run limit))
    (givesCondition : condition.Gives batch.program.functions 1)
    (gives : body.Gives batch.program.functions 0)
    (givesStep : step.Gives batch.program.functions 0) :
    (loop condition body step).Shows batch
      ((loop condition body step).exec batch run limit) := by
  intro lane entry lower before after ready live ran
  obtain ⟨begun, begins, ran⟩ := bind_eq_ok.mp ran
  obtain ⟨done, ranRounds, ends⟩ := bind_eq_ok.mp ran
  have room := ready.room
  unfold size at room
  have roundReady : RoundReady batch.program (span condition.size body.size step.size)
      begun :=
    ready_round ready.sound (by omega) begins
  have beginning := Machine.act_single ready.sound rfl (by omega) rfl begins
  have begunTop : begun.top = before.top := beginning.top
  have begunOffset : begun.current.offset = before.current.offset + 1 := beginning.offset
  have enters : Unmoved lane before.top before begun :=
    Machine.act_unmoved_single ready.sound rfl (by omega) rfl rfl begins lane
  have rounded := rounds_rounded conditionRuns bodyRuns stepRuns givesCondition gives
    givesStep limit _ _ roundReady ranRounds
  have doneTop := rounded.top
  have roomEnd : done.current.offset < done.current.function.code.length := by
    rw [rounded.offset, begunOffset, rounded.function, beginning.function]
    omega
  have ending := Machine.act_single rounded.sound rfl roomEnd rfl ends
  have afterTop : after.top = done.top := ending.top
  have exits : Unmoved lane done.top done after :=
    Machine.act_unmoved_single rounded.sound rfl roomEnd rfl rfl ends lane
  have loops := rounded.toCircles.loops_eq beginning ending
  obtain ⟨final, executes, leaves⟩ := rounds_shown conditionRuns bodyRuns stepRuns
    conditionShown bodyShown stepShown givesCondition gives givesStep limit lane
    (before.element batch lane entry lower) begun done roundReady
    (enters.holds ready.sound.frame_le Machine.holds_element)
    (by rw [beginning.begun.1]; exact live) ranRounds
  have around := leaves.staying enters.steady begunTop
  have arrives : Arrives batch lane before.top before .normal final after := by
    refine ⟨exits.holds rounded.sound.frame_le leaves.toHolds,
      around.steady.trans (exits.steady.mono (by omega)), ?_, ?_⟩
    · unfold Predicates.running
      rw [loops]
      exact Machine.running_of_live live
    · unfold Predicates.parked
      rw [loops]
      rfl
  refine ⟨.normal, final, executes, arrives.ends ready.floor ready.level
    (show after.top = before.top + 0 by omega) fun _ => ?_⟩
  rw [leaves.operands]
  exact (List.append_nil _).symm

/-! ## All blocks -/

/-- A block that comes to its end does to each live lane what it does to its element. -/
theorem exec_shows (returns : run.Returns batch.program) (limit : Nat) (block : Block)
    (wellFormed : block.WellFormed batch.program.functions place)
    (free : block.callFree = true) : block.Shows batch (block.exec batch run limit) := by
  induction block generalizing place with
  | skip =>
      exact shows_skip
  | plain instruction =>
      exact shows_plain wellFormed
  | call function =>
      cases free
  | seq first second firstShown secondShown =>
      obtain ⟨firstForm, secondForm⟩ := wellFormed
      obtain ⟨firstFree, secondFree⟩ := Bool.and_eq_true_iff.mp free
      exact shows_seq (exec_ran returns limit first firstForm)
        (exec_ran returns limit second secondForm) (firstShown firstForm firstFree)
        (secondShown secondForm secondFree)
  | guarded body bodyShown =>
      exact shows_guarded (exec_ran returns limit body wellFormed.1)
        (bodyShown wellFormed.1 free) wellFormed.2
  | when body bodyShown =>
      exact shows_when (exec_ran returns limit body wellFormed.1)
        (bodyShown wellFormed.1 free) wellFormed.2
  | choose body otherwise bodyShown otherwiseShown =>
      obtain ⟨⟨bodyForm, gives⟩, otherwiseForm, givesOtherwise⟩ := wellFormed
      obtain ⟨bodyFree, otherwiseFree⟩ := Bool.and_eq_true_iff.mp free
      exact shows_choose (exec_ran returns limit body bodyForm)
        (exec_ran returns limit otherwise otherwiseForm) (bodyShown bodyForm bodyFree)
        (otherwiseShown otherwiseForm otherwiseFree) gives givesOtherwise
  | blend count body otherwise bodyShown otherwiseShown =>
      obtain ⟨⟨bodyForm, gives⟩, otherwiseForm, givesOtherwise⟩ := wellFormed
      obtain ⟨bodyFree, otherwiseFree⟩ := Bool.and_eq_true_iff.mp free
      exact shows_blend (exec_ran returns limit body bodyForm)
        (exec_ran returns limit otherwise otherwiseForm) (bodyShown bodyForm bodyFree)
        (otherwiseShown otherwiseForm otherwiseFree) gives givesOtherwise
  | loop condition body step conditionShown bodyShown stepShown =>
      obtain ⟨⟨conditionForm, givesCondition⟩, ⟨bodyForm, gives⟩, stepForm, givesStep⟩ :=
        wellFormed
      obtain ⟨headFree, stepFree⟩ := Bool.and_eq_true_iff.mp free
      obtain ⟨conditionFree, bodyFree⟩ := Bool.and_eq_true_iff.mp headFree
      exact shows_loop (exec_ran returns limit condition conditionForm)
        (exec_ran returns limit body bodyForm) (exec_ran returns limit step stepForm)
        (conditionShown conditionForm conditionFree) (bodyShown bodyForm bodyFree)
        (stepShown stepForm stepFree) givesCondition gives givesStep
  | leave =>
      exact shows_leave
  | again =>
      exact shows_again

end Block

end Lockstep
