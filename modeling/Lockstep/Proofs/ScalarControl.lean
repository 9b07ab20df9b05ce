import Lockstep.Proofs.Acceptance
import Lockstep.Proofs.BlockSteps
import Lockstep.Proofs.LoopExecution

/-!
# Predicated control is scalar control

Structured code has no branches that lanes could take apart: conditionals run
both of their parts under masks, and loops go on until no lane is left.  A lane
that is live where such code is entered still ends with the slots, the globals
and the operands that the element in it has when it carries out the code alone,
one part of each conditional and as many rounds of each loop as its own
conditions ask for.

`Block.Completes` says by steps of the machine that a block comes to its end.
Steps are determined, so that they are the ones of `Block.exec` within some
bound, and `Block.predicated_control_is_scalar` follows from the account of
`Block.exec` lane by lane.
-/

namespace Lockstep

variable {σ : Type}

namespace Machine

/-! ## Steps through a stretch of code -/

/-- Steps lead from a machine of some kind to the first one that is not of that kind. -/
structure Traverses (batch : Batch σ) (inside : Machine → Prop) (before after : Machine) :
    Prop where
  steps : Relation.ReflTransGen
    (fun machine next => inside machine ∧ machine.Steps batch next) before after
  outside : ¬ inside after

variable {batch : Batch σ} {inside : Machine → Prop} {count : Nat}
variable {before middle after last : Machine}

/-- A step that does not ask the host has one outcome. -/
theorem Steps.outcome_eq (steps : before.Steps batch after) (quiet : before.Quiet) :
    before.outcome batch = .ok (.next after) := by
  obtain ⟨host, later, stepped⟩ := steps
  rw [stepAt_quiet quiet] at stepped
  exact congrArg Prod.fst stepped

theorem Moves.steps (moves : Moves batch before after) (host : σ) :
    before.Steps batch after := by
  refine ⟨host, host, ?_⟩
  rw [stepAt_quiet moves.quiet, moves.outcome]

theorem Path.traces (path : Path batch inside count before after) (host : σ) :
    Relation.ReflTransGen (fun machine next => inside machine ∧ machine.Steps batch next)
      before after := by
  induction path with
  | refl machine =>
      exact .refl
  | head here moves rest induction =>
      exact .head ⟨here, moves.steps host⟩ induction

namespace Traverses

/-- From a machine inside there is a step. -/
theorem head (traverses : Traverses batch inside before after) (here : inside before) :
    ∃ next, before.Steps batch next ∧ Traverses batch inside next after := by
  rcases traverses.steps.cases_head with rfl | ⟨next, ⟨_, step⟩, rest⟩
  · exact absurd here traverses.outside
  · exact ⟨next, step, rest, traverses.outside⟩

/-- Steps that are determined are the ones that lead through. -/
theorem along (traverses : Traverses batch inside before after)
    (path : Path batch inside count before last) : Traverses batch inside last after := by
  induction path with
  | refl machine =>
      exact traverses
  | head here moves rest induction =>
      obtain ⟨next, step, onward⟩ := traverses.head here
      have same := (step.outcome_eq moves.quiet).symm.trans moves.outcome
      cases same
      exact induction onward

theorem eq_of_outside (traverses : Traverses batch inside before after)
    (outside : ¬ inside before) : after = before := by
  rcases traverses.steps.cases_head with same | ⟨next, ⟨here, _⟩, _⟩
  · exact same.symm
  · exact absurd here outside

/-- Steps that lead through are a bounded number of steps. -/
theorem bounded (traverses : Traverses batch inside before after) :
    ∃ bound, ∀ count last, Path batch inside count before last → count ≤ bound := by
  obtain ⟨steps, outside⟩ := traverses
  induction steps using Relation.ReflTransGen.head_induction_on with
  | refl =>
      refine ⟨0, fun count last path => ?_⟩
      cases path with
      | refl =>
          exact Nat.le_refl 0
      | head here moves rest =>
          exact absurd here outside
  | head first rest induction =>
      obtain ⟨bound, bounded⟩ := induction
      refine ⟨bound + 1, fun count last path => ?_⟩
      cases path with
      | refl =>
          exact Nat.zero_le _
      | head here moves rest =>
          have same := (first.2.outcome_eq moves.quiet).symm.trans moves.outcome
          cases same
          exact Nat.succ_le_succ (bounded _ _ rest)

/-- What steps lead through comes to an end within some bound. -/
theorem completed {result : Nat → Except Stop Machine}
    (traverses : Traverses batch inside before after)
    (realizes : ∀ limit, before.Realizes batch inside limit (result limit))
    (ends : ∀ limit final, result limit = .ok final → ¬ inside final) :
    ∃ limit, result limit = .ok after := by
  obtain ⟨bound, bounded⟩ := traverses.bounded
  refine ⟨bound + 1, ?_⟩
  have realized := realizes (bound + 1)
  cases outcome : result (bound + 1) with
  | ok final =>
      rw [outcome] at realized
      obtain ⟨count, path⟩ := realized
      rw [(traverses.along path).eq_of_outside (ends _ _ outcome)]
  | error stop =>
      rw [outcome] at realized
      cases stop with
      | exhausted =>
          obtain ⟨count, last, enough, path⟩ := realized
          have few := bounded _ _ path
          omega
      | failed failure =>
          obtain ⟨count, last, path, here, quiet, failed⟩ := realized
          obtain ⟨next, step, _⟩ := (traverses.along path).head here
          have same := (step.outcome_eq quiet).symm.trans failed
          cases same

end Traverses

end Machine

namespace Block

open Machine

/-- Steps lead from the start of a block to its end. -/
structure Completes (batch : Batch σ) (block : Block) (before after : Machine) : Prop where
  steps : Relation.ReflTransGen
    (fun machine next =>
      machine.Between before.callers.length before.current.offset
        (before.current.offset + block.size) ∧ machine.Steps batch next) before after
  callers : after.callers.length = before.callers.length
  offset : after.current.offset = before.current.offset + block.size

variable {batch : Batch σ} {block : Block} {function : Function} {start : Nat}
variable {before after : Machine}

theorem not_between (callers : after.callers.length = before.callers.length)
    (offset : after.current.offset = before.current.offset + block.size) :
    ¬ after.Between before.callers.length before.current.offset
      (before.current.offset + block.size) := by
  rintro (deeper | ⟨_, _, below⟩)
  · omega
  · omega

/-- A block that lies in the code of a function fits into it. -/
theorem Lies.room (lies : block.Lies function start) (inside : start ≤ function.code.length) :
    start + block.size ≤ function.code.length := by
  have fits : ∀ placed ∈ block.listing start,
      placed.offset + placed.instruction.width ≤ function.code.length := by
    intro placed listed
    have short := Instruction.width_le (lies.reads placed listed)
    have positive := placed.instruction.width_pos
    rw [List.length_drop] at short
    omega
  induction block generalizing start with
  | skip =>
      exact inside
  | plain instruction =>
      exact fits _ (List.mem_singleton.mpr rfl)
  | call function =>
      exact fits _ (List.mem_singleton.mpr rfl)
  | seq first second firstRoom secondRoom =>
      have left := firstRoom (lies.part (List.subset_append_left _ _) lies.addressable.1)
        inside fun placed listed => fits placed (List.mem_append_left _ listed)
      have right := secondRoom (lies.part (List.subset_append_right _ _) lies.addressable.2)
        left fun placed listed => fits placed (List.mem_append_right _ listed)
      rw [size]
      omega
  | guarded body bodyRoom =>
      have branch : start + 3 ≤ function.code.length := fits _ List.mem_cons_self
      have rest := bodyRoom (lies.part (List.subset_cons_self _ _) lies.addressable.2) branch
        fun placed listed => fits placed (List.mem_cons_of_mem _ listed)
      rw [size]
      omega
  | when body _ =>
      have last := fits ⟨start + 1 + body.size, .maskPop⟩ (by simp [listing])
      change start + 1 + body.size + 1 ≤ _ at last
      rw [size]
      omega
  | choose body otherwise _ _ =>
      have last := fits ⟨start + 1 + body.size + 1 + otherwise.size, .maskPop⟩
        (by simp [listing])
      change start + 1 + body.size + 1 + otherwise.size + 1 ≤ _ at last
      rw [size]
      omega
  | blend count body otherwise _ _ =>
      have last := fits ⟨start + 1 + body.size + 1 + otherwise.size, .maskBlend count⟩
        (by simp [listing])
      change start + 1 + body.size + 1 + otherwise.size + 2 ≤ _ at last
      rw [size]
      omega
  | loop condition body step _ _ _ =>
      have last := fits
        ⟨start + 1 + span condition.size body.size step.size, .loopEnd⟩ (by simp [listing])
      change start + 1 + span condition.size body.size step.size + 1 ≤ _ at last
      rw [size]
      omega
  | leave | again =>
      exact fits _ (List.mem_singleton.mpr rfl)

/-- A block at the offset of a machine, with the operands of the running function. -/
theorem Lies.ready (lies : block.Lies before.current.function before.current.offset)
    (sound : before.Sound batch.program) :
    before.Ready batch.program block before.current.floor :=
  ⟨sound, lies.room sound.running.offset, Nat.le_refl _, sound.floor, Or.inl rfl⟩

/-- There is nothing to run where no function is called. -/
theorem returns_never (program : Program) :
    Conduct.Returns program fun _ => .error .exhausted := by
  rintro before after _ _ _ ⟨⟩

/-- A block without calls is carried out by steps. -/
theorem realizes_free (lies : block.Lies before.current.function before.current.offset)
    (sound : before.Sound batch.program)
    (wellFormed : block.WellFormed batch.program.functions .outside)
    (free : block.callFree = true) (limit : Nat) :
    before.Realizes batch
      (Between before.callers.length before.current.offset
        (before.current.offset + block.size)) limit
      (block.exec batch (fun _ => .error .exhausted) limit before) :=
  exec_realizes (returns_never _) block wellFormed (Or.inl free) _ _ _ _ before
    (lies.ready sound) lies ⟨rfl, rfl, rfl⟩

/-- A block that comes to its end by steps is carried out within some bound. -/
theorem Completes.exec (completes : block.Completes batch before after)
    (lies : block.Lies before.current.function before.current.offset)
    (sound : before.Sound batch.program)
    (wellFormed : block.WellFormed batch.program.functions .outside)
    (free : block.callFree = true) :
    ∃ limit, block.exec batch (fun _ => .error .exhausted) limit before = .ok after := by
  refine Traverses.completed ⟨completes.steps, not_between completes.callers completes.offset⟩
    (realizes_free lies sound wellFormed free) fun limit final ran => ?_
  have done := exec_ran (returns_never _) limit block wellFormed _ _ _ (lies.ready sound) ran
  exact not_between (congrArg List.length done.callers) done.offset

/-- A block that is carried out comes to its end by steps. -/
theorem completes_of_exec {limit : Nat} (host : σ)
    (lies : block.Lies before.current.function before.current.offset)
    (sound : before.Sound batch.program)
    (wellFormed : block.WellFormed batch.program.functions .outside)
    (free : block.callFree = true)
    (ran : block.exec batch (fun _ => .error .exhausted) limit before = .ok after) :
    block.Completes batch before after := by
  have done := exec_ran (returns_never _) limit block wellFormed _ _ _ (lies.ready sound) ran
  have realizes := realizes_free lies sound wellFormed free limit
  rw [ran] at realizes
  obtain ⟨count, path⟩ := realizes
  exact ⟨path.traces host, congrArg List.length done.callers, done.offset⟩

/--
Predicated control flow implements scalar control flow.  Where a block of
structured code without calls comes to its end, each lane that was live at its
start holds what the element in the lane makes of the block alone, and that is
all that the element can make of it.  The other lanes keep their slots and
globals, and the predicates are as before.
-/
theorem predicated_control_is_scalar
    (sound : before.Sound batch.program)
    (lies : block.Lies before.current.function before.current.offset)
    (wellFormed : block.WellFormed batch.program.functions .outside)
    (free : block.callFree = true) (completes : block.Completes batch before after) :
    after.predicates = before.predicates ∧ ∀ lane,
      (before.live.get lane = true → ∀ exit state,
        Element.Executes batch.uniforms block
            (before.element batch lane before.current.floor []) exit state ↔
          exit = .normal ∧ state = after.element batch lane after.current.floor []) ∧
      (before.live.get lane = false →
        Holds batch lane after (before.element batch lane before.current.floor [])) := by
  obtain ⟨limit, ran⟩ := completes.exec lies sound wellFormed free
  have ready := lies.ready sound
  have done := exec_ran (returns_never _) limit block wellFormed _ _ _ ready ran
  refine ⟨done.predicates_eq, fun lane => ⟨fun live => ?_, fun idle => ?_⟩⟩
  · obtain ⟨exit, state, executes, ends⟩ := exec_shows (returns_never _) limit block
      wellFormed free lane _ [] before after ready live ran
    have normal : exit = .normal := by
      have running := ends.running
      rw [done.predicates_eq, running_of_live live] at running
      exact eq_of_beq running.symm
    subst normal
    have state_eq := ends.eq_element
    subst state_eq
    rw [done.floor]
    intro way final
    constructor
    · intro other
      exact executes.unique other
    · rintro ⟨rfl, rfl⟩
      exact executes
  · have rests := done.toKept.rests idle
    exact rests.holds (Nat.le_of_eq sound.fits.frame_eq) holds_element

/--
Add up the numbers below four in a loop that leaves out one, counts seven for
zero, and is left at the number given as argument.
-/
def skimming : Block :=
  [.loop
      ([.plain (.load .local 1 1), .plain (.compute (.immediate 4)),
        .plain (.compute (.binary (.compare .lessU) 1))].foldr .seq .skip)
      ([.plain (.load .local 1 1), .plain (.compute (.immediate 1)),
        .plain (.compute (.binary (.compare .equalI) 1)), .when .again,
        .plain (.load .local 1 1), .plain (.load .local 1 0),
        .plain (.compute (.binary (.compare .equalI) 1)), .choose (.guarded .leave) .skip,
        .plain (.load .local 1 2), .plain (.load .local 1 1),
        .blend 1 (.plain (.load .local 1 1)) (.plain (.compute (.immediate 7))),
        .plain (.compute (.binary .addI 1)), .plain (.store .local 1 2)].foldr .seq .skip)
      ([.plain (.load .local 1 1), .plain (.compute (.immediate 1)),
        .plain (.compute (.binary .addI 1)), .plain (.store .local 1 1)].foldr .seq .skip),
    .plain (.load .local 1 2)].foldr .seq .skip

/-- The function of `skimming`. -/
def skim : Function where
  name := "skim"
  parameterCount := 1
  localCount := 2
  stackCount := 4
  returnCount := 1
  parameters := [{ slotCount := 1 }]
  code := (skimming.listing 0).flatMap (·.instruction.encode) ++ (Instruction.ret 1).encode

/-- A batch of a program with one function. -/
def skimBatch : Batch Unit :=
  ⟨{ functions := [skim] }, [], [], 0⟩

/-- Three elements that leave their loops in different ways. -/
def skimmed : Machine :=
  .booted skim 3 (.blank globalCapacity) [packWords [0, 2, 9]]

theorem lies_skimming : skimming.Lies skim 0 := by
  have structured : skim.StructuredBy [skim] skimming 1 := ⟨by rfl, by decide, by decide⟩
  exact ⟨fun placed listed => structured.reads (List.mem_append_left _ listed),
    structured.addressable⟩

/-- One lane leaves its loop at two, and the next comes to its end. -/
theorem predicated_control_is_scalar_skim :
    ∃ after, skimming.Completes skimBatch skimmed after ∧
      Element.Executes [] skimming ⟨[2, 0, 0], [], []⟩ .normal ⟨[2, 2, 7], [], [7]⟩ ∧
      Element.Executes [] skimming ⟨[9, 0, 0], [], []⟩ .normal ⟨[9, 4, 12], [], [12]⟩ := by
  have ends : (skimming.exec skimBatch (fun _ => .error .exhausted) 9 skimmed).toOption.map
      (fun machine => (machine.element skimBatch 1 machine.current.floor [],
        machine.element skimBatch 2 machine.current.floor [])) =
      some (⟨[2, 2, 7], [], [7]⟩, ⟨[9, 4, 12], [], [12]⟩) := by
    decide +kernel
  have starts : skimmed.element skimBatch 1 skimmed.current.floor [] =
        ⟨[2, 0, 0], [], []⟩ ∧
      skimmed.element skimBatch 2 skimmed.current.floor [] = ⟨[9, 0, 0], [], []⟩ := by
    decide +kernel
  have sound : skimmed.Sound skimBatch.program :=
    sound_booted (by decide) (by decide) _
  cases ran : skimming.exec skimBatch (fun _ => .error .exhausted) 9 skimmed with
  | error stop =>
      rw [ran] at ends
      cases ends
  | ok after =>
      rw [ran] at ends
      obtain ⟨second, third⟩ := Prod.mk.inj (Option.some.inj ends)
      have completes := completes_of_exec () lies_skimming sound (by decide) rfl ran
      have lanes := (predicated_control_is_scalar sound lies_skimming (by decide) rfl
        completes).2
      rw [← starts.1, ← starts.2]
      exact ⟨after, completes, ((lanes 1).1 (by decide) _ _).mpr ⟨rfl, second.symm⟩,
        ((lanes 2).1 (by decide) _ _).mpr ⟨rfl, third.symm⟩⟩

end Block

end Lockstep
