import Lockstep.Proofs.Framing

/-!
# Blocks keep their frames

A block is ready to run at an entry if its code is in its place and, unless
the entry is the floor of the running function, the operands that it takes are
known to lie above the entry.

`Block.exec_ran` is the account of a single machine: a block that comes to its
end has kept what `Machine.Kept` lists, and stands at the offset behind the
block with the operands that `Block.effect` foretells.  A function that has
returned leaves its caller as `Machine.Answers` says.
-/

namespace Lockstep

variable {σ : Type}

theorem Instruction.stays_of_plain (instruction : Instruction)
    (isPlain : instruction.plain = true) :
    instruction.stays = true ∧ ∀ condition, instruction.action? condition = none := by
  cases instruction <;> first | exact ⟨rfl, fun _ => rfl⟩ | cases isPlain

theorem Instruction.inner_of_stays (instruction : Instruction)
    (stays : instruction.stays = true) : instruction.inner = true := by
  cases instruction with
  | maskBlend count =>
      rfl
  | _ =>
      exact stays

namespace Machine

/-- A machine that can start on a block. -/
structure Ready (program : Program) (block : Block) (entry : Nat) (machine : Machine) :
    Prop where
  sound : machine.Sound program
  room : machine.current.offset + block.size ≤ machine.current.function.code.length
  floor : machine.current.floor ≤ entry
  level : entry ≤ machine.top
  known : entry = machine.current.floor ∨
    (block.effect program.functions (machine.top - entry)).isSome

/-- A machine that has come to the end of a block. -/
structure Ran (program : Program) (place : Place) (block : Block) (entry : Nat)
    (before after : Machine) : Prop extends Kept program place entry before after where
  offset : after.current.offset = before.current.offset + block.size
  height : ∀ height, block.effect program.functions (before.top - entry) = some height →
    after.top = entry + height

/-- A function has returned to its caller. -/
structure Answers (program : Program) (before after : Machine) : Prop where
  sound : after.Sound program
  waiting : before.callers = after.current :: after.callers
  reserved : after.current.floor + before.current.function.returnCount ≤
    before.current.base
  top : after.top = before.current.base + before.current.function.parameterCount
  predicates : after.predicates = before.predicates
  cells : ∀ bank position lane, before.live.get lane = false →
    (bank = .local →
      position < before.current.base - before.current.function.returnCount) →
      (after.cell bank position).get lane = (before.cell bank position).get lane

variable {program : Program} {place : Place} {block : Block} {entry : Nat}
variable {machine before after : Machine} {batch : Batch σ}

/-- The height after a block is not below its entry. -/
theorem Ready.level_after (ready : before.Ready program block entry)
    (ran : Ran program place block entry before after) : entry ≤ after.top := by
  rcases ready.known with atFloor | known
  · have floor := ran.sound.floor
    rw [ran.floor, ← atFloor] at floor
    exact floor
  · obtain ⟨height, effect⟩ := Option.isSome_iff_exists.mp known
    rw [ran.height height effect]
    exact Nat.le_add_right _ _

/-- A part that reaches below none of the operands present. -/
theorem ready_part {count : Nat} (gives : block.Gives program.functions count)
    (sound : machine.Sound program)
    (room : machine.current.offset + block.size ≤ machine.current.function.code.length)
    (level : machine.top = entry) : machine.Ready program block entry where
  sound := sound
  room := room
  floor := level ▸ sound.floor
  level := Nat.le_of_eq level.symm
  known := by
    rw [level, Nat.sub_self, gives]
    exact Or.inr rfl

theorem Ran.gave {count : Nat} (ran : Ran program place block entry before after)
    (gives : block.Gives program.functions count) (level : before.top = entry) :
    after.top = entry + count := by
  apply ran.height
  rw [level, Nat.sub_self]
  exact gives

/-- The height after a block that leaves the stack as it was. -/
theorem Ready.height_idle (ready : before.Ready program block entry)
    (idle : ∀ height, block.effect program.functions height = some height)
    (top : after.top = before.top) (height : Nat)
    (effect : block.effect program.functions (before.top - entry) = some height) :
    after.top = entry + height := by
  have level := ready.level
  rw [idle] at effect
  cases effect
  omega

theorem carry_call {function : UInt8} (live : machine.live.any = true) :
    machine.carry batch (.call function) =
      (machine.invoke batch.program.functions function.toNat).map Flow.next := by
  change (machine.call batch.program.functions function.toNat).map Flow.next = _
  rw [Machine.call, if_pos live]

/-- A call that some lane takes. -/
theorem act_called {function : UInt8} (live : before.live.any = true)
    (acted : before.act batch (.call function) = .ok after) :
    ∃ callee, (before.advanced (.call function)).Calls batch.program function.toNat
        callee ∧
      after = (before.advanced (.call function)).called callee := by
  have yields : Yields _ _ ((before.advanced (.call function)).invoke _ _) :=
    @invoke_yields σ (before.advanced (.call function)) batch live function
  obtain ⟨flow, carried, rfl⟩ := act_eq_ok.mp acted
  rw [@carry_call σ (before.advanced (.call function)) batch function live] at carried
  cases invoked : (before.advanced (.call function)).invoke batch.program.functions
      function.toNat with
  | error failure =>
      rw [invoked] at carried
      cases carried
  | ok called =>
      rw [invoked] at carried
      cases carried
      exact yields.of_ok invoked

/-- A return to a caller. -/
theorem act_returned {count : UInt8} (sound : before.Sound batch.program)
    (room : before.current.offset + 2 ≤ before.current.function.code.length)
    (waiting : before.callers ≠ [])
    (acted : before.act batch (.ret count) = .ok after) :
    ∃ returned caller earlier,
      (before.advanced (.ret count)).Returns count.toNat returned ∧
      before.callers = caller :: earlier ∧
      caller.floor + count.toNat ≤ before.current.base ∧
      after = (before.advanced (.ret count)).resumed caller earlier returned := by
  have moved : (before.advanced (.ret count)).Sound batch.program := sound.jumped room
  have yields := @ret_yields σ (before.advanced (.ret count)) batch moved.fits count
  obtain ⟨flow, carried, rfl⟩ := act_eq_ok.mp acted
  cases yields.of_ok carried with
  | resumed returns nested reserved =>
      exact ⟨_, _, _, returns, nested, reserved, rfl⟩
  | finished returns outermost =>
      exact absurd outermost waiting

end Machine

/-- A way to carry out a block that keeps its frame. -/
def Block.Runs (program : Program) (place : Place) (block : Block) (conduct : Conduct) :
    Prop :=
  ∀ entry before after, before.Ready program block entry → conduct before = .ok after →
    Machine.Ran program place block entry before after

/-- A way to carry out a function that answers its caller. -/
def Conduct.Returns (program : Program) (conduct : Conduct) : Prop :=
  ∀ before after, before.Sound program → before.current.offset = 0 →
    before.callers ≠ [] → conduct before = .ok after → before.Answers program after

namespace Block

variable {program : Program} {place : Place} {batch : Batch σ} {run : Conduct}

/-! ## Instructions and calls -/

theorem effect_plain {functions : List Function} {instruction : Instruction}
    {height result : Nat}
    (effect : (plain instruction).effect functions height = some result) :
    instruction.taken ≤ height ∧ result = height - instruction.taken + instruction.given := by
  unfold Block.effect at effect
  split at effect
  · rename_i present
    exact ⟨present, (Option.some.inj effect).symm⟩
  · cases effect

/-- The operands that an instruction takes stand above the entry. -/
theorem taken_above {instruction : Instruction} {entry : Nat} {before : Machine}
    (ready : before.Ready program (plain instruction) entry)
    (present : before.current.floor + instruction.taken ≤ before.top) :
    entry + instruction.taken ≤ before.top := by
  have level := ready.level
  rcases ready.known with atFloor | known
  · omega
  · obtain ⟨height, effect⟩ := Option.isSome_iff_exists.mp known
    have taken := (effect_plain effect).1
    omega

theorem runs_plain {instruction : Instruction} (isPlain : instruction.plain = true) :
    (plain instruction).Runs batch.program place (Machine.act batch instruction) := by
  intro entry before after ready acted
  obtain ⟨stays, quiet⟩ := instruction.stays_of_plain isPlain
  have inner := instruction.inner_of_stays stays
  have done := Machine.act_acted ready.sound ready.room inner acted
  have level := ready.level
  have above := taken_above ready done.present
  refine ⟨done.kept quiet place (by omega), done.offset, ?_⟩
  intro height effect
  obtain ⟨taken, rfl⟩ := effect_plain effect
  rw [done.top]
  omega

theorem effect_call {functions : List Function} {function : UInt8} {callee : Function}
    {height : Nat} (known : functions[function.toNat]? = some callee)
    (effect : ((call function).effect functions height).isSome) :
    callee.parameterCount + callee.returnCount ≤ height := by
  simp only [Block.effect, known] at effect
  split at effect
  · assumption
  · cases effect

theorem height_call {functions : List Function} {function : UInt8} {height result : Nat}
    (effect : (call function).effect functions height = some result) : result = height := by
  unfold Block.effect at effect
  split at effect
  · split at effect
    · exact (Option.some.inj effect).symm
    · cases effect
  · cases effect

/-- A call leaves its arguments on the stack. -/
theorem ran_call (returns : run.Returns batch.program) {function : UInt8} {limit entry : Nat}
    {before after : Machine} (ready : before.Ready batch.program (call function) entry)
    (ran : exec batch run limit (call function) before = .ok after) :
    Machine.Ran batch.program place (call function) entry before after ∧
      after.top = before.top := by
  have sound := ready.sound
  have level := ready.level
  have heights : ∀ height, (call function).effect batch.program.functions
      (before.top - entry) = some height → before.top = entry + height := by
    intro height effect
    rw [height_call effect]
    omega
  have width : (Instruction.call function).width = 2 := rfl
  have moved : (before.advanced (.call function)).Sound batch.program :=
    sound.jumped ready.room
  unfold exec Conduct.unlessIdle at ran
  split at ran
  · rename_i live
    obtain ⟨called, acted, answered⟩ := bind_eq_ok.mp ran
    obtain ⟨callee, calls, rfl⟩ := Machine.act_called live acted
    have answers := returns _ _ (moved.called calls) rfl (by rintro ⟨⟩) answered
    obtain ⟨sameCurrent, sameCallers⟩ := List.cons.inj answers.waiting
    have present : before.current.floor + callee.parameterCount ≤ before.top :=
      calls.present
    have reserved : before.current.floor + callee.returnCount ≤
        before.top - callee.parameterCount := by
      have reserved := answers.reserved
      rw [← sameCurrent] at reserved
      exact reserved
    have answered : after.top =
        before.top - callee.parameterCount + callee.parameterCount := answers.top
    have top : after.top = before.top := by
      omega
    have entryBelow : entry ≤ before.top - callee.parameterCount - callee.returnCount := by
      rcases ready.known with atFloor | known
      · omega
      · have enough := effect_call calls.known known
        omega
    refine ⟨⟨⟨⟨answers.sound, ?_, sameCallers.symm, ?_, ?_⟩, ?_, ?_⟩, ?_, ?_⟩, top⟩
    · rw [← sameCurrent]
      rfl
    · rw [answers.predicates]
      rfl
    · intro bank position lane idle below
      have inCaller : bank = .local → position < before.top := by
        intro isLocal
        have := below isLocal
        omega
      have kept := answers.cells bank position lane idle fun isLocal =>
        Nat.lt_of_lt_of_le (below isLocal) entryBelow
      have same := @Machine.cell_called (before.advanced (.call function)) callee bank
        position (Nat.le_trans (Nat.le_add_left _ _) present) calls.room inCaller
      rw [kept, same]
      cases bank <;> rfl
    · rw [answers.predicates]
      rfl
    · rw [answers.predicates]
      exact .same _
    · rw [← sameCurrent]
      rfl
    · intro height effect
      rw [top]
      exact heights height effect
  · cases ran
    exact ⟨⟨Machine.kept_jumped sound ready.room place entry, rfl, heights⟩, rfl⟩

theorem runs_call (returns : run.Returns batch.program) (function : UInt8) (limit : Nat) :
    (call function).Runs batch.program place (exec batch run limit (call function)) :=
  fun _ _ _ ready ran => (ran_call returns ready ran).1

theorem runs_leave (inLoop : place ≠ .outside) :
    leave.Runs batch.program place (Machine.act batch .loopBreak) := by
  intro entry before after ready acted
  have done := Machine.act_single ready.sound rfl ready.room rfl acted
  exact ⟨done.left inLoop ready.level, done.offset,
    ready.height_idle (fun _ => rfl) done.top⟩

theorem runs_again :
    again.Runs batch.program .body (Machine.act batch .loopContinue) := by
  intro entry before after ready acted
  have done := Machine.act_single ready.sound rfl ready.room rfl acted
  exact ⟨done.parked ready.level, done.offset,
    ready.height_idle (fun _ => rfl) done.top⟩

/-! ## Sequences and guards -/

variable {first second body otherwise : Block}
variable {bodyConduct otherwiseConduct : Conduct}

theorem effect_seq {functions : List Function} {height : Nat}
    (effect : ((seq first second).effect functions height).isSome) :
    ∃ middle, first.effect functions height = some middle ∧
      (second.effect functions middle).isSome := by
  unfold Block.effect at effect
  cases reached : first.effect functions height with
  | none =>
      rw [reached] at effect
      cases effect
  | some middle =>
      rw [reached] at effect
      exact ⟨middle, rfl, effect⟩

theorem ready_first {entry : Nat} {before : Machine}
    (ready : before.Ready program (seq first second) entry) :
    before.Ready program first entry where
  sound := ready.sound
  room := by
    have room := ready.room
    unfold size at room
    omega
  floor := ready.floor
  level := ready.level
  known := ready.known.imp_right fun known => by
    obtain ⟨middle, reached, _⟩ := effect_seq known
    rw [reached]
    rfl

theorem ready_second {entry : Nat} {before middle : Machine}
    (ready : before.Ready program (seq first second) entry)
    (ran : Machine.Ran program place first entry before middle) :
    middle.Ready program second entry where
  sound := ran.sound
  room := by
    have room := ready.room
    unfold size at room
    rw [ran.offset, ran.function]
    omega
  floor := by
    rw [ran.floor]
    exact ready.floor
  level := (ready_first ready).level_after ran
  known := by
    rw [ran.floor]
    refine ready.known.imp_right fun known => ?_
    obtain ⟨height, reached, defined⟩ := effect_seq known
    rw [ran.height height reached, Nat.add_sub_cancel_left]
    exact defined

theorem runs_seq {limit : Nat}
    (firstRuns : first.Runs program place (first.exec batch run limit))
    (secondRuns : second.Runs program place (second.exec batch run limit)) :
    (seq first second).Runs program place ((seq first second).exec batch run limit) := by
  intro entry before after ready ran
  obtain ⟨middle, begun, continued⟩ := bind_eq_ok.mp ran
  have firstRan := firstRuns entry before middle (ready_first ready) begun
  have secondReady := ready_second ready firstRan
  have secondRan := secondRuns entry middle after secondReady continued
  refine ⟨firstRan.toKept.trans secondRan.toKept, ?_, ?_⟩
  · rw [secondRan.offset, firstRan.offset, size]
    omega
  · intro height effect
    obtain ⟨between, reached, _⟩ := effect_seq (Option.isSome_iff_exists.mpr ⟨_, effect⟩)
    apply secondRan.height
    rw [firstRan.height between reached, Nat.add_sub_cancel_left]
    unfold Block.effect at effect
    rw [reached] at effect
    exact effect

theorem ready_guarded {entry : Nat} {before : Machine}
    (ready : before.Ready program (guarded body) entry)
    (gives : body.Gives program.functions 0) :
    (before.jumped (before.current.offset + 3)).Ready program body before.top := by
  have room := ready.room
  unfold size at room
  refine Machine.ready_part gives (ready.sound.jumped (by omega)) ?_ rfl
  change before.current.offset + 3 + body.size ≤ before.current.function.code.length
  omega

theorem runs_guarded {limit : Nat}
    (bodyRuns : body.Runs program place (body.exec batch run limit))
    (gives : body.Gives program.functions 0) :
    (guarded body).Runs program place ((guarded body).exec batch run limit) := by
  intro entry before after ready ran
  have level := ready.level
  have room := ready.room
  unfold size at room
  have idle : ∀ height,
      (guarded body).effect program.functions height = some height := fun _ => rfl
  unfold exec Conduct.unlessIdle at ran
  split at ran
  · have ranBody := bodyRuns _ _ _ (ready_guarded ready gives) ran
    have jumped := @Machine.kept_jumped program before ready.sound
      (before.current.offset + 3) (by omega) place entry
    refine ⟨jumped.trans (ranBody.toKept.mono level), ?_, ?_⟩
    · rw [ranBody.offset, size]
      exact Nat.add_assoc _ _ _
    · exact ready.height_idle idle (ranBody.gave gives rfl)
  · cases ran
    refine ⟨Machine.kept_jumped ready.sound (by omega) place entry, ?_,
      ready.height_idle idle rfl⟩
    rw [size]
    exact Nat.add_assoc _ _ _

/-! ## Conditionals -/

variable {entry count : Nat} {before opened done after : Machine}

/-- A conditional takes a condition, and foretells the height from the rest. -/
def Branches (functions : List Function) (block : Block) (result : Nat → Nat) : Prop :=
  ∀ height, block.effect functions height =
    if 1 ≤ height then some (result (height - 1)) else none

namespace Branches

variable {functions : List Function} {block : Block} {result : Nat → Nat}

theorem opens (branches : block.Branches functions result) {height : Nat}
    (known : (block.effect functions height).isSome) : 1 ≤ height := by
  by_contra few
  rw [branches, if_neg few] at known
  cases known

theorem height (branches : block.Branches functions result) {height final : Nat}
    (effect : block.effect functions height = some final) :
    1 ≤ height ∧ final = result (height - 1) := by
  have enough := branches.opens (Option.isSome_iff_exists.mpr ⟨_, effect⟩)
  rw [branches, if_pos enough] at effect
  exact ⟨enough, (Option.some.inj effect).symm⟩

/-- The condition of a conditional stands above its entry. -/
theorem below (branches : block.Branches program.functions result)
    (ready : before.Ready program block entry)
    (present : before.current.floor + 1 ≤ before.top) : entry ≤ before.top - 1 := by
  rcases ready.known with atFloor | known
  · omega
  · have enough := branches.opens known
    omega

end Branches

/-- A machine in the scope of a conditional, some bytes into it. -/
structure Sided (program : Program) (place : Place) (entry bytes height : Nat)
    (before after : Machine) : Prop
    extends Machine.Opened program place entry before after where
  present : before.current.floor + 1 ≤ before.top
  below : entry ≤ before.top - 1
  top : after.top = before.top - 1 + height
  offset : after.current.offset = before.current.offset + bytes

/-- The first part of a conditional, from where its scope is open. -/
theorem ready_side (acted : Machine.Acted program .maskPush before opened)
    (room : before.current.offset + 1 + body.size ≤ before.current.function.code.length)
    (gives : body.Gives program.functions count) :
    opened.Ready program body (before.top - 1) := by
  refine Machine.ready_part gives acted.sound ?_ acted.top
  rw [acted.offset, acted.function]
  exact room

theorem side_sided (bodyRuns : body.Runs batch.program place bodyConduct)
    (gives : body.Gives batch.program.functions count)
    (sound : before.Sound batch.program)
    (room : before.current.offset + (1 + body.size) ≤ before.current.function.code.length)
    (level : before.current.floor + 1 ≤ before.top → entry ≤ before.top - 1)
    (ran : side batch bodyConduct before = .ok after) :
    Sided batch.program place entry (1 + body.size) count before after := by
  obtain ⟨opened, pushed, ran⟩ := bind_eq_ok.mp ran
  have acted := Machine.act_single sound rfl (by omega) rfl pushed
  have below := level acted.present
  have bodyRan := bodyRuns _ _ _ (ready_side acted (by omega) gives) ran
  have offset : opened.current.offset = before.current.offset + 1 := acted.offset
  refine ⟨(acted.opened place below).kept bodyRan.toKept below, acted.present, below,
    bodyRan.gave gives acted.top, ?_⟩
  rw [bodyRan.offset, offset]
  omega

theorem half_sided (bodyRuns : body.Runs batch.program place bodyConduct)
    (gives : body.Gives batch.program.functions count)
    (sound : before.Sound batch.program)
    (room : before.current.offset + (1 + body.size + 1) ≤
      before.current.function.code.length)
    (level : before.current.floor + 1 ≤ before.top → entry ≤ before.top - 1)
    (ran : half batch bodyConduct before = .ok after) :
    Sided batch.program place entry (1 + body.size + 1) count before after := by
  obtain ⟨done, ranBody, negated⟩ := bind_eq_ok.mp ran
  have left := side_sided bodyRuns gives sound (by omega) level ranBody
  have below := left.below
  have top := left.top
  have turn := Machine.act_single left.sound rfl
    (by rw [left.offset, left.function]; omega) rfl negated
  have turnTop : after.top = done.top := turn.top
  have turnOffset : after.current.offset = done.current.offset + 1 := turn.offset
  refine ⟨left.toOpened.negated turn (by omega), left.present, below, by omega, ?_⟩
  rw [turnOffset, left.offset]
  omega

/-- The second part of a conditional, from where its scope is turned. -/
theorem ready_otherwise {bytes height : Nat}
    (turned : Sided program place entry bytes height before done)
    (room : before.current.offset + (bytes + otherwise.size) ≤
      before.current.function.code.length)
    (gives : otherwise.Gives program.functions count) :
    done.Ready program otherwise (before.top - 1 + height) := by
  refine Machine.ready_part gives turned.sound ?_ turned.top
  rw [turned.offset, turned.function]
  omega

theorem sides_sided {rightCount : Nat}
    (bodyRuns : body.Runs batch.program place bodyConduct)
    (otherwiseRuns : otherwise.Runs batch.program place otherwiseConduct)
    (gives : body.Gives batch.program.functions count)
    (givesOtherwise : otherwise.Gives batch.program.functions rightCount)
    (sound : before.Sound batch.program)
    (room : before.current.offset + (1 + body.size + 1 + otherwise.size) ≤
      before.current.function.code.length)
    (level : before.current.floor + 1 ≤ before.top → entry ≤ before.top - 1)
    (ran : sides batch bodyConduct otherwiseConduct before = .ok after) :
    Sided batch.program place entry (1 + body.size + 1 + otherwise.size)
      (count + rightCount) before after := by
  obtain ⟨turned, ranHalf, ran⟩ := bind_eq_ok.mp ran
  have first := half_sided bodyRuns gives sound (by omega) level ranHalf
  have below := first.below
  have otherwiseRan := otherwiseRuns _ _ _
    (ready_otherwise first room givesOtherwise) ran
  refine ⟨first.toOpened.kept otherwiseRan.toKept (by omega), first.present, below, ?_, ?_⟩
  · rw [otherwiseRan.gave givesOtherwise first.top]
    omega
  · rw [otherwiseRan.offset, first.offset]
    omega

/-- The scope of a conditional in its first part. -/
theorem scopes_side (bodyRuns : body.Runs batch.program place bodyConduct)
    (gives : body.Gives batch.program.functions count) (sound : before.Sound batch.program)
    (room : before.current.offset + (1 + body.size) ≤ before.current.function.code.length)
    (ran : side batch bodyConduct before = .ok done) :
    done.predicates.scopes =
      ⟨(before.cell .local (before.top - 1)).truthy, before.predicates.mask.both
        (before.cell .local (before.top - 1)).truthy⟩ :: before.predicates.scopes := by
  obtain ⟨opened, pushed, ran⟩ := bind_eq_ok.mp ran
  have acted := Machine.act_single sound rfl (by omega) rfl pushed
  have bodyRan := bodyRuns _ _ _ (ready_side acted (by omega) gives) ran
  exact bodyRan.scopes.trans
    (congrArg Predicates.scopes (Predicates.maskPush_eq acted.predicates))

/-- The scope of a conditional where it turns to its second part. -/
theorem scopes_half (bodyRuns : body.Runs batch.program place bodyConduct)
    (gives : body.Gives batch.program.functions count) (sound : before.Sound batch.program)
    (room : before.current.offset + (1 + body.size + 1) ≤
      before.current.function.code.length)
    (level : before.current.floor + 1 ≤ before.top → entry ≤ before.top - 1)
    (ran : half batch bodyConduct before = .ok done) :
    done.predicates.scopes =
      ⟨(before.cell .local (before.top - 1)).truthy, before.predicates.mask.both
        (before.cell .local (before.top - 1)).truthy.complement⟩ ::
          before.predicates.scopes := by
  obtain ⟨left, ranSide, negated⟩ := bind_eq_ok.mp ran
  have sided := side_sided bodyRuns gives sound (by omega) level ranSide
  obtain ⟨scope, outer, nested, changed⟩ := (Machine.act_single sided.sound rfl
    (by rw [sided.offset, sided.function]; omega) rfl negated).onScopes rfl rfl
  rw [scopes_side bodyRuns gives sound (by omega) ranSide] at nested
  cases nested
  rw [changed, sided.occupied]
  rfl

/-- The scope of a conditional behind its second part. -/
theorem scopes_sides {rightCount : Nat}
    (bodyRuns : body.Runs batch.program place bodyConduct)
    (otherwiseRuns : otherwise.Runs batch.program place otherwiseConduct)
    (gives : body.Gives batch.program.functions count)
    (givesOtherwise : otherwise.Gives batch.program.functions rightCount)
    (sound : before.Sound batch.program)
    (room : before.current.offset + (1 + body.size + 1 + otherwise.size) ≤
      before.current.function.code.length)
    (level : before.current.floor + 1 ≤ before.top → entry ≤ before.top - 1)
    (ran : sides batch bodyConduct otherwiseConduct before = .ok done) :
    done.predicates.scopes =
      ⟨(before.cell .local (before.top - 1)).truthy, before.predicates.mask.both
        (before.cell .local (before.top - 1)).truthy.complement⟩ ::
          before.predicates.scopes := by
  obtain ⟨turned, ranHalf, ranOtherwise⟩ := bind_eq_ok.mp ran
  have ready := ready_otherwise (half_sided bodyRuns gives sound (by omega) level ranHalf)
    room givesOtherwise
  exact (otherwiseRuns _ _ _ ready ranOtherwise).scopes.trans
    (scopes_half bodyRuns gives sound (by omega) level ranHalf)

/-- The end of a conditional without results. -/
theorem ran_popped {block : Block} {bytes : Nat}
    (branches : block.Branches batch.program.functions fun height => height)
    (size : block.size = bytes + 1) (ready : before.Ready batch.program block entry)
    (inside : Sided batch.program place entry bytes 0 before done)
    (popped : done.act batch .maskPop = .ok after) :
    Machine.Ran batch.program place block entry before after := by
  have room := ready.room
  have below := inside.below
  have top := inside.top
  have closed := Machine.act_single inside.sound rfl
    (by rw [inside.offset, inside.function]; omega) rfl popped
  have closedOffset : after.current.offset = done.current.offset + 1 := closed.offset
  have closedTop : after.top = done.top := closed.top
  refine ⟨inside.toOpened.closed closed rfl rfl ?_, ?_, ?_⟩
  · change entry ≤ done.top
    omega
  · rw [closedOffset, inside.offset, size]
    omega
  · intro height effect
    obtain ⟨enough, rfl⟩ := branches.height effect
    omega

theorem branches_when (functions : List Function) :
    (when body).Branches functions fun height => height :=
  fun _ => rfl

theorem branches_choose (functions : List Function) :
    (choose body otherwise).Branches functions fun height => height :=
  fun _ => rfl

theorem branches_blend (functions : List Function) (count : UInt8) :
    (blend count body otherwise).Branches functions fun height => height + count.toNat :=
  fun _ => rfl

theorem runs_when {limit : Nat}
    (bodyRuns : body.Runs batch.program place (body.exec batch run limit))
    (gives : body.Gives batch.program.functions 0) :
    (when body).Runs batch.program place ((when body).exec batch run limit) := by
  intro entry before after ready ran
  obtain ⟨done, ranSide, popped⟩ := bind_eq_ok.mp ran
  have room := ready.room
  unfold size at room
  exact ran_popped (branches_when _) rfl ready (side_sided bodyRuns gives ready.sound
    (by omega) ((branches_when _).below ready) ranSide) popped

theorem runs_choose {limit : Nat}
    (bodyRuns : body.Runs batch.program place (body.exec batch run limit))
    (otherwiseRuns : otherwise.Runs batch.program place (otherwise.exec batch run limit))
    (gives : body.Gives batch.program.functions 0)
    (givesOtherwise : otherwise.Gives batch.program.functions 0) :
    (choose body otherwise).Runs batch.program place
      ((choose body otherwise).exec batch run limit) := by
  intro entry before after ready ran
  obtain ⟨done, ranSides, popped⟩ := bind_eq_ok.mp ran
  have room := ready.room
  unfold size at room
  exact ran_popped (branches_choose _) rfl ready (sides_sided bodyRuns otherwiseRuns gives
    givesOtherwise ready.sound (by omega) ((branches_choose _).below ready) ranSides) popped

theorem runs_blend {limit : Nat} {count : UInt8}
    (bodyRuns : body.Runs batch.program place (body.exec batch run limit))
    (otherwiseRuns : otherwise.Runs batch.program place (otherwise.exec batch run limit))
    (gives : body.Gives batch.program.functions count.toNat)
    (givesOtherwise : otherwise.Gives batch.program.functions count.toNat) :
    (blend count body otherwise).Runs batch.program place
      ((blend count body otherwise).exec batch run limit) := by
  intro entry before after ready ran
  obtain ⟨done, ranSides, blended⟩ := bind_eq_ok.mp ran
  have room := ready.room
  unfold size at room
  have inside := sides_sided bodyRuns otherwiseRuns gives givesOtherwise ready.sound
    (by omega) ((branches_blend _ count).below ready) ranSides
  have below := inside.below
  have top := inside.top
  have width : (Instruction.maskBlend count).width = 2 := rfl
  have closed := Machine.act_acted inside.sound
    (by rw [inside.offset, inside.function, width]; omega) rfl blended
  have closedOffset : after.current.offset = done.current.offset + 2 := closed.offset
  have closedTop : after.top = done.top - 2 * count.toNat + count.toNat := closed.top
  refine ⟨inside.toOpened.closed closed rfl rfl ?_, ?_, ?_⟩
  · change entry ≤ done.top - 2 * count.toNat
    omega
  · rw [closedOffset, inside.offset, size]
    omega
  · intro height effect
    obtain ⟨enough, rfl⟩ := (branches_blend _ count).height effect
    omega

/-! ## Loops -/

/-- A machine at the start of a round. -/
structure RoundReady (program : Program) (bytes : Nat) (machine : Machine) : Prop where
  sound : machine.Sound program
  room : machine.current.offset + bytes ≤ machine.current.function.code.length
  calm : machine.Calm

/-- A machine that has gone through rounds up to an offset. -/
structure Rounded (program : Program) (finish : Nat) (before after : Machine) : Prop
    extends Machine.Circles program before.top before after where
  calm : after.Calm
  top : after.top = before.top
  offset : after.current.offset = finish

variable {condition step : Block} {conditionConduct stepConduct next : Conduct}
variable {start : Nat} {tested : Machine}

/-- The start of a loop is the start of its first round. -/
theorem ready_round {bytes : Nat} {begun : Machine} (sound : before.Sound batch.program)
    (room : before.current.offset + (1 + bytes) ≤ before.current.function.code.length)
    (begins : before.act batch .loopBegin = .ok begun) :
    RoundReady batch.program bytes begun := by
  have beginning := Machine.act_single sound rfl (by omega) rfl begins
  have offset : begun.current.offset = before.current.offset + 1 := beginning.offset
  refine ⟨beginning.sound, ?_, beginning.begun.2.1⟩
  rw [offset, beginning.function]
  omega

theorem span_eq (condition body step : Nat) :
    span condition body step = condition + body + step + 8 := by
  unfold span
  omega

theorem Rounded.trans {middle finish : Nat} (first : Rounded program middle before done)
    (second : Rounded program finish done after) : Rounded program finish before after where
  toCircles := first.toCircles.trans (second.toCircles.mono (Nat.le_of_eq first.top.symm))
  calm := second.calm
  top := second.top.trans first.top
  offset := second.offset

/-- A branch back to the start of a round, or out of the loop. -/
theorem rounded_jumped {target : Nat} (sound : before.Sound program) (calm : before.Calm)
    (inside : target ≤ before.current.function.code.length) :
    Rounded program target before (before.jumped target) :=
  ⟨(Machine.kept_jumped sound inside .edge before.top).circles calm, calm, rfl, rfl⟩

theorem Rounded.jumped {finish target : Nat} (rounded : Rounded program finish before done)
    (inside : target ≤ before.current.function.code.length) :
    Rounded program target before (done.jumped target) := by
  refine rounded.trans (rounded_jumped rounded.sound rounded.calm ?_)
  rw [rounded.function]
  exact inside

/-- The body of a round, from behind its test. -/
theorem ready_body (gives : body.Gives program.functions count)
    (sound : tested.Sound program)
    (room : tested.current.offset + (3 + body.size) ≤ tested.current.function.code.length) :
    (tested.jumped (tested.current.offset + 3)).Ready program body tested.top := by
  refine Machine.ready_part gives (sound.jumped (by omega)) ?_ rfl
  change tested.current.offset + 3 + body.size ≤ tested.current.function.code.length
  omega

theorem body_kept (bodyRuns : body.Runs program .body bodyConduct)
    (gives : body.Gives program.functions 0) (sound : tested.Sound program)
    (room : tested.current.offset + (3 + body.size) ≤ tested.current.function.code.length)
    (ran : bodyConduct (tested.jumped (tested.current.offset + 3)) = .ok done) :
    Machine.Kept program .body tested.top tested done ∧ done.top = tested.top ∧
      done.current.offset = tested.current.offset + (3 + body.size) := by
  have bodyRan := bodyRuns _ _ _ (ready_body gives sound room) ran
  have moved := @Machine.kept_jumped program tested sound (tested.current.offset + 3)
    (by omega) .body tested.top
  have offset : done.current.offset = tested.current.offset + 3 + _ := bodyRan.offset
  exact ⟨moved.trans bodyRan.toKept, bodyRan.gave gives rfl, by omega⟩

/-- The lanes that wait for the next round are back in the loop. -/
theorem resumed_rounded {resumed : Machine} (bodyRuns : body.Runs batch.program .body bodyConduct)
    (gives : body.Gives batch.program.functions 0)
    (sound : tested.Sound batch.program) (calm : tested.Calm)
    (room : tested.current.offset + (3 + body.size + 1) ≤
      tested.current.function.code.length)
    (ran : bodyConduct (tested.jumped (tested.current.offset + 3)) = .ok done)
    (acted : done.act batch .loopNext = .ok resumed) :
    Rounded batch.program (tested.current.offset + (3 + body.size + 1)) tested resumed := by
  obtain ⟨kept, top, offset⟩ := body_kept bodyRuns gives sound (by omega) ran
  have resuming := Machine.act_single kept.sound rfl
    (by rw [offset, kept.function]; omega) rfl acted
  have circles := (kept.circles calm).resumed resuming (Nat.le_of_eq top.symm)
  have resumedTop : resumed.top = done.top := resuming.top
  have resumedOffset : resumed.current.offset = done.current.offset + 1 := resuming.offset
  exact ⟨circles, resuming.calmed, by omega, by omega⟩

/-- The step of a round, from where the lanes that wait are back. -/
theorem ready_step {finish : Nat} {resumed : Machine}
    (rounded : Rounded program finish tested resumed)
    (givesStep : step.Gives program.functions count)
    (room : finish + step.size ≤ tested.current.function.code.length) :
    resumed.Ready program step tested.top := by
  refine Machine.ready_part givesStep rounded.sound ?_ rounded.top
  rw [rounded.offset, rounded.function]
  exact room

theorem stepped_rounded {finish : Nat} {resumed stepped : Machine}
    (stepRuns : step.Runs program .edge stepConduct)
    (givesStep : step.Gives program.functions 0)
    (rounded : Rounded program finish tested resumed)
    (room : finish + step.size ≤ tested.current.function.code.length)
    (ran : stepConduct resumed = .ok stepped) :
    Rounded program (finish + step.size) tested stepped := by
  have stepRan := stepRuns _ _ _ (ready_step rounded givesStep room) ran
  refine ⟨rounded.toCircles.trans (stepRan.toKept.circles rounded.calm),
    stepRan.toKept.calm rounded.calm, stepRan.gave givesStep rounded.top, ?_⟩
  rw [stepRan.offset, rounded.offset]

/-- Some rounds of a loop keep their frame. -/
def RoundsRun (program : Program) (bytes : Nat) (conduct : Conduct) : Prop :=
  ∀ before after, RoundReady program bytes before → conduct before = .ok after →
    Rounded program (before.current.offset + bytes) before after

/-- The step of a round and the rounds after it. -/
theorem step_rounded {finish bytes : Nat} {resumed : Machine}
    (stepRuns : step.Runs batch.program .edge stepConduct)
    (givesStep : step.Gives batch.program.functions 0)
    (nextRounds : RoundsRun batch.program bytes next)
    (rounded : Rounded batch.program finish tested resumed)
    (room : finish + step.size ≤ tested.current.function.code.length)
    (inside : start + bytes ≤ tested.current.function.code.length)
    (ran : (stepConduct resumed >>= fun stepped => next (stepped.jumped start)) =
      .ok after) :
    Rounded batch.program (start + bytes) tested after := by
  obtain ⟨stepped, ranStep, ran⟩ := bind_eq_ok.mp ran
  have whole := (stepped_rounded stepRuns givesStep rounded room ranStep).jumped
    (show start ≤ _ by omega)
  exact whole.trans (nextRounds _ _
    ⟨whole.sound, by rw [whole.function]; exact inside, whole.calm⟩ ran)

/-- The rest of a round and the rounds after it. -/
theorem turn_rounded {bytes : Nat}
    (bodyRuns : body.Runs batch.program .body bodyConduct)
    (stepRuns : step.Runs batch.program .edge stepConduct)
    (gives : body.Gives batch.program.functions 0)
    (givesStep : step.Gives batch.program.functions 0)
    (nextRounds : RoundsRun batch.program bytes next)
    (sound : tested.Sound batch.program) (calm : tested.Calm)
    (room : tested.current.offset + (3 + body.size + 1 + step.size) ≤
      tested.current.function.code.length)
    (inside : start + bytes ≤ tested.current.function.code.length)
    (ran : turn batch bodyConduct stepConduct next start tested = .ok after) :
    Rounded batch.program (start + bytes) tested after := by
  obtain ⟨done, ranBody, ran⟩ := bind_eq_ok.mp ran
  obtain ⟨resumed, acted, ran⟩ := bind_eq_ok.mp ran
  exact step_rounded stepRuns givesStep nextRounds
    (resumed_rounded bodyRuns gives sound calm (by omega) ranBody acted) (by omega) inside ran

/-- What follows the test of a round. -/
theorem narrowed_rounded {bytes : Nat}
    (bodyRuns : body.Runs batch.program .body bodyConduct)
    (stepRuns : step.Runs batch.program .edge stepConduct)
    (gives : body.Gives batch.program.functions 0)
    (givesStep : step.Gives batch.program.functions 0)
    (nextRounds : RoundsRun batch.program bytes next)
    (sound : tested.Sound batch.program) (calm : tested.Calm)
    (room : tested.current.offset + (3 + body.size + 1 + step.size) ≤
      tested.current.function.code.length)
    (inside : start + bytes ≤ tested.current.function.code.length)
    (ran : (turn batch bodyConduct stepConduct next start).unlessIdle
      (·.jumped (start + bytes)) tested = .ok after) :
    Rounded batch.program (start + bytes) tested after := by
  unfold Conduct.unlessIdle at ran
  split at ran
  · exact turn_rounded bodyRuns stepRuns gives givesStep nextRounds sound calm room inside ran
  · cases ran
    exact rounded_jumped sound calm inside

/-- The test of a round: the condition, and the lanes that it keeps. -/
theorem tested_rounded (conditionRuns : condition.Runs batch.program .edge conditionConduct)
    (givesCondition : condition.Gives batch.program.functions 1)
    (sound : before.Sound batch.program) (calm : before.Calm)
    (room : before.current.offset + condition.size + 1 ≤
      before.current.function.code.length)
    (ran : conditionConduct before = .ok done)
    (narrowed : done.act batch .loopMask = .ok tested) :
    Rounded batch.program (before.current.offset + condition.size + 1) before tested := by
  have conditionReady : before.Ready batch.program condition before.top :=
    Machine.ready_part givesCondition sound (by omega) rfl
  have conditionRan := conditionRuns _ _ _ conditionReady ran
  have conditionTop := conditionRan.gave givesCondition rfl
  have conditionOffset := conditionRan.offset
  have narrowing := Machine.act_single conditionRan.sound rfl
    (by rw [conditionOffset, conditionRan.function]; omega) rfl narrowed
  obtain ⟨circles, calmAgain⟩ := narrowing.narrowed (conditionRan.toKept.calm calm)
    (show before.top ≤ done.top - 1 by omega)
  have top : tested.top = done.top - 1 := narrowing.top
  have offset : tested.current.offset = done.current.offset + 1 := narrowing.offset
  refine ⟨(conditionRan.toKept.circles calm).trans circles, calmAgain, ?_, ?_⟩
  · omega
  · omega

theorem rounds_rounded (conditionRuns : condition.Runs batch.program .edge conditionConduct)
    (bodyRuns : body.Runs batch.program .body bodyConduct)
    (stepRuns : step.Runs batch.program .edge stepConduct)
    (givesCondition : condition.Gives batch.program.functions 1)
    (gives : body.Gives batch.program.functions 0)
    (givesStep : step.Gives batch.program.functions 0) (limit : Nat) :
    RoundsRun batch.program (span condition.size body.size step.size)
      (rounds batch (span condition.size body.size step.size) conditionConduct
        bodyConduct stepConduct limit) := by
  induction limit with
  | zero =>
      rintro before after ready ⟨⟩
  | succ limit induction =>
      intro before after ready ran
      have room := ready.room
      have bytes := span_eq condition.size body.size step.size
      obtain ⟨done, ranCondition, ran⟩ := bind_eq_ok.mp ran
      obtain ⟨tested, narrowed, ran⟩ := bind_eq_ok.mp ran
      have test := tested_rounded conditionRuns givesCondition ready.sound ready.calm
        (by omega) ranCondition narrowed
      have offset := test.offset
      have function := test.function
      exact test.trans (narrowed_rounded bodyRuns stepRuns gives givesStep induction
        test.sound test.calm (by rw [function]; omega) (by rw [function]; exact room) ran)

theorem runs_loop {limit : Nat}
    (conditionRuns : condition.Runs batch.program .edge (condition.exec batch run limit))
    (bodyRuns : body.Runs batch.program .body (body.exec batch run limit))
    (stepRuns : step.Runs batch.program .edge (step.exec batch run limit))
    (givesCondition : condition.Gives batch.program.functions 1)
    (gives : body.Gives batch.program.functions 0)
    (givesStep : step.Gives batch.program.functions 0) :
    (loop condition body step).Runs batch.program place
      ((loop condition body step).exec batch run limit) := by
  intro entry before after ready ran
  obtain ⟨begun, begins, ran⟩ := bind_eq_ok.mp ran
  obtain ⟨done, ranRounds, ends⟩ := bind_eq_ok.mp ran
  have room := ready.room
  unfold size at room
  have level := ready.level
  have beginning := Machine.act_single ready.sound rfl (by omega) rfl begins
  have begunTop : begun.top = before.top := beginning.top
  have begunOffset : begun.current.offset = before.current.offset + 1 := beginning.offset
  have rounded := rounds_rounded conditionRuns bodyRuns stepRuns givesCondition gives
    givesStep limit _ _ (ready_round ready.sound (by omega) begins) ranRounds
  have doneTop := rounded.top
  have doneOffset := rounded.offset
  have ending := Machine.act_single rounded.sound rfl
    (by rw [doneOffset, rounded.function, beginning.function]; omega) rfl ends
  have endTop : after.top = done.top := ending.top
  have endOffset : after.current.offset = done.current.offset + 1 := ending.offset
  have circles := rounded.toCircles.mono (show entry ≤ begun.top by omega)
  refine ⟨circles.ended beginning ending place level (by omega), ?_, ?_⟩
  · rw [endOffset, doneOffset, begunOffset, size]
    omega
  · exact ready.height_idle (fun _ => rfl) (by omega)

/-! ## All blocks -/

/-- A block that comes to its end keeps its frame. -/
theorem exec_ran (returns : run.Returns batch.program) (limit : Nat) (block : Block)
    (wellFormed : block.WellFormed batch.program.functions place) :
    block.Runs batch.program place (block.exec batch run limit) := by
  induction block generalizing place with
  | skip =>
      intro entry before after ready ran
      cases ran
      exact ⟨Machine.kept_jumped ready.sound ready.sound.running.offset place entry, rfl,
        ready.height_idle (fun _ => rfl) rfl⟩
  | plain instruction =>
      exact runs_plain wellFormed
  | call function =>
      exact runs_call returns function limit
  | seq first second firstRuns secondRuns =>
      exact runs_seq (firstRuns wellFormed.1) (secondRuns wellFormed.2)
  | guarded body bodyRuns =>
      exact runs_guarded (bodyRuns wellFormed.1) wellFormed.2
  | when body bodyRuns =>
      exact runs_when (bodyRuns wellFormed.1) wellFormed.2
  | choose body otherwise bodyRuns otherwiseRuns =>
      obtain ⟨⟨bodyForm, gives⟩, otherwiseForm, givesOtherwise⟩ := wellFormed
      exact runs_choose (bodyRuns bodyForm) (otherwiseRuns otherwiseForm) gives
        givesOtherwise
  | blend count body otherwise bodyRuns otherwiseRuns =>
      obtain ⟨⟨bodyForm, gives⟩, otherwiseForm, givesOtherwise⟩ := wellFormed
      exact runs_blend (bodyRuns bodyForm) (otherwiseRuns otherwiseForm) gives
        givesOtherwise
  | loop condition body step conditionRuns bodyRuns stepRuns =>
      obtain ⟨⟨conditionForm, givesCondition⟩, ⟨bodyForm, gives⟩, stepForm, givesStep⟩ :=
        wellFormed
      exact runs_loop (conditionRuns conditionForm) (bodyRuns bodyForm)
        (stepRuns stepForm) givesCondition gives givesStep
  | leave =>
      exact runs_leave wellFormed
  | again =>
      cases wellFormed
      exact runs_again

end Block

/-! ## Functions -/

/-- A plan that describes the code of all functions of a program. -/
def Plan.Describes (plan : Plan) (program : Program) : Prop :=
  ∀ function ∈ program.functions,
    function.StructuredBy program.functions (plan function).1 (plan function).2

namespace Plan

variable {plan : Plan} {batch : Batch σ} {before after : Machine}

/-- A machine at the start of a function is ready for its block. -/
theorem Describes.ready (describes : plan.Describes batch.program)
    (sound : before.Sound batch.program) (start : before.current.offset = 0) :
    before.Ready batch.program (plan before.current.function).1 before.current.floor := by
  have room := (describes _ sound.running.known).room
  refine ⟨sound, ?_, Nat.le_refl _, sound.floor, Or.inl rfl⟩
  rw [start]
  omega

/-- What is left of the machine of a function when it comes to its return. -/
theorem Describes.perform_ran (describes : plan.Describes batch.program) {bound : Nat}
    {done : Machine} (returns : Conduct.Returns batch.program (plan.serve batch bound))
    (sound : before.Sound batch.program) (start : before.current.offset = 0)
    (ran : plan.perform batch bound before = .ok done) :
    before.Ran batch.program .outside (plan before.current.function).1 before.current.floor
        done ∧
      done.current.offset + 2 ≤ done.current.function.code.length := by
  have structured := describes _ sound.running.known
  have body := Block.exec_ran returns (bound + 1) _ structured.wellFormed _ _ _
    (describes.ready sound start) ran
  refine ⟨body, ?_⟩
  rw [body.offset, body.function, start, Nat.zero_add]
  exact structured.room

/-- A function that returns answers its caller. -/
theorem Describes.serve_returns (describes : plan.Describes batch.program) (bound : Nat) :
    Conduct.Returns batch.program (plan.serve batch bound) := by
  induction bound with
  | zero =>
      rintro before after sound start waiting ⟨⟩
  | succ bound induction =>
      intro before after sound start waiting ran
      obtain ⟨done, ranBody, returned⟩ := bind_eq_ok.mp ran
      obtain ⟨body, room⟩ := describes.perform_ran induction sound start ranBody
      obtain ⟨results, caller, earlier, returns, nested, reserved, rfl⟩ :=
        Machine.act_returned body.sound room (body.callers ▸ waiting) returned
      have moved : (done.advanced (.ret (plan before.current.function).2)).Sound
          batch.program := body.sound.jumped room
      have declared : (plan before.current.function).2.toNat =
          before.current.function.returnCount :=
        returns.declared.trans (congrArg Function.returnCount body.function)
      have counted : results.length = before.current.function.returnCount := by
        rw [returns.returned, Machine.length_topmost, declared]
      rw [declared, body.base] at reserved
      have arguments := sound.running.arguments
      have floor := sound.floor
      have capacity := sound.capacity
      refine ⟨moved.resumed nested, ?_, reserved, ?_, body.predicates_eq, ?_⟩
      · exact body.callers.symm.trans nested
      · change done.current.base + done.current.argumentCount = _
        rw [body.sound.running.counted, body.base, body.function]
      · intro bank position lane idle below
        rw [← counted] at below
        have handed := @Machine.cell_resumed
          (done.advanced (.ret (plan before.current.function).2)) caller earlier results
          bank position (by rw [counted]; change _ ≤ done.current.base; rw [body.base]; omega)
          (by change done.current.base ≤ _; rw [body.base]; omega)
          (by change _ → _ < done.current.base - _; rw [body.base]; exact below)
        have kept := body.cells bank position lane idle fun isLocal => by
          have := below isLocal
          omega
        rw [handed, ← kept]
        cases bank <;> rfl

theorem Describes.performed (describes : plan.Describes batch.program) {bound : Nat}
    {done : Machine} (sound : before.Sound batch.program)
    (start : before.current.offset = 0) (ran : plan.perform batch bound before = .ok done) :
    before.Ran batch.program .outside (plan before.current.function).1 before.current.floor
        done ∧
      done.current.offset + 2 ≤ done.current.function.code.length :=
  describes.perform_ran (describes.serve_returns bound) sound start ran

end Plan

end Lockstep
