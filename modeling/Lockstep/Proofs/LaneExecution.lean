import Lockstep.Proofs.Elements

/-!
# Each lane carries out a block on its own

A block is carried out for all lanes together, under masks.  A lane that is live
at the start of the block ends as the element in it does when it carries out the
block alone: `Block.Shows` says so, and here it is shown for instructions,
sequences and conditionals.

A lane that is not live rests, `Machine.Rests`: what the others do leaves its
slots, its globals and its operands below the entry of the block alone.  So a
lane arrives at the end of a conditional with what the part that it takes has
made of it, and at the end of a loop with what it had when it left the loop.
`Machine.Arrives` says how the way in which the element ends shows in the
predicates: the lane still runs in the innermost loop, or has left it, or waits
for its next round.
-/

namespace Lockstep

variable {σ : Type}

namespace Predicates

/-- The lanes that wait inside some loops. -/
def parkedWithin : List Loop → Mask
  | [] => .none
  | loop :: _ => loop.parked

/-- The lanes that wait for the next round of the innermost loop. -/
def parked (predicates : Predicates) : Mask :=
  parkedWithin predicates.loops

end Predicates

theorem LoopsKeep.idle {place : Place} {live : Mask} {first second : List Loop} {lane : Lane}
    (keeps : LoopsKeep place live first second) (idle : live.get lane = false) :
    (Predicates.runningWithin second).get lane = (Predicates.runningWithin first).get lane ∧
      (Predicates.parkedWithin second).get lane =
        (Predicates.parkedWithin first).get lane := by
  cases keeps with
  | same =>
      exact ⟨rfl, rfl⟩
  | innermost keeps =>
      exact keeps.idle lane idle

namespace Machine

variable {batch : Batch σ} {lane : Lane} {entry level lowest : Nat} {lower : List Word}
variable {machine before middle after : Machine} {state : Element} {exit : Exit}
variable {program : Program} {place : Place}

theorem get_live (machine : Machine) (lane : Lane) :
    machine.live.get lane =
      (machine.predicates.mask.get lane && machine.predicates.running.get lane) :=
  Lanes.get_both _ _ _

theorem running_of_live (live : machine.live.get lane = true) :
    machine.predicates.running.get lane = true := by
  rw [get_live, Bool.and_eq_true] at live
  exact live.2

/-! ## Lanes that rest -/

/-- A lane keeps its cells, apart from those of the stack from a level on. -/
structure Unmoved (lane : Lane) (level : Nat) (before after : Machine) : Prop where
  current : after.current = { before.current with offset := after.current.offset }
  cells : ∀ bank position, (bank = .local → position < level) →
    (after.cell bank position).get lane = (before.cell bank position).get lane

/-- A lane keeps its cells and its place in the innermost loop. -/
structure Rests (lane : Lane) (level : Nat) (before after : Machine) : Prop
    extends Unmoved lane level before after where
  running : after.predicates.running.get lane = before.predicates.running.get lane
  parked : after.predicates.parked.get lane = before.predicates.parked.get lane

/-- A lane keeps its operands below a level. -/
structure Steady (lane : Lane) (level : Nat) (before after : Machine) : Prop where
  floor : after.current.floor = before.current.floor
  cells : ∀ position, before.current.floor ≤ position → position < level →
    (after.cell .local position).get lane = (before.cell .local position).get lane

theorem Steady.mono (steady : Steady lane level before after) (below : lowest ≤ level) :
    Steady lane lowest before after :=
  ⟨steady.floor, fun position floor inside =>
    steady.cells position floor (Nat.lt_of_lt_of_le inside below)⟩

theorem Steady.trans (first : Steady lane level before middle)
    (second : Steady lane level middle after) : Steady lane level before after := by
  refine ⟨second.floor.trans first.floor, fun position floor inside => ?_⟩
  rw [second.cells position (by rw [first.floor]; exact floor) inside]
  exact first.cells position floor inside

theorem Unmoved.steady (unmoved : Unmoved lane level before after) :
    Steady lane level before after :=
  ⟨by rw [unmoved.current], fun position _ inside => unmoved.cells _ position fun _ => inside⟩

theorem Unmoved.mono (unmoved : Unmoved lane level before after) (below : lowest ≤ level) :
    Unmoved lane lowest before after :=
  ⟨unmoved.current, fun bank position inside => unmoved.cells bank position fun isLocal =>
    Nat.lt_of_lt_of_le (inside isLocal) below⟩

theorem Unmoved.trans (first : Unmoved lane level before middle)
    (second : Unmoved lane level middle after) : Unmoved lane level before after where
  current := by
    have later := second.current
    rw [first.current] at later
    exact later
  cells := fun bank position inside =>
    (second.cells bank position inside).trans (first.cells bank position inside)

theorem Rests.mono (rests : Rests lane level before after) (below : lowest ≤ level) :
    Rests lane lowest before after :=
  ⟨rests.toUnmoved.mono below, rests.running, rests.parked⟩

theorem Rests.trans (first : Rests lane level before middle)
    (second : Rests lane level middle after) : Rests lane level before after :=
  ⟨first.toUnmoved.trans second.toUnmoved, second.running.trans first.running,
    second.parked.trans first.parked⟩

/-- A lane that is not live rests. -/
theorem Kept.rests (kept : Kept program place entry before after)
    (idle : before.live.get lane = false) : Rests lane entry before after :=
  ⟨⟨kept.current, fun bank position => kept.cells bank position lane idle⟩,
    (kept.loops.idle idle).1, (kept.loops.idle idle).2⟩

/-- An instruction that writes no slots leaves what is below its operands alone. -/
theorem act_unmoved (sound : machine.Sound batch.program) {instruction : Instruction}
    (room : machine.current.offset + instruction.width ≤
      machine.current.function.code.length)
    (isInner : instruction.inner = true)
    (nowhere : (machine.advanced instruction).addressed instruction = untouched)
    (acted : machine.act batch instruction = .ok after) (lane : Lane) :
    Unmoved lane (machine.top - instruction.taken) machine after := by
  have operated := act_operated sound room isInner acted
  refine ⟨(act_acted sound room isInner acted).current, fun bank position inside => ?_⟩
  have kept := operated.stack.cells bank position lane inside
    (by rw [nowhere]; exact fun impossible => impossible)
  cases bank <;> exact kept

/-- An instruction of one byte that writes no slots. -/
theorem act_unmoved_single (sound : machine.Sound batch.program) {instruction : Instruction}
    (single : instruction.width = 1)
    (room : machine.current.offset < machine.current.function.code.length)
    (isInner : instruction.inner = true)
    (nowhere : (machine.advanced instruction).addressed instruction = untouched)
    (acted : machine.act batch instruction = .ok after) (lane : Lane) :
    Unmoved lane (machine.top - instruction.taken) machine after :=
  act_unmoved sound (single ▸ room) isInner nowhere acted lane

theorem Sound.frame_le (sound : machine.Sound program) :
    machine.current.base + machine.current.function.frameSize ≤ machine.top := by
  rw [sound.fits.frame_eq]
  exact sound.floor

/-! ## Lanes and their elements -/

/-- The slots and the globals of an element are those of a lane. -/
structure Holds (batch : Batch σ) (lane : Lane) (machine : Machine) (state : Element) :
    Prop where
  slots : state.slots = machine.words lane .local machine.current.base
    machine.current.function.frameSize
  globals : state.globals = machine.words lane .global 0 batch.program.globalLimit

theorem holds_element : Holds batch lane machine (machine.element batch lane entry lower) :=
  ⟨rfl, rfl⟩

/-- An element that a lane holds is the one in the lane with other operands. -/
theorem Holds.eq_element (holds : Holds batch lane machine state)
    (operands : state.operands =
      lower ++ machine.words lane .local entry (machine.top - entry)) :
    state = machine.element batch lane entry lower := by
  rcases state with ⟨slots, globals, given⟩
  obtain ⟨rfl, rfl⟩ := holds
  cases operands
  rfl

theorem Holds.element_top (holds : Holds batch lane machine state) :
    machine.element batch lane machine.top state.operands = state := by
  refine (holds.eq_element ?_).symm
  rw [Nat.sub_self]
  exact (List.append_nil _).symm

theorem Unmoved.holds (unmoved : Unmoved lane level before after)
    (frame : before.current.base + before.current.function.frameSize ≤ level)
    (holds : Holds batch lane before state) : Holds batch lane after state := by
  constructor
  · rw [holds.slots, unmoved.current]
    refine (words_congr fun position _ upper => unmoved.cells _ _ fun _ => ?_).symm
    omega
  · rw [holds.globals]
    exact (words_congr fun position _ _ => unmoved.cells _ _ (by rintro ⟨⟩)).symm

/--
A lane at the end of some code that an element has carried out.  The element
has come to the end of the code if the lane still runs in the innermost loop.
-/
structure Arrives (batch : Batch σ) (lane : Lane) (entry : Nat) (before : Machine)
    (exit : Exit) (state : Element) (after : Machine) : Prop
    extends Holds batch lane after state where
  steady : Steady lane entry before after
  running : after.predicates.running.get lane = (exit == .normal)
  parked : after.predicates.parked.get lane =
    (exit == .again || before.predicates.parked.get lane)

namespace Arrives

/-- A lane that arrives and rests. -/
theorem rested (arrives : Arrives batch lane entry before exit state middle)
    (rests : Rests lane level middle after) (fits : middle.Fits)
    (floor : middle.current.floor ≤ level) (higher : entry ≤ level) :
    Arrives batch lane entry before exit state after where
  toHolds := rests.holds (by rw [fits.frame_eq]; exact floor) arrives.toHolds
  steady := arrives.steady.trans (rests.steady.mono higher)
  running := rests.running.trans arrives.running
  parked := rests.parked.trans arrives.parked

/-- A lane that rests and sets out. -/
theorem resting {height : Nat} (rests : Rests lane level before middle)
    (arrives : Arrives batch lane height middle exit state after) (lower : entry ≤ level)
    (low : entry ≤ height) : Arrives batch lane entry before exit state after where
  toHolds := arrives.toHolds
  steady := (rests.steady.mono lower).trans (arrives.steady.mono low)
  running := arrives.running
  parked := by
    rw [arrives.parked, rests.parked]

end Arrives

/-- A lane at the end of a block that an element has carried out. -/
structure Ends (batch : Batch σ) (lane : Lane) (entry : Nat) (lower : List Word)
    (before : Machine) (exit : Exit) (state : Element) (after : Machine) : Prop
    extends Arrives batch lane entry before exit state after where
  operands : exit = .normal →
    state.operands = lower ++ after.words lane .local entry (after.top - entry)

theorem Ends.eq_element (ends : Ends batch lane entry lower before .normal state after) :
    state = after.element batch lane entry lower :=
  ends.toHolds.eq_element (ends.operands rfl)

/-- Results on operands that were left alone. -/
theorem Arrives.ends {count : Nat}
    (arrives : Arrives batch lane level before exit state after)
    (floor : before.current.floor ≤ entry) (below : entry ≤ level)
    (top : after.top = level + count)
    (operands : exit = .normal → state.operands =
      (lower ++ before.words lane .local entry (level - entry)) ++
        after.words lane .local level count) :
    Ends batch lane entry lower before exit state after where
  toHolds := arrives.toHolds
  steady := arrives.steady.mono below
  running := arrives.running
  parked := arrives.parked
  operands := by
    intro normal
    have same : after.words lane .local entry (level - entry) =
        before.words lane .local entry (level - entry) :=
      words_congr fun position _ _ => arrives.steady.cells position (by omega) (by omega)
    rw [operands normal, show after.top - entry = level - entry + count by omega,
      words_append, same, show entry + (level - entry) = level by omega,
      List.append_assoc]

end Machine

/-- Each live lane carries out a block as the element in it does. -/
def Block.Shows (batch : Batch σ) (block : Block) (conduct : Conduct) : Prop :=
  ∀ lane entry lower before after, before.Ready batch.program block entry →
    before.live.get lane = true → conduct before = .ok after →
      ∃ exit state,
        Element.Executes batch.uniforms block (before.element batch lane entry lower) exit
          state ∧
        Machine.Ends batch lane entry lower before exit state after

namespace Block

open Machine (Arrives Ends Holds Rests)

variable {batch : Batch σ} {lane : Lane} {place : Place} {run conduct : Conduct}
variable {block first second body otherwise : Block} {count entry : Nat} {lower : List Word}
variable {machine before done after : Machine} {state : Element}

/-- A part of a block, from an element that a lane holds. -/
theorem Shows.part (shown : block.Shows batch conduct)
    (runs : block.Runs batch.program place conduct)
    (gives : block.Gives batch.program.functions count)
    (ready : machine.Ready batch.program block machine.top)
    (holds : Holds batch lane machine state) (live : machine.live.get lane = true)
    (ran : conduct machine = .ok after) :
    ∃ exit final, Element.Executes batch.uniforms block state exit final ∧
      Arrives batch lane machine.top machine exit final after ∧
      (exit = .normal →
        final.operands = state.operands ++ after.words lane .local machine.top count) := by
  obtain ⟨exit, final, executes, ends⟩ :=
    shown lane machine.top state.operands machine after ready live ran
  rw [holds.element_top] at executes
  refine ⟨exit, final, executes, ends.toArrives, fun normal => ?_⟩
  have top := (runs _ _ _ ready ran).gave gives rfl
  rw [ends.operands normal, top, Nat.add_sub_cancel_left]

/-! ## Instructions -/

theorem shows_skip : skip.Shows batch (fun machine => .ok machine) := by
  rintro lane entry lower before _ ready live ⟨⟩
  exact ⟨.normal, _, .skip, ⟨⟨Machine.holds_element, ⟨rfl, fun _ _ _ => rfl⟩,
    Machine.running_of_live live, rfl⟩, fun _ => rfl⟩⟩

theorem shows_plain {instruction : Instruction} (isPlain : instruction.plain = true) :
    (plain instruction).Shows batch (Machine.act batch instruction) := by
  intro lane entry lower before after ready live acted
  obtain ⟨stays, quiet⟩ := instruction.stays_of_plain isPlain
  have inner := instruction.inner_of_stays stays
  have operated := Machine.act_operated ready.sound ready.room inner acted
  have moved : (before.advanced instruction).Sound batch.program :=
    ready.sound.jumped ready.room
  have floor := ready.floor
  have taken := taken_above ready operated.stack.present
  have predicates : after.predicates = before.predicates := by
    have same := operated.predicates
    rw [Machine.predicated, quiet] at same
    exact (Except.ok.inj same).symm
  obtain ⟨flow, carried, rfl⟩ := Machine.act_eq_ok.mp acted
  have stepped := @Machine.step?_element σ batch lane entry lower
    (before.advanced instruction) instruction flow moved.fits isPlain floor taken live carried
  have current : flow.machine.current = (before.advanced instruction).current :=
    operated.stack.current
  refine ⟨.normal, _, .plain stepped, ⟨⟨Machine.holds_element, ⟨?_, ?_⟩, ?_, ?_⟩,
    fun _ => rfl⟩⟩
  · rw [current]
    rfl
  · intro position lowest below
    refine operated.stack.cells .local position lane (fun _ => ?_) fun addressed => ?_
    · change position < before.top - instruction.taken
      omega
    · have confined : position < before.current.floor :=
        ((operated.stack.confined _ _ _ addressed).2 rfl).2
      omega
  · rw [predicates]
    exact Machine.running_of_live live
  · rw [predicates]
    rfl

/-- A lane at an instruction that takes it out of the round. -/
theorem ends_round {instruction : Instruction} {exit : Exit}
    (sound : before.Sound batch.program) (single : instruction.width = 1)
    (room : before.current.offset < before.current.function.code.length)
    (isInner : instruction.inner = true) (idle : instruction.taken = 0)
    (nowhere : (before.advanced instruction).addressed instruction = Machine.untouched)
    (acted : before.act batch instruction = .ok after) (level : entry ≤ before.top)
    (exits : exit ≠ .normal) (running : after.predicates.running.get lane = false)
    (parked : after.predicates.parked.get lane =
      (exit == .again || before.predicates.parked.get lane)) :
    Ends batch lane entry lower before exit (before.element batch lane entry lower) after := by
  have unmoved := Machine.act_unmoved_single sound single room isInner nowhere acted lane
  rw [idle, Nat.sub_zero] at unmoved
  refine ⟨⟨unmoved.holds sound.frame_le Machine.holds_element, unmoved.steady.mono level, ?_,
    parked⟩, ?_⟩
  · rw [running]
    exact (beq_false_of_ne exits).symm
  · exact fun normal => absurd normal exits

theorem get_left (mask : Mask) (live : before.live.get lane = true) :
    (mask.both before.live.complement).get lane = false := by
  rw [Lanes.get_both, Lanes.get_complement, live]
  exact Bool.and_false _

theorem shows_leave : leave.Shows batch (Machine.act batch .loopBreak) := by
  intro lane entry lower before after ready live acted
  have done := Machine.act_single ready.sound rfl ready.room rfl acted
  obtain ⟨loop, outer, nested, changed⟩ := done.onLoops rfl rfl
  refine ⟨.leave, _, .leave, ends_round ready.sound rfl ready.room rfl rfl rfl acted
    ready.level (by decide) ?_ ?_⟩
  · rw [changed]
    exact get_left loop.running live
  · unfold Predicates.parked
    rw [changed, nested]
    rfl

theorem shows_again : again.Shows batch (Machine.act batch .loopContinue) := by
  intro lane entry lower before after ready live acted
  have done := Machine.act_single ready.sound rfl ready.room rfl acted
  obtain ⟨loop, outer, nested, changed⟩ := done.onLoops rfl rfl
  refine ⟨.again, _, .again, ends_round ready.sound rfl ready.room rfl rfl rfl acted
    ready.level (by decide) ?_ ?_⟩
  · rw [changed]
    exact get_left loop.running live
  · unfold Predicates.parked
    rw [changed, nested]
    change (Lanes.either _ _).get lane = true
    rw [Lanes.get_either, live]
    exact Bool.or_true _

/-! ## Sequences and guards -/

/-- A lane that runs in the innermost loop is live as long as its scope is the same. -/
theorem live_of_running
    (occupied : after.predicates.occupied = before.predicates.occupied)
    (scopes : after.predicates.scopes = before.predicates.scopes)
    (live : before.live.get lane = true)
    (running : after.predicates.running.get lane = true) : after.live.get lane = true := by
  have mask : after.predicates.mask = before.predicates.mask := by
    unfold Predicates.mask
    rw [occupied, scopes]
  rw [Machine.get_live, Bool.and_eq_true] at live
  rw [Machine.get_live, mask, live.1, running]
  rfl

theorem idle_of_running (running : after.predicates.running.get lane = false) :
    after.live.get lane = false := by
  rw [Machine.get_live, running]
  exact Bool.and_false _

theorem shows_seq {limit : Nat}
    (firstRuns : first.Runs batch.program place (first.exec batch run limit))
    (secondRuns : second.Runs batch.program place (second.exec batch run limit))
    (firstShown : first.Shows batch (first.exec batch run limit))
    (secondShown : second.Shows batch (second.exec batch run limit)) :
    (seq first second).Shows batch ((seq first second).exec batch run limit) := by
  intro lane entry lower before after ready live ran
  obtain ⟨middle, begun, continued⟩ := bind_eq_ok.mp ran
  have firstReady := ready_first ready
  have firstRan := firstRuns entry before middle firstReady begun
  have secondReady := ready_second ready firstRan
  obtain ⟨exit, state, executes, ends⟩ :=
    firstShown lane entry lower before middle firstReady live begun
  -- A lane that leaves the round in the first block rests in the second.
  by_cases normal : exit = .normal
  · subst normal
    have state_eq := ends.eq_element
    subst state_eq
    obtain ⟨exit, final, continues, later⟩ := secondShown lane entry lower middle after
      secondReady (live_of_running firstRan.occupied firstRan.scopes live ends.running)
      continued
    refine ⟨exit, final, .seq executes continues, ⟨⟨later.toHolds,
      ends.steady.trans later.steady, later.running, ?_⟩, later.operands⟩⟩
    rw [later.parked, ends.parked]
    rfl
  · have secondRan := secondRuns entry middle after secondReady continued
    have running := ends.running
    rw [beq_false_of_ne normal] at running
    have rests := secondRan.toKept.rests (idle_of_running running)
    exact ⟨exit, state, .seqExit executes normal,
      ⟨ends.toArrives.rested rests firstRan.sound.fits secondReady.floor (Nat.le_refl _),
        fun holds => absurd holds normal⟩⟩

theorem shows_guarded {limit : Nat}
    (bodyRuns : body.Runs batch.program place (body.exec batch run limit))
    (bodyShown : body.Shows batch (body.exec batch run limit))
    (gives : body.Gives batch.program.functions 0) :
    (guarded body).Shows batch ((guarded body).exec batch run limit) := by
  intro lane entry lower before after ready live ran
  have some : before.live.any = true := (Lanes.any_eq_true _).mpr ⟨lane, live⟩
  have bodyReady := ready_guarded ready gives
  unfold exec at ran
  rw [Conduct.unlessIdle_live some] at ran
  have top := (bodyRuns _ _ _ bodyReady ran).gave gives rfl
  obtain ⟨exit, state, executes, arrives, operands⟩ := bodyShown.part bodyRuns gives
    bodyReady (@Machine.holds_element σ batch lane entry lower
      (before.jumped (before.current.offset + 3))) live ran
  have around : Arrives batch lane before.top before exit state after :=
    ⟨arrives.toHolds, ⟨arrives.steady.floor, arrives.steady.cells⟩, arrives.running,
      arrives.parked⟩
  exact ⟨exit, state, .guarded executes, around.ends ready.floor ready.level top operands⟩

/-! ## Conditionals -/

section Conditionals

variable {bodyConduct otherwiseConduct : Conduct} {opened turned : Machine}
variable {bytes rightCount : Nat}

/-- A lane at the start of a scope. -/
theorem rests_opened (sound : before.Sound batch.program)
    (room : before.current.offset < before.current.function.code.length)
    (pushed : before.act batch .maskPush = .ok opened) (lane : Lane) :
    Rests lane (before.top - 1) before opened := by
  have acted := Machine.act_single sound rfl room rfl pushed
  have changed := Predicates.maskPush_eq acted.predicates
  refine ⟨Machine.act_unmoved_single sound rfl room rfl rfl pushed lane, ?_, ?_⟩
  · rw [changed]
    rfl
  · rw [changed]
    rfl

/-- A lane at an instruction that changes the innermost scope. -/
theorem rests_scoped {instruction : Instruction} {action : Predicates.Action}
    {change : Scope → List Scope → List Scope} (sound : before.Sound batch.program)
    (room : before.current.offset + instruction.width ≤
      before.current.function.code.length)
    (isInner : instruction.inner = true)
    (nowhere : (before.advanced instruction).addressed instruction = Machine.untouched)
    (acts : instruction.action? (before.cell .local (before.top - 1)).truthy = some action)
    (changes : action.onScopes before.predicates.occupied = some change)
    (acted : before.act batch instruction = .ok after) (lane : Lane) :
    Rests lane (before.top - instruction.taken) before after := by
  obtain ⟨_, _, _, changed⟩ :=
    (Machine.act_acted sound room isInner acted).onScopes acts changes
  refine ⟨Machine.act_unmoved sound room isInner nowhere acted lane, ?_, ?_⟩
  · rw [changed]
    rfl
  · rw [changed]
    rfl

/-- The condition of a lane. -/
def meets (machine : Machine) (lane : Lane) : Bool :=
  (machine.cell .local (machine.top - 1)).get lane != 0

theorem live_opened (acted : Machine.Acted batch.program .maskPush before opened) :
    opened.live.get lane = (before.live.get lane && meets before lane) := by
  have changed := Predicates.maskPush_eq acted.predicates
  rw [Machine.get_live, Machine.get_live, changed, Bool.and_right_comm]
  congr 1
  change (Lanes.both _ _).get lane = _
  rw [Lanes.get_both, Lanes.get_truthy]
  rfl

theorem live_turned (scopes : turned.predicates.scopes =
      ⟨(before.cell .local (before.top - 1)).truthy, before.predicates.mask.both
        (before.cell .local (before.top - 1)).truthy.complement⟩ ::
          before.predicates.scopes) :
    turned.live.get lane = (before.predicates.mask.get lane && !meets before lane &&
      turned.predicates.running.get lane) := by
  rw [Machine.get_live]
  congr 1
  unfold Predicates.mask
  rw [scopes]
  change (Lanes.both _ (Lanes.complement _)).get lane = _
  rw [Lanes.get_both, Lanes.get_complement, Lanes.get_truthy]
  rfl

/-- The element in a lane behind the condition of a conditional. -/
theorem holds_opened (sound : before.Sound batch.program)
    (present : before.current.floor + 1 ≤ before.top)
    (rests : Rests lane (before.top - 1) before machine) :
    Holds batch lane machine ((before.drop 1).element batch lane entry lower) := by
  refine rests.holds ?_ ⟨rfl, rfl⟩
  rw [sound.fits.frame_eq]
  omega

/-- A lane that meets the condition carries out the first part. -/
theorem side_taken (bodyRuns : body.Runs batch.program place bodyConduct)
    (bodyShown : body.Shows batch bodyConduct)
    (gives : body.Gives batch.program.functions count) (sound : before.Sound batch.program)
    (room : before.current.offset + (1 + body.size) ≤ before.current.function.code.length)
    (live : before.live.get lane = true) (taken : meets before lane = true)
    (ran : side batch bodyConduct before = .ok done) :
    ∃ exit state, Element.Executes batch.uniforms body
        ((before.drop 1).element batch lane entry lower) exit state ∧
      Arrives batch lane (before.top - 1) before exit state done ∧
      (exit = .normal → state.operands =
        ((before.drop 1).element batch lane entry lower).operands ++
          done.words lane .local (before.top - 1) count) := by
  obtain ⟨opened, pushed, ran⟩ := bind_eq_ok.mp ran
  have acted := Machine.act_single sound rfl (by omega) rfl pushed
  have top : opened.top = before.top - 1 := acted.top
  have ready := ready_side acted (by omega) gives
  have rests := rests_opened sound (by omega) pushed lane
  rw [← top] at ready
  obtain ⟨exit, state, executes, arrives, operands⟩ := bodyShown.part bodyRuns gives ready
    (holds_opened sound acted.present rests)
    (by rw [live_opened acted, live, taken]; rfl) ran
  rw [top] at arrives operands
  exact ⟨exit, state, executes, arrives.resting rests (Nat.le_refl _) (Nat.le_refl _), operands⟩

/-- A lane that does not meet the condition rests in the first part. -/
theorem side_passed (bodyRuns : body.Runs batch.program place bodyConduct)
    (gives : body.Gives batch.program.functions count) (sound : before.Sound batch.program)
    (room : before.current.offset + (1 + body.size) ≤ before.current.function.code.length)
    (passed : meets before lane = false)
    (ran : side batch bodyConduct before = .ok done) :
    Rests lane (before.top - 1) before done := by
  obtain ⟨opened, pushed, ran⟩ := bind_eq_ok.mp ran
  have acted := Machine.act_single sound rfl (by omega) rfl pushed
  have rests := rests_opened sound (by omega) pushed lane
  have idle : opened.live.get lane = false := by
    rw [live_opened acted, passed]
    exact Bool.and_false _
  exact rests.trans ((bodyRuns _ _ _ (ready_side acted (by omega) gives) ran).toKept.rests
    idle)

/-- A lane where a conditional turns to its second part. -/
theorem rests_turned {height : Nat}
    (left : Sided batch.program place entry bytes height before done)
    (room : before.current.offset + bytes < before.current.function.code.length)
    (negated : done.act batch .maskNegate = .ok turned) (lane : Lane) :
    Rests lane done.top done turned := by
  have inside : done.current.offset + Instruction.maskNegate.width ≤
      done.current.function.code.length := by
    rw [left.offset, left.function]
    exact room
  exact rests_scoped left.sound inside rfl rfl rfl rfl negated lane

/-- A lane that meets the condition arrives with what the first part has given. -/
theorem half_taken (bodyRuns : body.Runs batch.program place bodyConduct)
    (bodyShown : body.Shows batch bodyConduct)
    (gives : body.Gives batch.program.functions count) (sound : before.Sound batch.program)
    (room : before.current.offset + (1 + body.size + 1) ≤
      before.current.function.code.length)
    (level : before.current.floor + 1 ≤ before.top → entry ≤ before.top - 1)
    (live : before.live.get lane = true) (taken : meets before lane = true)
    (ran : half batch bodyConduct before = .ok turned) :
    turned.live.get lane = false ∧
    ∃ exit state, Element.Executes batch.uniforms body
        ((before.drop 1).element batch lane entry lower) exit state ∧
      Arrives batch lane (before.top - 1) before exit state turned ∧
      (exit = .normal → state.operands =
        ((before.drop 1).element batch lane entry lower).operands ++
          turned.words lane .local (before.top - 1) count) := by
  have scopes := scopes_half bodyRuns gives sound room level ran
  obtain ⟨done, ranSide, negated⟩ := bind_eq_ok.mp ran
  have left := side_sided bodyRuns gives sound (by omega) level ranSide
  have turning := rests_turned left (by omega) negated lane
  obtain ⟨exit, state, executes, arrives, operands⟩ :=
    @side_taken σ batch lane place body count entry lower before done bodyConduct bodyRuns
      bodyShown gives sound (by omega) live taken ranSide
  have top := left.top
  refine ⟨?_, exit, state, executes, arrives.rested turning left.sound.fits left.sound.floor
    (by omega), fun normal => ?_⟩
  · rw [live_turned scopes, taken, Bool.not_true, Bool.and_false]
    rfl
  · rw [operands normal]
    congr 1
    refine (Machine.words_congr fun position _ _ => turning.cells _ _ fun _ => ?_).symm
    omega

/-- A lane that does not meet the condition is live in the second part. -/
theorem half_passed (bodyRuns : body.Runs batch.program place bodyConduct)
    (gives : body.Gives batch.program.functions count) (sound : before.Sound batch.program)
    (room : before.current.offset + (1 + body.size + 1) ≤
      before.current.function.code.length)
    (level : before.current.floor + 1 ≤ before.top → entry ≤ before.top - 1)
    (live : before.live.get lane = true) (passed : meets before lane = false)
    (ran : half batch bodyConduct before = .ok turned) :
    turned.live.get lane = true ∧ Rests lane (before.top - 1) before turned := by
  have scopes := scopes_half bodyRuns gives sound room level ran
  obtain ⟨done, ranSide, negated⟩ := bind_eq_ok.mp ran
  have left := side_sided bodyRuns gives sound (by omega) level ranSide
  have top := left.top
  have rests := (side_passed bodyRuns gives sound (by omega) passed ranSide).trans
    ((rests_turned left (by omega) negated lane).mono (by omega))
  refine ⟨?_, rests⟩
  rw [Machine.get_live, Bool.and_eq_true] at live
  rw [live_turned scopes, rests.running, live.1, live.2, passed]
  rfl

/-- A lane at the end of both parts of a conditional, with what its part has given. -/
theorem sides_shown (bodyRuns : body.Runs batch.program place bodyConduct)
    (otherwiseRuns : otherwise.Runs batch.program place otherwiseConduct)
    (bodyShown : body.Shows batch bodyConduct)
    (otherwiseShown : otherwise.Shows batch otherwiseConduct)
    (gives : body.Gives batch.program.functions count)
    (givesOtherwise : otherwise.Gives batch.program.functions rightCount)
    (sound : before.Sound batch.program)
    (room : before.current.offset + (1 + body.size + 1 + otherwise.size) ≤
      before.current.function.code.length)
    (level : before.current.floor + 1 ≤ before.top → entry ≤ before.top - 1)
    (live : before.live.get lane = true)
    (ran : sides batch bodyConduct otherwiseConduct before = .ok done) :
    ∃ exit state, Element.Executes batch.uniforms
        (if meets before lane then body else otherwise)
        ((before.drop 1).element batch lane entry lower) exit state ∧
      Arrives batch lane (before.top - 1) before exit state done ∧
      (exit = .normal → state.operands =
        ((before.drop 1).element batch lane entry lower).operands ++
          done.words lane .local (before.top - 1 + if meets before lane then 0 else count)
            (if meets before lane then count else rightCount)) := by
  obtain ⟨turned, ranHalf, ran⟩ := bind_eq_ok.mp ran
  have half := half_sided bodyRuns gives sound (by omega) level ranHalf
  have ready := ready_otherwise half room givesOtherwise
  have top := half.top
  have floor := half.sound.floor
  cases taken : meets before lane with
  | true =>
      obtain ⟨idle, exit, state, executes, arrives, operands⟩ :=
        @half_taken σ batch lane place body count entry lower before bodyConduct turned
          bodyRuns bodyShown gives sound (by omega) level live taken ranHalf
      have rests := (otherwiseRuns _ _ _ ready ran).toKept.rests idle
      refine ⟨exit, state, executes, arrives.rested rests half.sound.fits (by omega)
        (by omega), fun normal => ?_⟩
      rw [operands normal]
      congr 1
      refine (Machine.words_congr fun position _ _ => rests.cells _ _ fun _ => ?_).symm
      omega
  | false =>
      obtain ⟨turnedLive, rests⟩ := half_passed bodyRuns gives sound (by omega) level live
        taken ranHalf
      rw [← top] at ready
      -- The results of the first part, which the lane has no use for, lie beneath.
      obtain ⟨exit, state, executes, arrives, operands⟩ := otherwiseShown.part otherwiseRuns
        givesOtherwise ready
        (@holds_opened σ batch lane entry lower turned before sound half.present rests)
        turnedLive ran
      refine ⟨exit, state, executes, ?_, fun normal => ?_⟩
      · exact arrives.resting rests (Nat.le_refl _) (by omega)
      · rw [operands normal, top]
        rfl

/-- The condition of a conditional, taken off the operands of an element. -/
theorem tested_opened {height : Nat}
    (inside : Sided batch.program place entry bytes height before done) :
    (before.element batch lane entry lower).test? =
      some (meets before lane, (before.drop 1).element batch lane entry lower) := by
  have present := inside.present
  have below := inside.below
  exact Machine.test?_element (by omega)

/-- The end of a conditional without results. -/
theorem ends_popped {exit : Exit}
    (inside : Sided batch.program place entry bytes 0 before done)
    (floor : before.current.floor ≤ entry)
    (room : before.current.offset + bytes < before.current.function.code.length)
    (arrives : Arrives batch lane (before.top - 1) before exit state done)
    (operands : exit = .normal → state.operands =
      ((before.drop 1).element batch lane entry lower).operands)
    (popped : done.act batch .maskPop = .ok after) :
    Ends batch lane entry lower before exit state after := by
  have roomPop : done.current.offset + Instruction.maskPop.width ≤
      done.current.function.code.length := by
    rw [inside.offset, inside.function]
    exact room
  have rests := rests_scoped inside.sound roomPop rfl rfl rfl rfl popped lane
  have top : after.top = done.top := (Machine.act_acted inside.sound roomPop rfl popped).top
  have doneTop := inside.top
  have doneFloor := inside.sound.floor
  refine (arrives.rested rests inside.sound.fits doneFloor ?_).ends floor inside.below
    (top.trans doneTop) fun normal => ?_
  · change before.top - 1 ≤ done.top
    omega
  · rw [operands normal]
    exact (List.append_nil _).symm

theorem shows_when {limit : Nat}
    (bodyRuns : body.Runs batch.program place (body.exec batch run limit))
    (bodyShown : body.Shows batch (body.exec batch run limit))
    (gives : body.Gives batch.program.functions 0) :
    (when body).Shows batch ((when body).exec batch run limit) := by
  intro lane entry lower before after ready live ran
  obtain ⟨done, ranSide, popped⟩ := bind_eq_ok.mp ran
  have room := ready.room
  unfold size at room
  have inside := side_sided bodyRuns gives ready.sound (by omega)
    ((branches_when _).below ready) ranSide
  have tested := @tested_opened σ batch lane place entry lower before done _ 0 inside
  cases taken : meets before lane with
  | true =>
      obtain ⟨exit, state, executes, arrives, operands⟩ :=
        @side_taken σ batch lane place body 0 entry lower before done _ bodyRuns bodyShown
          gives ready.sound (by omega) live taken ranSide
      rw [taken] at tested
      refine ⟨exit, state, .when tested executes, ends_popped inside ready.floor (by omega)
        arrives (fun normal => ?_) popped⟩
      rw [operands normal]
      exact List.append_nil _
  | false =>
      have rests := side_passed bodyRuns gives ready.sound (by omega) taken ranSide
      rw [taken] at tested
      exact ⟨.normal, _, .when tested .skip, ends_popped inside ready.floor (by omega)
        ⟨holds_opened ready.sound inside.present rests, rests.steady,
          rests.running.trans (Machine.running_of_live live), rests.parked⟩ (fun _ => rfl)
        popped⟩

theorem shows_choose {limit : Nat}
    (bodyRuns : body.Runs batch.program place (body.exec batch run limit))
    (otherwiseRuns : otherwise.Runs batch.program place (otherwise.exec batch run limit))
    (bodyShown : body.Shows batch (body.exec batch run limit))
    (otherwiseShown : otherwise.Shows batch (otherwise.exec batch run limit))
    (gives : body.Gives batch.program.functions 0)
    (givesOtherwise : otherwise.Gives batch.program.functions 0) :
    (choose body otherwise).Shows batch
      ((choose body otherwise).exec batch run limit) := by
  intro lane entry lower before after ready live ran
  obtain ⟨done, ranSides, popped⟩ := bind_eq_ok.mp ran
  have room := ready.room
  unfold size at room
  have level := (branches_choose _).below ready
  have inside := sides_sided bodyRuns otherwiseRuns gives givesOtherwise ready.sound
    (by omega) level ranSides
  obtain ⟨exit, state, executes, arrives, operands⟩ :=
    @sides_shown σ batch lane place body otherwise 0 entry lower before done _ _ 0 bodyRuns
      otherwiseRuns bodyShown otherwiseShown gives givesOtherwise ready.sound (by omega)
      level live ranSides
  refine ⟨exit, state, .choose (tested_opened inside) executes, ends_popped inside
    ready.floor (by omega) arrives (fun normal => ?_) popped⟩
  rw [operands normal, ite_self]
  exact List.append_nil _

/-- A blend leaves a lane with what its part of the conditional has given. -/
theorem words_chosen {count : UInt8} {mask : Mask} {outer : List Scope}
    (sound : done.Sound batch.program)
    (room : done.current.offset + (Instruction.maskBlend count).width ≤
      done.current.function.code.length)
    (scopes : done.predicates.scopes =
      ⟨(before.cell .local (before.top - 1)).truthy, mask⟩ :: outer)
    (start : done.top - 2 * count.toNat = before.top - 1)
    (blended : done.act batch (.maskBlend count) = .ok after) :
    after.words lane .local (before.top - 1) count.toNat =
      done.words lane .local
        (before.top - 1 + if meets before lane then 0 else count.toNat) count.toNat := by
  have moved : (done.advanced (.maskBlend count)).Sound batch.program := sound.jumped room
  obtain ⟨flow, carried, rfl⟩ := Machine.act_eq_ok.mp blended
  have words := @Machine.words_blended lane (done.advanced (.maskBlend count)) flow.machine
    count.toNat _ _ moved.fits scopes (Machine.ok_of_map_next carried)
  rw [Lanes.get_truthy] at words
  rw [← start]
  exact words

theorem shows_blend {limit : Nat} {count : UInt8}
    (bodyRuns : body.Runs batch.program place (body.exec batch run limit))
    (otherwiseRuns : otherwise.Runs batch.program place (otherwise.exec batch run limit))
    (bodyShown : body.Shows batch (body.exec batch run limit))
    (otherwiseShown : otherwise.Shows batch (otherwise.exec batch run limit))
    (gives : body.Gives batch.program.functions count.toNat)
    (givesOtherwise : otherwise.Gives batch.program.functions count.toNat) :
    (blend count body otherwise).Shows batch
      ((blend count body otherwise).exec batch run limit) := by
  intro lane entry lower before after ready live ran
  obtain ⟨done, ranSides, blended⟩ := bind_eq_ok.mp ran
  have room := ready.room
  unfold size at room
  have level := (branches_blend _ count).below ready
  have inside := sides_sided bodyRuns otherwiseRuns gives givesOtherwise ready.sound
    (by omega) level ranSides
  have scopes := scopes_sides bodyRuns otherwiseRuns gives givesOtherwise ready.sound
    (by omega) level ranSides
  obtain ⟨exit, state, executes, arrives, operands⟩ :=
    @sides_shown σ batch lane place body otherwise count.toNat entry lower before done _ _
      count.toNat bodyRuns otherwiseRuns bodyShown otherwiseShown gives givesOtherwise
      ready.sound (by omega) level live ranSides
  have roomBlend : done.current.offset + (Instruction.maskBlend count).width ≤
      done.current.function.code.length := by
    rw [inside.offset, inside.function]
    change _ + 2 ≤ _
    omega
  have rests := rests_scoped inside.sound roomBlend rfl rfl rfl rfl blended lane
  have afterTop : after.top = done.top - 2 * count.toNat + count.toNat :=
    (Machine.act_acted inside.sound roomBlend rfl blended).top
  have doneTop := inside.top
  have start : done.top - 2 * count.toNat = before.top - 1 := by
    omega
  have present := inside.present
  have below := inside.below
  change Rests lane (done.top - 2 * count.toNat) done after at rests
  rw [start] at rests
  refine ⟨exit, state, .blend (tested_opened inside) executes,
    (arrives.rested rests inside.sound.fits ?_ (Nat.le_refl _)).ends ready.floor below
      (show after.top = before.top - 1 + count.toNat by omega) fun normal => ?_⟩
  · rw [inside.floor]
    omega
  · rw [operands normal, ite_self, words_chosen inside.sound roomBlend scopes start blended]
    rfl

end Conditionals

end Block

end Lockstep
