import Lockstep.Proofs.Structured

/-!
# What structured code leaves alone

A block is entered with the operand stack at some height, the entry, and does
not reach below it.  A lane that is not live when the block is entered keeps
all globals and all registers below the entry, whatever the other lanes do:
`Machine.Frames` says so for any stretch of code.

`Machine.Kept` adds what a block does to the predicates: the scopes are those
from before, and so are the loops, except that lanes may have left the
innermost one.  In the parts of a conditional a scope is open in addition,
`Machine.Opened`, and in the rounds of a loop the innermost loop only ever
narrows, `Machine.Circles`.

`Block.exec_ran` collects this for all blocks: every block that comes to its
end keeps its frame, and ends at the offset and the height that can be told
beforehand.
-/

namespace Lockstep

variable {σ : Type}

/-! ## Loops -/

/--
What a block may do to the innermost loop.  Only lanes that are live leave it,
and only in its body do they wait for the next round.
-/
structure Loop.Keeps (place : Place) (live : Mask) (before after : Loop) : Prop where
  inside : place ≠ .outside
  running : after.running.Within before.running
  parked : ∀ lane, after.parked.get lane = true →
    before.parked.get lane = true ∨ place = .body ∧ live.get lane = true
  idle : ∀ lane, live.get lane = false →
    after.running.get lane = before.running.get lane ∧
      after.parked.get lane = before.parked.get lane

/-- What a block may do to the open loops. -/
inductive LoopsKeep (place : Place) (live : Mask) : List Loop → List Loop → Prop
  | same (loops : List Loop) : LoopsKeep place live loops loops
  | innermost {loop changed : Loop} {outer : List Loop}
      (keeps : loop.Keeps place live changed) :
      LoopsKeep place live (loop :: outer) (changed :: outer)

namespace LoopsKeep

variable {place : Place} {live wider : Mask} {first second third : List Loop}

theorem mono (keeps : LoopsKeep place live first second) (within : live.Within wider) :
    LoopsKeep place wider first second := by
  cases keeps with
  | same =>
      exact same _
  | innermost keeps =>
      refine innermost ⟨keeps.inside, keeps.running, ?_, ?_⟩
      · intro lane waits
        exact (keeps.parked lane waits).imp_right fun given =>
          ⟨given.1, within lane given.2⟩
      · intro lane idle
        exact keeps.idle lane (within.idle idle)

theorem trans (before : LoopsKeep place live first second)
    (after : LoopsKeep place live second third) : LoopsKeep place live first third := by
  cases before with
  | same =>
      exact after
  | innermost keeps =>
      cases after with
      | same =>
          exact innermost keeps
      | innermost later =>
          refine innermost ⟨keeps.inside, later.running.trans keeps.running, ?_, ?_⟩
          · intro lane waits
            rcases later.parked lane waits with earlier | given
            · exact keeps.parked lane earlier
            · exact Or.inr given
          · intro lane idle
            have now := later.idle lane idle
            have past := keeps.idle lane idle
            exact ⟨now.1.trans past.1, now.2.trans past.2⟩

theorem running (keeps : LoopsKeep place live first second) :
    (Predicates.runningWithin second).Within (Predicates.runningWithin first) := by
  cases keeps with
  | same =>
      exact .refl _
  | innermost keeps =>
      exact keeps.running

/-- Outside of loops nothing changes. -/
theorem eq_of_outside (keeps : LoopsKeep .outside live first second) :
    second = first := by
  cases keeps with
  | same =>
      rfl
  | innermost keeps =>
      exact absurd rfl keeps.inside

end LoopsKeep

/-! ## Frames -/

/-- Whether an instruction stays in its activation and does not ask the host. -/
def Instruction.inner : Instruction → Bool
  | .maskBlend _ => true
  | instruction => instruction.stays

namespace Machine

/--
A stretch of code stayed in its activation.  The lanes that it was not meant
to touch keep their globals and what they have below the entry.
-/
structure Frames (program : Program) (touched : Mask) (entry : Nat)
    (before after : Machine) : Prop where
  sound : after.Sound program
  current : after.current = { before.current with offset := after.current.offset }
  callers : after.callers = before.callers
  occupied : after.predicates.occupied = before.predicates.occupied
  cells : ∀ bank position lane, touched.get lane = false →
    (bank = .local → position < entry) →
      (after.cell bank position).get lane = (before.cell bank position).get lane

namespace Frames

variable {program : Program} {touched wider : Mask} {entry lower : Nat}
variable {before middle after : Machine}

theorem function (frames : Frames program touched entry before after) :
    after.current.function = before.current.function := by
  rw [frames.current]

theorem base (frames : Frames program touched entry before after) :
    after.current.base = before.current.base := by
  rw [frames.current]

theorem floor (frames : Frames program touched entry before after) :
    after.current.floor = before.current.floor := by
  rw [frames.current]

theorem mono (frames : Frames program touched entry before after)
    (within : touched.Within wider) (below : lower ≤ entry) :
    Frames program wider lower before after where
  sound := frames.sound
  current := frames.current
  callers := frames.callers
  occupied := frames.occupied
  cells := by
    intro bank position lane idle inside
    exact frames.cells bank position lane (within.idle idle) fun isLocal =>
      Nat.lt_of_lt_of_le (inside isLocal) below

theorem trans (first : Frames program touched entry before middle)
    (second : Frames program touched entry middle after) :
    Frames program touched entry before after where
  sound := second.sound
  current := by
    have later := second.current
    rw [first.current] at later
    exact later
  callers := second.callers.trans first.callers
  occupied := second.occupied.trans first.occupied
  cells := by
    intro bank position lane idle inside
    rw [second.cells bank position lane idle inside,
      first.cells bank position lane idle inside]

end Frames

variable {program : Program} {batch : Batch σ} {machine before inner after : Machine}

theorem frames_jumped (sound : machine.Sound program) {target : Nat}
    (inside : target ≤ machine.current.function.code.length) (touched : Mask)
    (entry : Nat) : Frames program touched entry machine (machine.jumped target) where
  sound := sound.jumped inside
  current := rfl
  callers := rfl
  occupied := rfl
  cells := by
    intro bank position lane _ _
    cases bank <;> rfl

/-! ## Instructions -/

/-- A machine after an instruction of the running function. -/
structure Acted (program : Program) (instruction : Instruction)
    (before after : Machine) : Prop
    extends Frames program before.live (before.top - instruction.taken) before after where
  offset : after.current.offset = before.current.offset + instruction.width
  present : before.current.floor + instruction.taken ≤ before.top
  top : after.top = before.top - instruction.taken + instruction.given
  predicates : before.predicated instruction = .ok after.predicates

theorem carry_yields (fits : machine.Fits) (sound : machine.predicates.Sound)
    (instruction : Instruction) :
    Yields (machine.Refuses batch.silent instruction)
      (Effect batch.program machine instruction) (machine.carry batch instruction) :=
  execute_ensures fits sound instruction ()

theorem Operated.acted {instruction : Instruction}
    (sound : machine.Sound program)
    (room : machine.current.offset + instruction.width ≤
      machine.current.function.code.length)
    (operated : (machine.advanced instruction).Operated instruction after) :
    Acted program instruction machine after := by
  have moved : (machine.advanced instruction).Sound program := sound.jumped room
  have current : after.current = (machine.advanced instruction).current :=
    operated.stack.current
  refine ⟨⟨moved.operated operated, ?_, operated.stack.callers, ?_, ?_⟩, ?_,
    operated.stack.present, operated.stack.top, operated.predicates⟩
  · rw [current]
    rfl
  · exact (operated.predicates_keep sound.predicates).2
  · intro bank position lane idle inside
    have kept := operated.stack.dead idle inside
    cases bank <;> exact kept
  · rw [current]
    rfl

/-- An instruction of the running function operates on its activation. -/
theorem act_operated (sound : machine.Sound batch.program) {instruction : Instruction}
    (room : machine.current.offset + instruction.width ≤
      machine.current.function.code.length)
    (isInner : instruction.inner = true)
    (acted : machine.act batch instruction = .ok after) :
    (machine.advanced instruction).Operated instruction after := by
  have moved : (machine.advanced instruction).Sound batch.program := sound.jumped room
  have yields : Yields _ (Effect batch.program (machine.advanced instruction) instruction)
      ((machine.advanced instruction).carry batch instruction) :=
    carry_yields moved.fits moved.predicates instruction
  obtain ⟨flow, carried, rfl⟩ := act_eq_ok.mp acted
  cases yields.of_ok carried with
  | operated operated =>
      exact operated
  | jumped leads inside =>
      cases instruction with
      | branch | branchIfAllFalse =>
          cases isInner
      | _ =>
          cases leads
  | called calls =>
      cases isInner
  | returned hands =>
      cases isInner

/-- An instruction of the running function that comes to its end. -/
theorem act_acted (sound : machine.Sound batch.program) {instruction : Instruction}
    (room : machine.current.offset + instruction.width ≤
      machine.current.function.code.length)
    (isInner : instruction.inner = true)
    (acted : machine.act batch instruction = .ok after) :
    Acted batch.program instruction machine after :=
  (act_operated sound room isInner acted).acted sound room

/-- An instruction of one byte. -/
theorem act_single (sound : machine.Sound batch.program) {instruction : Instruction}
    (single : instruction.width = 1)
    (room : machine.current.offset < machine.current.function.code.length)
    (isInner : instruction.inner = true)
    (acted : machine.act batch instruction = .ok after) :
    Acted batch.program instruction machine after :=
  act_acted sound (single ▸ room) isInner acted

/-! ## Blocks -/

/-- What a block may do: it keeps its frame and its scopes, and lanes may leave a loop. -/
structure Kept (program : Program) (place : Place) (entry : Nat)
    (before after : Machine) : Prop
    extends Frames program before.live entry before after where
  scopes : after.predicates.scopes = before.predicates.scopes
  loops : LoopsKeep place before.live before.predicates.loops after.predicates.loops

namespace Kept

variable {place : Place} {entry lower : Nat}

theorem live (kept : Kept program place entry before after) :
    after.live.Within before.live := by
  change (Lanes.both (Predicates.maskWithin _ _) _).Within _
  rw [kept.occupied, kept.scopes]
  exact (Lanes.Within.refl _).both kept.loops.running

theorem mono (kept : Kept program place entry before after) (below : lower ≤ entry) :
    Kept program place lower before after :=
  ⟨kept.toFrames.mono (.refl _) below, kept.scopes, kept.loops⟩

theorem trans (first : Kept program place entry before inner)
    (second : Kept program place entry inner after) :
    Kept program place entry before after where
  toFrames := first.toFrames.trans (second.toFrames.mono first.live (Nat.le_refl _))
  scopes := second.scopes.trans first.scopes
  loops := first.loops.trans (second.loops.mono first.live)

end Kept

/-- Outside of loops a block leaves the predicates as they were. -/
theorem Kept.predicates_eq {entry : Nat} (kept : Kept program .outside entry before after) :
    after.predicates = before.predicates := by
  change Predicates.mk after.predicates.occupied after.predicates.scopes
    after.predicates.loops = _
  rw [kept.occupied, kept.scopes, kept.loops.eq_of_outside]

theorem kept_jumped (sound : machine.Sound program) {target : Nat}
    (inside : target ≤ machine.current.function.code.length) (place : Place)
    (entry : Nat) : Kept program place entry machine (machine.jumped target) :=
  ⟨frames_jumped sound inside _ _, rfl, .same _⟩

/-- An instruction that leaves the predicates alone. -/
theorem Acted.kept {instruction : Instruction}
    (acted : Acted program instruction before after)
    (plain : ∀ condition, instruction.action? condition = none) (place : Place)
    {entry : Nat} (level : entry ≤ before.top - instruction.taken) :
    Kept program place entry before after := by
  have same := acted.predicates
  rw [predicated, plain] at same
  have equal := Except.ok.inj same
  refine ⟨acted.toFrames.mono (.refl _) level, ?_, ?_⟩
  · rw [equal]
  · rw [equal]
    exact .same _

/-- What an instruction makes of the innermost loop. -/
theorem Acted.onLoops {instruction : Instruction} {action : Predicates.Action}
    {change : Loop → List Loop → List Loop}
    (acted : Acted program instruction before after)
    (acts : instruction.action? (before.cell .local (before.top - 1)).truthy = some action)
    (changes : action.onLoops before.live = some change) :
    ∃ loop outer, before.predicates.loops = loop :: outer ∧
      after.predicates = { before.predicates with loops := change loop outer } := by
  have result := acted.predicates
  rw [predicated, acts] at result
  exact Predicates.perform_onLoops changes result

/-- What an instruction makes of the innermost scope. -/
theorem Acted.onScopes {instruction : Instruction} {action : Predicates.Action}
    {change : Scope → List Scope → List Scope}
    (acted : Acted program instruction before after)
    (acts : instruction.action? (before.cell .local (before.top - 1)).truthy = some action)
    (changes : action.onScopes before.predicates.occupied = some change) :
    ∃ scope outer, before.predicates.scopes = scope :: outer ∧
      after.predicates = { before.predicates with scopes := change scope outer } := by
  have result := acted.predicates
  rw [predicated, acts] at result
  exact Predicates.perform_onScopes changes result

theorem Acted.left (acted : Acted program .loopBreak before after) {place : Place}
    (inLoop : place ≠ .outside) {entry : Nat} (level : entry ≤ before.top) :
    Kept program place entry before after := by
  obtain ⟨loop, outer, nested, changed⟩ := acted.onLoops rfl rfl
  refine ⟨acted.toFrames.mono (.refl _) level, by rw [changed], ?_⟩
  rw [nested, changed]
  refine .innermost ⟨inLoop, .both_left _ _, fun _ => Or.inl, ?_⟩
  intro lane idle
  simp [idle]

theorem Acted.parked (acted : Acted program .loopContinue before after) {entry : Nat}
    (level : entry ≤ before.top) : Kept program .body entry before after := by
  obtain ⟨loop, outer, nested, changed⟩ := acted.onLoops rfl rfl
  refine ⟨acted.toFrames.mono (.refl _) level, by rw [changed], ?_⟩
  rw [nested, changed]
  refine .innermost ⟨by decide, .both_left _ _, ?_, ?_⟩
  · intro lane waits
    rw [Lanes.get_either, Bool.or_eq_true] at waits
    exact waits.imp_right fun live => ⟨rfl, live⟩
  · intro lane idle
    simp [idle]

/-! ## Conditionals -/

/-- A machine in a scope that was opened since. -/
structure Opened (program : Program) (place : Place) (entry : Nat)
    (before inner : Machine) : Prop
    extends Frames program before.live entry before inner where
  scopes : ∃ scope, inner.predicates.scopes = scope :: before.predicates.scopes ∧
    scope.mask.Within before.predicates.mask
  loops : LoopsKeep place before.live before.predicates.loops inner.predicates.loops

namespace Opened

variable {place : Place} {entry lower : Nat}

theorem live (opened : Opened program place entry before inner) :
    inner.live.Within before.live := by
  obtain ⟨scope, nested, within⟩ := opened.scopes
  change (Lanes.both (Predicates.maskWithin _ _) _).Within _
  rw [nested]
  exact within.both opened.loops.running

theorem kept (opened : Opened program place entry before inner)
    (kept : Kept program place lower inner after) (below : entry ≤ lower) :
    Opened program place entry before after where
  toFrames := opened.toFrames.trans (kept.toFrames.mono opened.live below)
  scopes := by
    rw [kept.scopes]
    exact opened.scopes
  loops := opened.loops.trans (kept.loops.mono opened.live)

theorem negated (opened : Opened program place entry before inner)
    (acted : Acted program .maskNegate inner after) (below : entry ≤ inner.top) :
    Opened program place entry before after := by
  obtain ⟨scope, outer, nested, changed⟩ := acted.onScopes rfl rfl
  obtain ⟨innermost, same, _⟩ := opened.scopes
  rw [nested] at same
  cases same
  refine ⟨opened.toFrames.trans (acted.toFrames.mono opened.live below), ?_, ?_⟩
  · rw [changed, opened.occupied]
    exact ⟨_, rfl, .both_left _ _⟩
  · rw [changed]
    exact opened.loops

/-- Closing the scope ends the conditional. -/
theorem closed (opened : Opened program place entry before inner)
    {instruction : Instruction} {action : Predicates.Action}
    (acted : Acted program instruction inner after)
    (acts : instruction.action? (inner.cell .local (inner.top - 1)).truthy = some action)
    (closes : action.onScopes inner.predicates.occupied = some fun _ outer => outer)
    (below : entry ≤ inner.top - instruction.taken) :
    Kept program place entry before after := by
  obtain ⟨scope, outer, nested, changed⟩ := acted.onScopes acts closes
  obtain ⟨innermost, same, _⟩ := opened.scopes
  rw [nested] at same
  cases same
  refine ⟨opened.toFrames.trans (acted.toFrames.mono opened.live below), ?_, ?_⟩
  · rw [changed]
  · rw [changed]
    exact opened.loops

end Opened

theorem Acted.opened (acted : Acted program .maskPush before after) (place : Place)
    {entry : Nat} (below : entry ≤ before.top - 1) :
    Opened program place entry before after := by
  have result := acted.predicates
  have changed := Predicates.maskPush_eq result
  refine ⟨acted.toFrames.mono (.refl _) below, ?_, ?_⟩
  · rw [changed]
    exact ⟨_, rfl, .both_left _ _⟩
  · rw [changed]
    exact .same _

/-! ## Rounds -/

/-- No lane waits for the next round of the innermost loop. -/
def Calm (machine : Machine) : Prop :=
  ∃ loop outer, machine.predicates.loops = loop :: outer ∧
    ∀ lane, loop.parked.get lane = false

/-- A machine in the same loop, which may have narrowed. -/
structure Circles (program : Program) (entry : Nat) (before inner : Machine) : Prop
    extends Frames program before.live entry before inner where
  scopes : inner.predicates.scopes = before.predicates.scopes
  loops : ∃ loop, inner.predicates.loops = loop :: before.predicates.loops.tail ∧
    loop.running.Within before.predicates.running ∧
    loop.parked.Within before.predicates.running

namespace Circles

variable {place : Place} {entry lower : Nat}

theorem running (circles : Circles program entry before inner) :
    inner.predicates.running.Within before.predicates.running := by
  obtain ⟨loop, nested, narrower, _⟩ := circles.loops
  unfold Predicates.running at narrower ⊢
  rw [nested]
  exact narrower

theorem live (circles : Circles program entry before inner) :
    inner.live.Within before.live := by
  change (Lanes.both (Predicates.maskWithin _ _) _).Within _
  rw [circles.occupied, circles.scopes]
  exact (Lanes.Within.refl _).both circles.running

theorem trans (first : Circles program entry before inner)
    (second : Circles program entry inner after) :
    Circles program entry before after where
  toFrames := first.toFrames.trans (second.toFrames.mono first.live (Nat.le_refl _))
  scopes := second.scopes.trans first.scopes
  loops := by
    obtain ⟨_, nested, _, _⟩ := first.loops
    obtain ⟨loop, later, running, parked⟩ := second.loops
    rw [nested] at later
    exact ⟨loop, later, running.trans first.running, parked.trans first.running⟩

theorem mono (circles : Circles program entry before inner) (below : lower ≤ entry) :
    Circles program lower before inner :=
  ⟨circles.toFrames.mono (.refl _) below, circles.scopes, circles.loops⟩

/-- Lanes that wait go on with the next round. -/
theorem resumed (circles : Circles program entry before inner)
    (acted : Acted program .loopNext inner after) (below : entry ≤ inner.top) :
    Circles program entry before after := by
  obtain ⟨loop, outer, nested, changed⟩ := acted.onLoops rfl rfl
  obtain ⟨innermost, same, running, parked⟩ := circles.loops
  rw [nested] at same
  cases same
  refine ⟨circles.toFrames.trans (acted.toFrames.mono circles.live below), ?_, ?_⟩
  · rw [changed]
    exact circles.scopes
  · rw [changed]
    refine ⟨_, rfl, running.either parked, ?_⟩
    intro lane waits
    rw [Lanes.get_none] at waits
    cases waits

end Circles

/-- No lane waits once all that waited go on. -/
theorem Acted.calmed (acted : Acted program .loopNext before after) : after.Calm := by
  obtain ⟨_, _, _, changed⟩ := acted.onLoops rfl rfl
  rw [Calm, changed]
  exact ⟨_, _, rfl, Lanes.get_none⟩

/-- A block in a round that starts with no lane waiting. -/
theorem Kept.circles {place : Place} {entry : Nat}
    (kept : Kept program place entry before after) (calm : before.Calm) :
    Circles program entry before after := by
  obtain ⟨loop, outer, nested, none⟩ := calm
  refine ⟨kept.toFrames, kept.scopes, ?_⟩
  have loops := kept.loops
  unfold Predicates.running
  rw [nested] at loops ⊢
  generalize after.predicates.loops = later at loops
  cases loops with
  | same =>
      refine ⟨loop, rfl, .refl _, ?_⟩
      intro lane waits
      rw [none lane] at waits
      cases waits
  | innermost keeps =>
      refine ⟨_, rfl, keeps.running, ?_⟩
      intro lane waits
      rcases keeps.parked lane waits with earlier | ⟨_, live⟩
      · rw [none lane] at earlier
        cases earlier
      · change (Lanes.both _ (Predicates.runningWithin _)).get lane = true at live
        rw [nested, Lanes.get_both, Bool.and_eq_true] at live
        exact live.2

/-- Outside of the body of a loop no lane starts to wait. -/
theorem Kept.calm {entry : Nat} (kept : Kept program .edge entry before after)
    (calm : before.Calm) : after.Calm := by
  obtain ⟨loop, outer, nested, none⟩ := calm
  have loops := kept.loops
  rw [nested] at loops
  generalize reached : after.predicates.loops = later at loops
  cases loops with
  | same =>
      exact ⟨loop, outer, reached, none⟩
  | @innermost _ changed _ keeps =>
      refine ⟨changed, outer, reached, fun lane => ?_⟩
      cases waits : changed.parked.get lane with
      | false =>
          rfl
      | true =>
          rcases keeps.parked lane waits with earlier | ⟨inBody, _⟩
          · rw [none lane] at earlier
            cases earlier
          · cases inBody

theorem Acted.narrowed (acted : Acted program .loopMask before after)
    (calm : before.Calm) {entry : Nat} (below : entry ≤ before.top - 1) :
    Circles program entry before after ∧ after.Calm := by
  obtain ⟨loop, outer, nested, changed⟩ := acted.onLoops rfl rfl
  obtain ⟨innermost, around, same, none⟩ := calm
  rw [nested] at same
  cases same
  refine ⟨⟨acted.toFrames.mono (.refl _) below, by rw [changed], ?_⟩, ?_⟩
  · unfold Predicates.running
    rw [nested, changed]
    refine ⟨_, rfl, .both_left _ _, ?_⟩
    intro lane waits
    rw [none lane] at waits
    cases waits
  · rw [Calm, changed]
    exact ⟨_, _, rfl, none⟩

theorem Acted.begun (acted : Acted program .loopBegin before after) :
    after.live = before.live ∧ after.Calm ∧
      after.predicates.scopes = before.predicates.scopes ∧
      after.predicates.loops.tail = before.predicates.loops := by
  have result := acted.predicates
  have changed := Predicates.loopBegin_eq result
  unfold Machine.live Calm
  rw [changed]
  exact ⟨rfl, ⟨_, _, rfl, Lanes.get_none⟩, rfl, rfl⟩

/-- Behind a loop, the open loops are those from before. -/
theorem Circles.loops_eq {entry : Nat} (circles : Circles program entry inner after)
    {final : Machine} (begun : Acted program .loopBegin before inner)
    (ended : Acted program .loopEnd after final) :
    final.predicates.loops = before.predicates.loops := by
  obtain ⟨_, _, _, tail⟩ := begun.begun
  obtain ⟨_, outer, nested, changed⟩ := ended.onLoops rfl rfl
  obtain ⟨_, around, _⟩ := circles.loops
  rw [nested, tail] at around
  rw [changed]
  exact (List.cons.inj around).2

/-- A loop leaves the predicates as they were. -/
theorem Circles.ended {entry : Nat} (circles : Circles program entry inner after)
    {final : Machine} (begun : Acted program .loopBegin before inner)
    (ended : Acted program .loopEnd after final) (place : Place)
    (below : entry ≤ before.top) (level : entry ≤ after.top) :
    Kept program place entry before final := by
  obtain ⟨same, _, scopes, _⟩ := begun.begun
  obtain ⟨_, _, _, changed⟩ := ended.onLoops rfl rfl
  have start := begun.toFrames.mono (.refl _) below
  have rounds := circles.toFrames
  rw [same] at rounds
  have last := ended.toFrames.mono (same ▸ circles.live) level
  refine ⟨(start.trans rounds).trans last, ?_, ?_⟩
  · rw [changed]
    exact circles.scopes.trans scopes
  · rw [circles.loops_eq begun ended]
    exact .same _

end Machine

end Lockstep
