import Lockstep.Proofs.CallDiscipline
import Lockstep.Proofs.Encoding
import Lockstep.Proofs.Framing

/-!
# Stack effects

How high the stacks of a machine stand does not depend on what they hold.  An
instruction that stays in its activation raises the operands, the scopes and
the loops by amounts that can be read off its bytes: `Machine.Advances.rises`
says so of every step that is neither a return nor a call that a lane takes.

Calls and returns move whole frames, and again no register has a say in it.  An
`Outline` is a machine without its values: where it is, how high its stacks
stand and which activations wait.  `Outline.follow` takes an outline to a next
position of the code, and `Machine.Visits.outline` says that it keeps up with
every run.  The positions that a run has visited therefore determine the
heights of its stacks, whatever the registers, the masks and the host were.
-/

namespace Lockstep

variable {σ τ : Type}

/-! ## What an instruction does to the heights -/

/-- By how much the stacks of a machine rise; a negative rise is a fall. -/
structure Rise where
  operands : Int
  scopes : Int
  loops : Int
deriving DecidableEq

namespace Instruction

/-- By how much an instruction raises the number of open scopes. -/
def scopeRise : Instruction → Int
  | .maskPush => 1
  | .maskPop => -1
  | .maskBlend _ => -1
  | _ => 0

/-- By how much an instruction raises the number of open loops. -/
def loopRise : Instruction → Int
  | .loopBegin => 1
  | .loopEnd => -1
  | _ => 0

/-- By how much an instruction raises the stacks if it stays in its activation. -/
def rise (instruction : Instruction) : Rise where
  operands := (instruction.given : Int) - instruction.taken
  scopes := instruction.scopeRise
  loops := instruction.loopRise

end Instruction

/-- The rise that some bytes stand for, if they are an instruction. -/
def Rise.ofBytes? (bytes : List UInt8) : Option Rise :=
  (Instruction.decode 0 bytes).toOption.map Instruction.rise

namespace Machine

/-- By how much the stacks of a later machine are higher. -/
def riseTo (before after : Machine) : Rise where
  operands := (after.top : Int) - before.top
  scopes := (after.predicates.scopes.length : Int) - before.predicates.scopes.length
  loops := (after.predicates.loops.length : Int) - before.predicates.loops.length

/-- The bytes of the instruction at the current offset. -/
def upcomingBytes (machine : Machine) : List UInt8 :=
  match machine.upcoming with
  | .ok instruction =>
      (machine.current.function.code.drop machine.current.offset).take instruction.width
  | .error _ => []

/-- Whether the next instruction is a return or a call that a lane takes. -/
def leaves (machine : Machine) : Bool :=
  match machine.upcoming with
  | .ok (.ret _) => true
  | .ok (.call _) => machine.live.any
  | _ => false

/-- A later machine in the same activation, with the same activations waiting. -/
structure Stays (before after : Machine) : Prop where
  function : after.current.function = before.current.function
  base : after.current.base = before.current.base
  floor : after.current.floor = before.current.floor
  frameSize : after.current.frameSize = before.current.frameSize
  argumentCount : after.current.argumentCount = before.current.argumentCount
  callers : after.callers = before.callers

variable {program : Program} {machine after : Machine} {instruction : Instruction}

/-- The bytes of the next instruction are enough to tell its rise. -/
theorem ofBytes?_upcomingBytes (decoded : machine.upcoming = .ok instruction) :
    Rise.ofBytes? machine.upcomingBytes = some instruction.rise := by
  obtain ⟨⟨rest, written⟩, admitted⟩ := Instruction.decode_eq_ok decoded
  have bytes : machine.upcomingBytes = instruction.encode := by
    rw [upcomingBytes, decoded]
    change List.take instruction.encode.length _ = _
    rw [← written, List.take_left]
  have again : Instruction.decode 0 instruction.encode = .ok instruction :=
    Instruction.decode_eq_ok_iff.mpr ⟨List.prefix_rfl, admitted⟩
  rw [bytes, Rise.ofBytes?, again]
  rfl

/-! ## Steps that stay in their activation -/

theorem Frames.stays {touched : Mask} {entry : Nat}
    (frames : Frames program touched entry machine after) : machine.Stays after where
  function := by rw [frames.current]
  base := by rw [frames.current]
  floor := by rw [frames.current]
  frameSize := by rw [frames.current]
  argumentCount := by rw [frames.current]
  callers := frames.callers

/-- How many scopes and loops an instruction opens or closes is told by its kind. -/
theorem Acted.depths (acted : Acted program instruction machine after) :
    (after.predicates.scopes.length : Int) - machine.predicates.scopes.length =
        instruction.scopeRise ∧
      (after.predicates.loops.length : Int) - machine.predicates.loops.length =
        instruction.loopRise := by
  cases instruction with
  | maskPush =>
      rw [Predicates.maskPush_eq acted.predicates]
      simp only [List.length_cons, Instruction.scopeRise, Instruction.loopRise]
      omega
  | maskPop | maskNegate | maskBlend =>
      obtain ⟨scope, outer, nested, changed⟩ := acted.onScopes rfl rfl
      simp only [changed, nested, List.length_cons, Instruction.scopeRise,
        Instruction.loopRise]
      omega
  | loopBegin =>
      rw [Predicates.loopBegin_eq acted.predicates]
      simp only [List.length_cons, Instruction.scopeRise, Instruction.loopRise]
      omega
  | loopNext | loopMask | loopEnd | loopBreak | loopContinue =>
      obtain ⟨loop, outer, nested, changed⟩ := acted.onLoops rfl rfl
      simp only [changed, nested, List.length_cons, Instruction.scopeRise,
        Instruction.loopRise]
      omega
  | _ =>
      rw [← Except.ok.inj acted.predicates]
      exact ⟨Int.sub_self _, Int.sub_self _⟩

theorem Acted.riseTo_eq (acted : Acted program instruction machine after) :
    machine.riseTo after = instruction.rise := by
  have present := acted.present
  have top := acted.top
  have operands : (after.top : Int) - machine.top =
      instruction.given - instruction.taken := by
    omega
  obtain ⟨scopes, loops⟩ := acted.depths
  rw [riseTo, operands, scopes, loops]
  rfl

/-- An instruction that stays in its activation raises the stacks as it always does. -/
theorem Advances.rises (advances : machine.Advances program instruction (.next after))
    (sound : machine.Sound program) (staying : machine.leaves = false) :
    machine.Stays after ∧ machine.riseTo after = instruction.rise := by
  obtain ⟨decoded, effect⟩ := advances
  rw [leaves, decoded] at staying
  cases effect with
  | operated operated =>
      have acted := operated.acted sound (sound.advanced decoded).running.offset
      exact ⟨acted.toFrames.stays, acted.riseTo_eq⟩
  | jumped leads inside =>
      refine ⟨⟨rfl, rfl, rfl, rfl, rfl, rfl⟩, ?_⟩
      -- Only branches lead elsewhere, and they raise nothing.
      have level : instruction.rise = ⟨0, 0, 0⟩ := by
        cases instruction with
        | branch | branchIfAllFalse =>
            rfl
        | _ =>
            cases leads
      rw [level]
      exact (Rise.mk.injEq ..).mpr ⟨Int.sub_self _, Int.sub_self _, Int.sub_self _⟩
  | called calls =>
      have live : machine.live.any = true := calls.live
      rw [live] at staying
      cases staying
  | returned hands =>
      cases staying

end Machine

/-! ## Outlines -/

/-- A place in the code of a function.  Functions that agree in everything are the same. -/
structure Position where
  function : Function
  offset : Nat
deriving DecidableEq

/-- A machine without its values: its activations and the heights of its stacks. -/
structure Outline where
  top : Nat
  scopes : Nat
  loops : Nat
  current : Activation
  callers : List Activation
deriving DecidableEq

namespace Machine

/-- Where a machine is. -/
def position (machine : Machine) : Position :=
  ⟨machine.current.function, machine.current.offset⟩

/-- What is left of a machine without its values. -/
def outline (machine : Machine) : Outline where
  top := machine.top
  scopes := machine.predicates.scopes.length
  loops := machine.predicates.loops.length
  current := machine.current
  callers := machine.callers

end Machine

namespace Outline

/-- The instruction at the current offset. -/
def upcoming (outline : Outline) : Except Malformed Instruction :=
  Instruction.decode outline.current.offset
    (outline.current.function.code.drop outline.current.offset)

/-- The outline after a rise, at another offset of the same activation. -/
def raised (outline : Outline) (rise : Rise) (offset : Nat) : Outline where
  top := (outline.top + rise.operands).toNat
  scopes := (outline.scopes + rise.scopes).toNat
  loops := (outline.loops + rise.loops).toNat
  current := { outline.current with offset := offset }
  callers := outline.callers

/-- The outline in the frame of a function that an instruction of some width has called. -/
def called (outline : Outline) (width : Nat) (callee : Function) : Outline :=
  let base := outline.top - callee.parameterCount
  { outline with
    top := base + callee.frameSize
    current := {
      function := callee
      offset := 0
      base := base
      floor := base + callee.frameSize
      frameSize := callee.frameSize
      argumentCount := callee.parameterCount }
    callers :=
      { outline.current with offset := outline.current.offset + width } ::
        outline.callers }

/-- The outline after a return to the most recent caller. -/
def returned (outline : Outline) : Outline :=
  match outline.callers with
  | [] => outline
  | caller :: earlier =>
      { outline with
        top := outline.current.base + outline.current.argumentCount
        current := caller
        callers := earlier }

/-- The outline with which the outermost function starts. -/
def entry (function : Function) : Outline where
  top := function.frameSize
  scopes := 0
  loops := 0
  current := {
    function := function
    offset := 0
    base := 0
    floor := function.frameSize
    frameSize := function.frameSize
    argumentCount := function.parameterCount }
  callers := []

/--
The outline that follows at a next position.  Whether a call was taken shows in
the position: a callee starts at its first byte, where no call ends.
-/
def follow (outline : Outline) (next : Position) : Outline :=
  match outline.upcoming with
  | .ok (.ret _) => outline.returned
  | .ok (.call function) =>
      if next.offset = 0 then outline.called (Instruction.call function).width next.function
      else outline.raised (Instruction.call function).rise next.offset
  | .ok instruction => outline.raised instruction.rise next.offset
  | .error _ => outline

end Outline

namespace Machine

variable {batch : Batch σ} {machine before after final : Machine}
variable {trail : List Position}

/-- In the same activation an outline changes by the rise and the offset alone. -/
theorem Stays.outline (stays : machine.Stays after) :
    after.outline =
      machine.outline.raised (machine.riseTo after) after.current.offset := by
  have raises : ∀ low high : Nat, high = (low + ((high : Int) - low)).toNat := by
    omega
  have current : after.current =
      { machine.current with offset := after.current.offset } :=
    (Activation.mk.injEq ..).mpr ⟨stays.function, rfl, stays.base, stays.floor,
      stays.frameSize, stays.argumentCount⟩
  exact (Outline.mk.injEq ..).mpr
    ⟨raises _ _, raises _ _, raises _ _, current, stays.callers⟩

/-- A step at a return hands registers to the most recent caller. -/
theorem Steps.resumes {count : UInt8} (steps : Steps batch machine after)
    (sound : machine.Sound batch.program)
    (decoded : machine.upcoming = .ok (.ret count)) :
    ∃ caller earlier returned, machine.callers = caller :: earlier ∧
      after = (machine.advanced (.ret count)).resumed caller earlier returned := by
  obtain ⟨host, later, stepped⟩ := steps
  rw [stepAt_of_decoded decoded rfl] at stepped
  have returns : (machine.advanced (.ret count)).ret count.toNat = .ok (.next after) :=
    congrArg Prod.fst stepped
  have fits := (sound.advanced decoded).fits
  cases (@ret_yields σ _ batch fits count).of_ok returns with
  | resumed returns waiting reserved =>
      exact ⟨_, _, _, waiting, rfl⟩

/-- The outline after a step follows from the one before and the position reached. -/
theorem Steps.outline (steps : Steps batch machine after)
    (sound : machine.Sound batch.program) :
    after.outline = machine.outline.follow after.position := by
  obtain ⟨instruction, advances⟩ := steps.advances sound
  have decoded := advances.decoded
  have same : machine.outline.upcoming = .ok instruction := decoded
  rw [Outline.follow, same]
  cases leaving : machine.leaves with
  | false =>
      obtain ⟨stays, rise⟩ := advances.rises sound leaving
      rw [stays.outline, rise]
      rw [leaves, decoded] at leaving
      cases instruction with
      | ret =>
          cases leaving
      | call function =>
          -- A call that is passed over leads behind its own bytes.
          have behind : after.position.offset ≠ 0 := by
            rw [steps.passes decoded leaving]
            exact Nat.ne_of_gt (Nat.add_pos_right _ (Instruction.width_pos _))
          exact (if_neg behind).symm
      | _ =>
          rfl
  | true =>
      rw [leaves, decoded] at leaving
      cases instruction with
      | ret count =>
          obtain ⟨caller, earlier, returned, waiting, rfl⟩ := steps.resumes sound decoded
          change _ = machine.outline.returned
          rw [Outline.returned, show machine.outline.callers = _ from waiting]
          rfl
      | call function =>
          obtain ⟨callee, _, rfl⟩ := steps.calls decoded leaving
          rfl
      | _ =>
          cases leaving

/-! ## Runs -/

/-- A run from one machine to another, and the positions of all machines on the way. -/
inductive Visits (batch : Batch σ) : Machine → List Position → Machine → Prop
  | stop (machine : Machine) : Visits batch machine [machine.position] machine
  | step {before after final : Machine} {trail : List Position}
      (steps : Steps batch before after) (rest : Visits batch after trail final) :
      Visits batch before (before.position :: trail) final

theorem Visits.head (visits : Visits batch before trail final) :
    ∃ later, trail = before.position :: later := by
  cases visits with
  | stop =>
      exact ⟨_, rfl⟩
  | step =>
      exact ⟨_, rfl⟩

/-- The machines that are reached are those at the end of some positions. -/
theorem reaches_iff_visits :
    Reaches batch before final ↔ ∃ trail, Visits batch before trail final := by
  constructor
  · intro reached
    induction reached using Relation.ReflTransGen.head_induction_on with
    | refl =>
        exact ⟨_, .stop final⟩
    | head steps _ induction =>
        obtain ⟨trail, rest⟩ := induction
        exact ⟨_, .step steps rest⟩
  · rintro ⟨trail, visits⟩
    induction visits with
    | stop =>
        exact Relation.ReflTransGen.refl
    | step steps _ induction =>
        exact Relation.ReflTransGen.head steps induction

/-- The outline at the end of a run follows from the one at its start and the positions. -/
theorem Visits.outline (visits : Visits batch before trail final)
    (sound : before.Sound batch.program) :
    final.outline = trail.tail.foldl Outline.follow before.outline := by
  induction visits with
  | stop =>
      rfl
  | @step before after final trail steps rest induction =>
      have reached : Reaches batch before after := .single steps
      obtain ⟨later, rfl⟩ := rest.head
      rw [induction (reached.sound sound), steps.outline sound]
      rfl

theorem outline_of_boot {program : Program} {function : Function} {lanes : Nat}
    {inputs : Option (List Word)} {arguments : List Register}
    (booted : boot program function lanes inputs arguments = .ok machine) :
    machine.outline = Outline.entry function := by
  obtain ⟨globals, _, begun⟩ := bind_eq_ok.mp booted
  obtain ⟨registers, _, enters⟩ := bind_eq_ok.mp begun
  obtain ⟨_, rfl⟩ := (enter_yields _ function 0).of_ok enters
  simp only [outline, entered, Nat.zero_add]
  rfl

end Machine

namespace Linked

variable {linked : Linked σ} {invocation : Invocation} {function : Function}
variable {firstElement lanes : Nat} {trail : List Position} {machine : Machine}

/-- A machine that occurs in a prepared call, and the positions visited on the way. -/
def Visits (linked : Linked σ) (invocation : Invocation) (function : Function)
    (firstElement lanes : Nat) (trail : List Position) (machine : Machine) : Prop :=
  ∃ (returns : Option Nat) (arguments : List Register) (start : Machine),
    linked.program.prepare invocation arguments.length returns = .ok function ∧
      Machine.boot linked.program function lanes invocation.inputs arguments =
        .ok start ∧
        Machine.Visits (linked.batch invocation firstElement) start trail machine

theorem occurs_iff_visits :
    linked.Occurs invocation function firstElement lanes machine ↔
      ∃ trail, linked.Visits invocation function firstElement lanes trail machine := by
  constructor
  · rintro ⟨returns, arguments, start, prepared, booted, reached⟩
    obtain ⟨trail, visits⟩ := Machine.reaches_iff_visits.mp reached
    exact ⟨trail, returns, arguments, start, prepared, booted, visits⟩
  · rintro ⟨trail, returns, arguments, start, prepared, booted, visits⟩
    exact ⟨returns, arguments, start, prepared, booted,
      Machine.reaches_iff_visits.mpr ⟨trail, visits⟩⟩

/-- The positions visited in a call of a function tell the outline of its machine. -/
theorem Visits.outline
    (visits : linked.Visits invocation function firstElement lanes trail machine) :
    machine.outline = trail.tail.foldl Outline.follow (Outline.entry function) := by
  obtain ⟨returns, arguments, start, prepared, booted, visits⟩ := visits
  have occurs : linked.Occurs invocation function firstElement lanes start :=
    ⟨returns, arguments, start, prepared, booted, Relation.ReflTransGen.refl⟩
  rw [visits.outline occurs.serves.sound, Machine.outline_of_boot booted]

/-- A step in a call that stays in its activation, and the rise told by its bytes. -/
theorem Occurs.rises {after : Machine}
    (occurs : linked.Occurs invocation function firstElement lanes machine)
    (steps : Machine.Steps (linked.batch invocation firstElement) machine after)
    (staying : machine.leaves = false) :
    machine.Stays after ∧
      Rise.ofBytes? machine.upcomingBytes = some (machine.riseTo after) := by
  have sound := occurs.serves.sound
  obtain ⟨instruction, advances⟩ := steps.advances sound
  obtain ⟨stays, rise⟩ := advances.rises sound staying
  exact ⟨stays, rise ▸ Machine.ofBytes?_upcomingBytes advances.decoded⟩

/--
Stack effects do not depend on data.  A step that is neither a return nor a
call that a lane takes leaves its activation and the waiting ones as they are,
and raises the operands, the scopes and the loops by what the bytes of its
instruction tell.  So two machines at the same position rise alike, whatever
their registers, masks, uniforms and hosts; and two runs of a function that
have visited the same positions have equally many operands, waiting callers,
scopes and loops.
-/
theorem stack_effects_are_data_independent (linked : Linked σ) (other : Linked τ)
    (invocation otherInvocation : Invocation)
    (firstElement otherElement lanes otherLanes : Nat) :
    (∀ function machine after,
      linked.Occurs invocation function firstElement lanes machine →
        Machine.Steps (linked.batch invocation firstElement) machine after →
          machine.leaves = false →
            machine.Stays after ∧
              Rise.ofBytes? machine.upcomingBytes = some (machine.riseTo after)) ∧
      (∀ function otherFunction machine twin after twinAfter,
        linked.Occurs invocation function firstElement lanes machine →
          other.Occurs otherInvocation otherFunction otherElement otherLanes twin →
            machine.position = twin.position →
              Machine.Steps (linked.batch invocation firstElement) machine after →
                Machine.Steps (other.batch otherInvocation otherElement) twin twinAfter →
                  machine.leaves = false → twin.leaves = false →
                    machine.riseTo after = twin.riseTo twinAfter) ∧
      ∀ function trail machine twin,
        linked.Visits invocation function firstElement lanes trail machine →
          other.Visits otherInvocation function otherElement otherLanes trail twin →
            machine.top = twin.top ∧
              machine.callers.length = twin.callers.length ∧
              machine.predicates.scopes.length = twin.predicates.scopes.length ∧
              machine.predicates.loops.length = twin.predicates.loops.length := by
  refine ⟨fun _ _ _ => Occurs.rises, ?_, ?_⟩
  · intro _ _ machine twin after twinAfter occurs occursToo same steps stepsToo staying
      stayingToo
    have told := (occurs.rises steps staying).2
    have toldToo := (occursToo.rises stepsToo stayingToo).2
    have bytes : machine.upcomingBytes = twin.upcomingBytes := by
      obtain ⟨function, offset⟩ := (Position.mk.injEq ..).mp same
      rw [Machine.upcomingBytes, Machine.upcomingBytes, Machine.upcoming, Machine.upcoming,
        function, offset]
    rw [bytes, toldToo] at told
    exact (Option.some.inj told).symm
  · intro function trail machine twin visits visitsToo
    have same : machine.outline = twin.outline :=
      visits.outline.trans visitsToo.outline.symm
    exact ⟨congrArg Outline.top same, congrArg (·.callers.length) same,
      congrArg Outline.scopes same, congrArg Outline.loops same⟩

/-- A function that opens a scope for the lanes of its argument and closes it again. -/
def sift : Function where
  name := "sift"
  parameterCount := 1
  stackCount := 1
  parameters := [{ slotCount := 1 }]
  code := (Instruction.load .local 1 0).encode ++ Instruction.maskPush.encode ++
    Instruction.maskPop.encode ++ (Instruction.ret 0).encode

/-- A function that calls `sift` with what the host tells. -/
def survey : Function where
  name := "survey"
  parameterCount := 0
  stackCount := 1
  code := (Instruction.readExternal 1 0).encode ++ (Instruction.call 0).encode ++
    (Instruction.compute (.pop 1)).encode ++ (Instruction.ret 0).encode

/-- The program of `survey`, with a host that tells a word for each element. -/
def surveying (word : Nat → Word) : Linked Unit where
  program := { functions := [sift, survey] }
  externals := [{ read := fun element width => return Vector.replicate width (word element) }]

/-- The positions from the start of `survey` to the scope in `sift`. -/
def intoScope : List Position :=
  [⟨survey, 0⟩, ⟨survey, 3⟩, ⟨sift, 0⟩, ⟨sift, 3⟩]

/-- Three steps of `survey` that lead through these positions. -/
theorem surveying_visits {word : Nat → Word} {lanes : Nat} {first second machine : Machine}
    (asks : Machine.Steps ((surveying word).batch ⟨1, [], none⟩ 0)
      (Machine.booted survey lanes (.blank globalCapacity) []) first)
    (calls : Machine.Steps ((surveying word).batch ⟨1, [], none⟩ 0) first second)
    (loads : Machine.Steps ((surveying word).batch ⟨1, [], none⟩ 0) second machine)
    (places : ⟨survey, 0⟩ :: [first, second, machine].map Machine.position = intoScope) :
    (surveying word).Visits ⟨1, [], none⟩ survey 0 lanes intoScope machine := by
  refine ⟨some 0, [], Machine.booted survey lanes (.blank globalCapacity) [], rfl, ?_, ?_⟩
  · rw [Machine.boot_eq (by decide) (by decide)]
    rfl
  · rw [← places]
    exact .step asks (.step calls (.step loads (.stop machine)))

/--
One element of which the host tells 5, and two of which it tells 0 and 1: the
lanes, the registers and the scope to be opened differ, and yet the stacks stand
equally high before the scope and rise alike as it is opened.
-/
theorem stack_effects_are_data_independent_survey :
    ∃ machine twin after twinAfter,
      (surveying fun _ => 5).Visits ⟨1, [], none⟩ survey 0 1 intoScope machine ∧
      (surveying UInt32.ofNat).Visits ⟨1, [], none⟩ survey 0 2 intoScope twin ∧
      (machine.top = twin.top ∧ machine.callers.length = twin.callers.length ∧
        machine.predicates.scopes.length = twin.predicates.scopes.length ∧
        machine.predicates.loops.length = twin.predicates.loops.length) ∧
      Machine.Steps ((surveying fun _ => 5).batch ⟨1, [], none⟩ 0) machine after ∧
      Machine.Steps ((surveying UInt32.ofNat).batch ⟨1, [], none⟩ 0) twin twinAfter ∧
      after.live ≠ twinAfter.live ∧ machine.Stays after ∧
      some (machine.riseTo after) = Rise.ofBytes? Instruction.maskPush.encode ∧
      machine.riseTo after = twin.riseTo twinAfter := by
  -- The host is asked, `sift` is called and loads its argument, and a scope is opened.
  obtain ⟨first, second, machine, after, asks, calls, loads, opens, places, bytes, staying,
      live⟩ :
      ∃ first second machine after,
        Machine.Steps ((surveying fun _ => 5).batch ⟨1, [], none⟩ 0)
            (Machine.booted survey 1 (.blank globalCapacity) []) first ∧
          Machine.Steps ((surveying fun _ => 5).batch ⟨1, [], none⟩ 0) first second ∧
          Machine.Steps ((surveying fun _ => 5).batch ⟨1, [], none⟩ 0) second machine ∧
          Machine.Steps ((surveying fun _ => 5).batch ⟨1, [], none⟩ 0) machine after ∧
          ⟨survey, 0⟩ :: [first, second, machine].map Machine.position = intoScope ∧
          machine.upcomingBytes = Instruction.maskPush.encode ∧
          machine.leaves = false ∧ after.live.get 0 = true :=
    ⟨_, _, _, _, ⟨(), (), rfl⟩, ⟨(), (), rfl⟩, ⟨(), (), rfl⟩, ⟨(), (), rfl⟩, rfl, rfl, rfl,
      by decide +kernel⟩
  obtain ⟨twinFirst, twinSecond, twin, twinAfter, twinAsks, twinCalls, twinLoads, twinOpens,
      twinPlaces, twinStaying, twinLive⟩ :
      ∃ twinFirst twinSecond twin twinAfter,
        Machine.Steps ((surveying UInt32.ofNat).batch ⟨1, [], none⟩ 0)
            (Machine.booted survey 2 (.blank globalCapacity) []) twinFirst ∧
          Machine.Steps ((surveying UInt32.ofNat).batch ⟨1, [], none⟩ 0) twinFirst
            twinSecond ∧
          Machine.Steps ((surveying UInt32.ofNat).batch ⟨1, [], none⟩ 0) twinSecond twin ∧
          Machine.Steps ((surveying UInt32.ofNat).batch ⟨1, [], none⟩ 0) twin twinAfter ∧
          ⟨survey, 0⟩ :: [twinFirst, twinSecond, twin].map Machine.position = intoScope ∧
          twin.leaves = false ∧ twinAfter.live.get 0 = false :=
    ⟨_, _, _, _, ⟨(), (), rfl⟩, ⟨(), (), rfl⟩, ⟨(), (), rfl⟩, ⟨(), (), rfl⟩, rfl, rfl,
      by decide +kernel⟩
  have visits := surveying_visits asks calls loads places
  have twinVisits := surveying_visits twinAsks twinCalls twinLoads twinPlaces
  have occurs := occurs_iff_visits.mpr ⟨_, visits⟩
  have twinOccurs := occurs_iff_visits.mpr ⟨_, twinVisits⟩
  obtain ⟨told, alike, level⟩ := stack_effects_are_data_independent (surveying fun _ => 5)
    (surveying UInt32.ofNat) ⟨1, [], none⟩ ⟨1, [], none⟩ 0 0 1 2
  obtain ⟨stays, rise⟩ := told survey machine after occurs opens staying
  have same : machine.position = twin.position :=
    Option.some.inj (congrArg List.getLast? (places.trans twinPlaces.symm))
  refine ⟨machine, twin, after, twinAfter, visits, twinVisits,
    level survey intoScope machine twin visits twinVisits, opens, twinOpens, ?_, stays, ?_,
    alike survey survey machine twin after twinAfter occurs twinOccurs same opens twinOpens
      staying twinStaying⟩
  · intro equal
    rw [equal, twinLive] at live
    cases live
  · rw [← rise, bytes]

end Linked

end Lockstep
