import Lockstep.Proofs.Acceptance

/-!
# Machines that serve a call

A machine serves a call if it is sound, runs the called function outermost and
occupies the lanes of the call.  Every step keeps it so, up to the outermost
return, which hands over as many registers as the function declares, from a
machine that still has the frame with which the call started.
-/

namespace Lockstep

variable {σ : Type}

namespace Machine

/-- The activation with which the call started. -/
def outermost (machine : Machine) : Activation :=
  machine.callers.getLastD machine.current

/-- A sound machine that runs a called function on a number of lanes. -/
structure Serves (program : Program) (function : Function) (lanes : Nat)
    (machine : Machine) : Prop where
  sound : machine.Sound program
  outermost : machine.outermost.function = function
  occupied : machine.predicates.occupied = .first lanes

variable {program : Program} {function : Function} {lanes : Nat}
variable {machine : Machine} {batch : Batch σ}

/-- A jump changes at most the offset of the outermost activation. -/
theorem outermost_jumped (machine : Machine) (target : Nat) :
    ∃ offset, (machine.jumped target).outermost =
      { machine.outermost with offset := offset } := by
  unfold Machine.outermost Machine.jumped
  cases machine.callers with
  | nil =>
      exact ⟨target, rfl⟩
  | cons caller earlier =>
      exact ⟨_, rfl⟩

/-- Every effect of an instruction changes at most the offset of the outermost activation. -/
theorem Effect.outermost {instruction : Instruction} {after : Machine}
    (effect : Effect program machine instruction (.next after)) :
    ∃ offset, after.outermost = { machine.outermost with offset := offset } := by
  cases effect with
  | operated operated =>
      unfold Machine.outermost
      rw [show after.current = machine.current from operated.stack.current,
        show after.callers = machine.callers from operated.stack.callers]
      exact ⟨_, rfl⟩
  | jumped leads inside =>
      exact machine.outermost_jumped _
  | called calls =>
      refine ⟨machine.outermost.offset, ?_⟩
      change (machine.current :: machine.callers).getLastD _ = _
      rw [List.getLastD_cons]
      rfl
  | returned hands =>
      cases hands with
      | resumed returns waiting reserved =>
          refine ⟨machine.outermost.offset, ?_⟩
          unfold Machine.outermost
          rw [waiting, List.getLastD_cons]
          rfl

theorem Serves.jumped (serves : machine.Serves program function lanes) {target : Nat}
    (inside : target ≤ machine.current.function.code.length) :
    (machine.jumped target).Serves program function lanes := by
  refine ⟨serves.sound.jumped inside, ?_, serves.occupied⟩
  obtain ⟨offset, same⟩ := machine.outermost_jumped target
  rw [same]
  exact serves.outermost

/-- Every effect of an instruction leaves the machine in the service of its call. -/
theorem Effect.serves {instruction : Instruction} {after : Machine}
    (effect : Effect program machine instruction (.next after))
    (serves : machine.Serves program function lanes) :
    after.Serves program function lanes := by
  refine ⟨effect.sound serves.sound, ?_, ?_⟩
  · obtain ⟨offset, same⟩ := effect.outermost
    rw [same]
    exact serves.outermost
  · cases effect with
    | operated operated =>
        rw [(operated.predicates_keep serves.sound.predicates).2]
        exact serves.occupied
    | jumped leads inside =>
        exact serves.occupied
    | called calls =>
        exact serves.occupied
    | returned hands =>
        cases hands with
        | resumed returns waiting reserved =>
            exact serves.occupied

theorem Serves.advanced {instruction : Instruction}
    (serves : machine.Serves program function lanes)
    (decoded : machine.upcoming = .ok instruction) :
    (machine.advanced instruction).Serves program function lanes := by
  apply serves.jumped
  exact (serves.sound.advanced decoded).running.offset

theorem Reaches.serves {start : Machine} (reached : Reaches batch start machine)
    (serves : start.Serves batch.program function lanes) :
    machine.Serves batch.program function lanes := by
  apply reached.invariant serves
  intro before after holds steps
  obtain ⟨instruction, advances⟩ := steps.advances holds.sound
  exact advances.effect.serves (holds.advanced advances.decoded)

theorem serves_entered_idle (known : function ∈ program.functions)
    (frame : function.stackNeed ≤ stackCapacity)
    (registers : RegisterFile stackCapacity) (globals : RegisterFile globalCapacity) :
    ((idle function lanes registers globals).entered function 0).Serves program function
      lanes :=
  ⟨sound_entered_idle known frame registers globals, rfl, rfl⟩

theorem serves_booted {arguments : List Register}
    (known : function ∈ program.functions)
    (frame : function.stackNeed ≤ stackCapacity)
    (globals : RegisterFile globalCapacity) :
    (booted function lanes globals arguments).Serves program function lanes :=
  serves_entered_idle known frame _ globals

/-- Only lanes that hold elements are live. -/
theorem Serves.lt_of_live (serves : machine.Serves program function lanes) {lane : Lane}
    (live : machine.live.get lane = true) : lane.val < lanes := by
  have occupied := serves.sound.predicates.occupied_of_live live
  rw [serves.occupied, Lanes.get_first] at occupied
  exact of_decide_eq_true occupied

/-- What the outermost return hands over. -/
structure Delivers (program : Program) (function : Function) (lanes : Nat)
    (final : Machine) (returned : List Register) : Prop where
  serves : final.Serves program function lanes
  outermost : final.callers = []
  counted : returned.length = function.returnCount

/-- The arguments of the call are still on the stack when its function returns. -/
theorem Delivers.lt_top {final : Machine} {returned : List Register}
    (delivers : Delivers program function lanes final returned) {slot : Nat}
    (inSlots : slot < function.parameterCount) : slot < final.top := by
  have outermost := delivers.serves.outermost
  unfold Machine.outermost at outermost
  rw [delivers.outermost] at outermost
  have arguments := delivers.serves.sound.running.arguments
  have floor := delivers.serves.sound.floor
  change final.current.function = function at outermost
  rw [delivers.serves.sound.running.counted, outermost] at arguments
  omega

theorem Advances.delivers {instruction : Instruction} {final : Machine}
    {returned : List Register}
    (advances : machine.Advances program instruction (.done final returned))
    (serves : machine.Serves program function lanes) :
    Delivers program function lanes final returned := by
  have advanced := serves.advanced advances.decoded
  rcases advances with ⟨_, effect⟩
  cases effect with
  | returned hands =>
      cases hands with
      | finished returns outermost =>
          refine ⟨advanced, outermost, ?_⟩
          have same := advanced.outermost
          unfold Machine.outermost at same
          rw [outermost] at same
          rw [returns.returned, length_topmost, returns.declared]
          exact congrArg Function.returnCount same

/-- A run of a machine that serves a call does not trap. -/
theorem runAt_yields {budget : Nat} {host later : σ}
    {result : Except Failure (Machine × List Register)}
    (serves : machine.Serves batch.program function lanes)
    (ended : machine.runAt batch budget host = (some result, later)) :
    Yields (· ≠ .trap)
      (fun reached => Delivers batch.program function lanes reached.1 reached.2)
      result := by
  obtain ⟨last, state, reached, concluded⟩ := runAt_ended ended
  have serving := reached.serves serves
  have stepped := stepAt_yields serving.sound state
  generalize (last.stepAt batch state).1 = outcome at concluded stepped
  rcases outcome with failure | following | ⟨final, returned⟩
  · rcases concluded with rfl
    exact Stops.ne_trap stepped
  · exact concluded.elim
  · rcases concluded with rfl
    obtain ⟨instruction, advances⟩ := stepped
    exact advances.delivers serving

end Machine

end Lockstep
