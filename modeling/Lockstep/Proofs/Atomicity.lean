import Lockstep.Proofs.HostCalls
import Mathlib.Algebra.GroupWithZero.Nat

/-!
# Single elements are written back at once

A call for a single element writes its buffers in place: its last step writes
the results, and after that the arguments are copied back.  No step before the
last one touches the buffers, and from the last step on nothing fails.  So unless
the call completes, both buffers are as they were.  If it completes, its last
step was the return of the outermost function, and the buffers show the machine
at that return in the lowest lane: the returned registers, and those slots of
the frame that belong to parameters which go back to the caller.

`Machine.outermost_return` finds that step as the last moment of the run.  Its
frame is the one with which the call started: `Machine.Reaches.base_outermost`
says that no step moves the outermost frame.
-/

namespace Lockstep

variable {σ : Type}

/-! ## Slots of parameters -/

/-- A slot of a parameter that goes back to the caller, where some parameters divide slots. -/
def Outputs (parameters : List Parameter) (slot : Nat) : Prop :=
  ∃ earlier parameter later, parameters = earlier ++ parameter :: later ∧
    parameter.isOut = true ∧ (earlier.map Parameter.slotCount).sum ≤ slot ∧
      slot < (earlier.map Parameter.slotCount).sum + parameter.slotCount

theorem outputs_nil {slot : Nat} : ¬ Outputs [] slot := by
  rintro ⟨_ | _, parameter, later, ⟨⟩, _⟩

/-- A slot belongs to the first parameter, or to another one behind its slots. -/
theorem outputs_cons {parameter : Parameter} {parameters : List Parameter} {slot : Nat} :
    Outputs (parameter :: parameters) slot ↔
      if slot < parameter.slotCount then parameter.isOut = true
      else Outputs parameters (slot - parameter.slotCount) := by
  constructor
  · rintro ⟨_ | ⟨first, earlier⟩, other, later, split, out, above, below⟩
    · rcases split with ⟨⟩
      have inside : slot < parameter.slotCount := by simpa using below
      rw [if_pos inside]
      exact out
    · rcases split with ⟨⟩
      rw [List.map_cons, List.sum_cons] at above below
      rw [if_neg (by omega)]
      exact ⟨earlier, other, later, rfl, out, by omega, by omega⟩
  · split
    · rename_i inside
      intro out
      exact ⟨[], parameter, parameters, rfl, out, Nat.zero_le _, by simpa using inside⟩
    · rintro ⟨earlier, other, later, rfl, out, above, below⟩
      refine ⟨parameter :: earlier, other, later, rfl, out, ?_, ?_⟩ <;>
        · rw [List.map_cons, List.sum_cons]
          omega

theorem Function.mem_outSlotsFrom_iff {parameters : List Parameter} {start slot : Nat} :
    slot ∈ Function.outSlotsFrom start parameters ↔
      start ≤ slot ∧ Outputs parameters (slot - start) := by
  induction parameters generalizing start with
  | nil =>
      exact iff_of_false List.not_mem_nil fun listed => outputs_nil listed.2
  | cons parameter parameters induction =>
      have here : slot ∈ (if parameter.isOut then
          List.range' start parameter.slotCount else []) ↔
            parameter.isOut = true ∧ start ≤ slot ∧ slot < start + parameter.slotCount := by
        split <;> simp [*]
      rw [Function.outSlotsFrom, List.mem_append, here, induction, outputs_cons, Nat.sub_sub]
      split
      · rename_i inside
        constructor
        · rintro (⟨out, above, _⟩ | ⟨behind, _⟩)
          · exact ⟨above, out⟩
          · omega
        · rintro ⟨above, out⟩
          exact Or.inl ⟨out, above, by omega⟩
      · rename_i outside
        constructor
        · rintro (⟨_, above, below⟩ | ⟨behind, listed⟩)
          · omega
          · exact ⟨by omega, listed⟩
        · rintro ⟨above, listed⟩
          exact Or.inr ⟨by omega, listed⟩

/-- The slots that are copied are those of the parameters that go back to the caller. -/
theorem Function.isOutSlot_iff {function : Function} {slot : Nat} :
    function.isOutSlot slot = true ↔ Outputs function.parameters slot := by
  unfold Function.isOutSlot Function.outSlots
  rw [List.contains_iff_mem, mem_outSlotsFrom_iff]
  exact and_iff_right (Nat.zero_le _)

/-! ## The outermost return -/

namespace Machine

variable {batch : Batch σ} {machine start : Machine} {function : Function}
variable {lanes budget : Nat} {host later : σ}

/-- No step moves the frame of the outermost activation. -/
theorem Reaches.base_outermost (reached : Reaches batch start machine)
    (sound : start.Sound batch.program) :
    machine.outermost.base = start.outermost.base := by
  refine (@Reaches.invariant _ _ (fun reached => reached.Sound batch.program ∧
    reached.outermost.base = start.outermost.base) _ _ reached ⟨sound, rfl⟩ ?_).2
  rintro before after ⟨sound, same⟩ steps
  obtain ⟨instruction, advances⟩ := steps.advances sound
  obtain ⟨offset, moved⟩ := advances.effect.outermost
  obtain ⟨passed, advanced⟩ : ∃ offset, (before.advanced instruction).outermost =
      { before.outermost with offset := offset } := before.outermost_jumped _
  refine ⟨advances.sound sound, ?_⟩
  calc after.outermost.base
      = (before.advanced instruction).outermost.base := by rw [moved]
    _ = before.outermost.base := by rw [advanced]
    _ = start.outermost.base := same

/-- A run that completes makes its last step from its last moment. -/
theorem last_moment_of_runAt {final : Machine} {returned : List Register}
    (ended : machine.runAt batch budget host = (some (.ok (final, returned)), later)) :
    ∃ last state, (machine.moments batch budget host).getLast? = some (last, state) ∧
      last.stepAt batch state = (.ok (.done final returned), later) := by
  induction budget generalizing machine host with
  | zero =>
      cases ended
  | succ budget induction =>
      rw [runAt_succ] at ended
      rw [moments]
      cases stepped : machine.stepAt batch host with
      | mk outcome state =>
          rw [stepped] at ended
          rcases outcome with failure | after | ⟨reached, values⟩
          · cases ended
          · obtain ⟨last, found, listed, finishes⟩ := induction ended
            refine ⟨last, found, ?_, finishes⟩
            rw [List.getLast?_cons, listed]
            rfl
          · cases ended
            exact ⟨machine, host, rfl, stepped⟩

/-- The last machine of a run, which makes the outermost return of a function. -/
structure OutermostReturn (batch : Batch σ) (budget : Nat) (host : σ) (start : Machine)
    (function : Function) (last : Machine) : Prop where
  /-- No machine of the run takes a step after it. -/
  moment : ∃ state, (start.moments batch budget host).getLast? = some (last, state)
  /-- Its step is a return of as many registers as the function declares. -/
  instruction : ∃ count, last.upcoming = .ok (.ret count) ∧
    count.toNat = function.returnCount
  /-- No caller waits. -/
  outermost : last.callers = []
  /-- The frame is the one with which the run started. -/
  frame : last.current.function = function ∧ last.current.base = start.current.base
  /-- The registers to return lie above the frame. -/
  present : last.current.floor + function.returnCount ≤ last.top

/-- A run that completes hands over what its outermost return finds. -/
theorem outermost_return (serves : start.Serves batch.program function lanes)
    (fresh : start.callers = []) {final : Machine} {returned : List Register}
    (ended : start.runAt batch budget host = (some (.ok (final, returned)), later)) :
    ∃ last, OutermostReturn batch budget host start function last ∧
      final.registers = last.registers ∧ returned = last.topmost function.returnCount := by
  obtain ⟨last, state, listed, finishes⟩ := last_moment_of_runAt ended
  have reached : Reaches batch start last :=
    reaches_of_moment (List.mem_of_getLast? listed)
  have serving := reached.serves serves
  have stepped := stepAt_yields serving.sound state
  rw [finishes] at stepped
  obtain ⟨instruction, decoded, effect⟩ := stepped
  cases effect with
  | @returned count _ hands =>
      cases hands with
      | finished returns alone =>
          have outermost : last.callers = [] := alone
          have current : last.outermost = last.current := by
            unfold Machine.outermost
            rw [outermost]
            rfl
          have began : start.outermost = start.current := by
            unfold Machine.outermost
            rw [fresh]
            rfl
          have same : last.current.function = function := current ▸ serving.outermost
          have base := reached.base_outermost serves.sound
          rw [current, began] at base
          have declared : count.toNat = function.returnCount := same ▸ returns.declared
          refine ⟨last, ⟨⟨state, listed⟩, ⟨count, decoded, declared⟩, outermost,
            ⟨same, base⟩, ?_⟩, rfl, ?_⟩
          · rw [← declared]
            exact returns.present
          · rw [returns.returned, declared]
            rfl

end Machine

/-! ## Buffers -/

namespace Linked

/-- What a call that completes leaves in its buffers, given its outermost return. -/
structure WritesBack (function : Function) (last : Machine) (arguments returns : List Word)
    (result : Result Word) : Prop where
  /-- There is a slot for each value that is returned. -/
  counted : returns.length = function.returnCount
  /-- The values of the outermost return, in order. -/
  returned : result.returns = (List.range function.returnCount).map fun slot =>
    (last.cell .local (last.top - function.returnCount + slot)).get 0
  length : result.arguments.length = arguments.length
  /-- Parameters that go back to the caller are read from the frame. -/
  written : ∀ slot, Outputs function.parameters slot →
    slot < arguments.length ∧ result.arguments[slot]? =
      some ((last.cell .local (last.current.base + slot)).get 0)
  /-- The others are left alone. -/
  kept : ∀ slot, ¬ Outputs function.parameters slot →
    result.arguments[slot]? = arguments[slot]?

theorem getElem?_copyBack {function : Function} {machine : Machine} {arguments : List Word}
    {slot : Nat} (inside : slot < arguments.length) :
    (function.copyBack machine arguments)[slot]? =
      some (if function.isOutSlot slot then (machine.registers.register slot).get 0
        else arguments[slot]) := by
  unfold Function.copyBack
  rw [List.getElem?_map, List.getElem?_zipIdx, List.getElem?_eq_getElem inside]
  simp

theorem writesBack_of_return {program : Program} {invocation : Invocation}
    {function : Function} {last final : Machine} {arguments returns : List Word}
    {returned : List Register}
    (accepts : program.Accepts function arguments.length (some returns.length)
      invocation.uniforms.length (invocation.inputs.map List.length))
    (base : last.current.base = 0) (registers : final.registers = last.registers)
    (handed : returned = last.topmost function.returnCount) :
    WritesBack function last arguments returns
      (conclude function arguments returns (some (.ok (final, returned)))) := by
  have length : (function.copyBack final arguments).length = arguments.length := by
    simp [Function.copyBack]
  refine ⟨accepts.returns _ rfl, ?_, length, ?_, ?_⟩
  · change returned.map (·.get 0) = _
    rw [handed]
    simp [Machine.topmost, Machine.cell, RegisterFile.run]
  · intro slot out
    have marked := Function.isOutSlot_iff.mpr out
    have inside : slot < arguments.length := by
      rw [accepts.arguments]
      exact Function.lt_of_isOutSlot accepts.widths marked
    refine ⟨inside, ?_⟩
    change (function.copyBack final arguments)[slot]? = _
    rw [getElem?_copyBack inside, if_pos marked, registers, base, Nat.zero_add]
    rfl
  · intro slot other
    change (function.copyBack final arguments)[slot]? = _
    by_cases inside : slot < arguments.length
    · rw [getElem?_copyBack inside, if_neg (mt Function.isOutSlot_iff.mp other),
        List.getElem?_eq_getElem inside]
    · rw [List.getElem?_eq_none (by omega), List.getElem?_eq_none (by omega)]

section Calls

variable {linked : Linked σ} {budget : Nat} {invocation : Invocation} {host : σ}
variable {arguments returns : List Word}

/-- A call that does not complete leaves its buffers alone. -/
theorem run_unchanged
    (incomplete :
      ((linked.run budget invocation arguments returns).run host).1.ending ≠ .completed) :
    ((linked.run budget invocation arguments returns).run host).1.arguments = arguments ∧
      ((linked.run budget invocation arguments returns).run host).1.returns = returns := by
  rw [run_at] at incomplete ⊢
  revert incomplete
  cases linked.program.prepare invocation arguments.length (some returns.length) with
  | error failure =>
      exact fun _ => ⟨rfl, rfl⟩
  | ok function =>
      dsimp only
      generalize (linked.runBatch budget invocation function 0 1
        (arguments.map fun word => packWords [word])).run host = reached
      intro incomplete
      rcases reached with ⟨_ | failure | ⟨final, returned⟩, later⟩
      · exact ⟨rfl, rfl⟩
      · exact ⟨rfl, rfl⟩
      · exact absurd rfl incomplete

/-- A call that completes has run a machine to its end. -/
theorem run_completed
    (completed :
      ((linked.run budget invocation arguments returns).run host).1.ending = .completed) :
    ∃ function globals final returned later,
      linked.program.prepare invocation arguments.length (some returns.length) =
          .ok function ∧
        linked.program.seed (invocation.inputs.getD []) = .ok globals ∧
        (Machine.booted function 1 globals
          (arguments.map fun word => packWords [word])).runAt
            (linked.batch invocation 0) budget host =
              (some (.ok (final, returned)), later) ∧
        ((linked.run budget invocation arguments returns).run host).1 =
          conclude function arguments returns (some (.ok (final, returned))) := by
  rw [run_at] at completed ⊢
  cases prepared : linked.program.prepare invocation arguments.length
      (some returns.length) with
  | error failure =>
      rw [prepared] at completed
      cases completed
  | ok function =>
      obtain ⟨_, accepts⟩ := Program.prepare_eq_ok.mp prepared
      have counted : (arguments.map fun word => packWords [word]).length =
          function.parameterCount := by
        rw [List.length_map]
        exact accepts.arguments
      rw [prepared] at completed
      dsimp only at completed ⊢
      rw [runBatch_at accepts.frame counted] at completed ⊢
      cases seeded : linked.program.seed (invocation.inputs.getD []) with
      | error failure =>
          rw [seeded] at completed
          cases completed
      | ok globals =>
          rw [seeded] at completed
          dsimp only at completed ⊢
          cases ended : (Machine.booted function 1 globals
              (arguments.map fun word => packWords [word])).runAt
                (linked.batch invocation 0) budget host with
          | mk outcome later =>
              rw [ended] at completed
              rcases outcome with _ | failure | ⟨final, returned⟩
              · cases completed
              · cases completed
              · exact ⟨function, globals, final, returned, later, rfl, rfl, ended, rfl⟩

end Calls

/--
A call for a single element that does not complete leaves its buffers as they
were.  One that completes returns in the lowest lane what its outermost return
finds, writes back the slots of the frame at that return which belong to
parameters that go back to the caller, and leaves the other arguments alone.
-/
theorem single_calls_are_atomic (linked : Linked σ) (budget : Nat)
    (invocation : Invocation) (arguments returns : List Word) (host : σ) :
    let result := ((linked.run budget invocation arguments returns).run host).1
    (result.ending ≠ .completed →
      result.arguments = arguments ∧ result.returns = returns) ∧
    (result.ending = .completed → ∃ function start last,
      linked.program.functions[invocation.handle]? = some function ∧
        Machine.boot linked.program function 1 invocation.inputs
          (arguments.map fun word => packWords [word]) = .ok start ∧
        Machine.OutermostReturn (linked.batch invocation 0) budget host start function
          last ∧
        start.current.base = 0 ∧
        WritesBack function last arguments returns result) := by
  refine ⟨run_unchanged, fun completed => ?_⟩
  obtain ⟨function, globals, final, returned, later, prepared, seeded, ended, same⟩ :=
    run_completed completed
  obtain ⟨known, accepts⟩ := Program.prepare_eq_ok.mp prepared
  have boots := @Machine.boot_eq linked.program function 1 invocation.inputs
    (arguments.map fun word => packWords [word]) accepts.frame
    (by rw [List.length_map]; exact accepts.arguments)
  rw [seeded] at boots
  obtain ⟨last, returning, registers, handed⟩ := Machine.outermost_return
    (Machine.serves_booted (List.mem_of_getElem? known) accepts.frame globals) rfl ended
  rw [same]
  exact ⟨function, _, last, known, boots, returning, rfl,
    writesBack_of_return accepts returning.frame.2 registers handed⟩

/-- A function that gives its first argument to the second and fails if it is zero. -/
def hand : Function where
  name := "hand"
  parameterCount := 2
  stackCount := 2
  returnCount := 1
  parameters := [{ slotCount := 1 }, { slotCount := 1, isOut := true }]
  code := (Instruction.load .local 1 0).encode ++ (Instruction.store .local 1 1).encode ++
    (Instruction.compute (.immediate 9)).encode ++ (Instruction.load .local 1 1).encode ++
    (Instruction.divide .quotientU 1).encode ++ (Instruction.ret 1).encode

/-- A program in which `hand` can be called. -/
def handing : Linked Unit :=
  ⟨{ functions := [hand] }, []⟩

/-- With three both buffers are written, with zero neither is. -/
theorem single_calls_are_atomic_hand :
    ((handing.run 9 ⟨0, [], none⟩ [3, 8] [5]).run ()).1.arguments = [3, 3] ∧
      (∃ last, WritesBack hand last [3, 8] [5]
        ((handing.run 9 ⟨0, [], none⟩ [3, 8] [5]).run ()).1) ∧
      ((handing.run 9 ⟨0, [], none⟩ [0, 8] [5]).run ()).1.arguments = [0, 8] ∧
      ((handing.run 9 ⟨0, [], none⟩ [0, 8] [5]).run ()).1.returns = [5] := by
  have three := single_calls_are_atomic handing 9 ⟨0, [], none⟩ [3, 8] [5] ()
  have zero := single_calls_are_atomic handing 9 ⟨0, [], none⟩ [0, 8] [5] ()
  have written :
      ((handing.run 9 ⟨0, [], none⟩ [3, 8] [5]).run ()).1.arguments = [3, 3] := by
    decide +kernel
  have failed : ((handing.run 9 ⟨0, [], none⟩ [0, 8] [5]).run ()).1.ending.failure? =
      some (.fault (.arithmetic (.divide .quotientU) 0)) := by
    decide +kernel
  refine ⟨written, ?_, zero.1 fun completed => ?_⟩
  · have completed :
        ((handing.run 9 ⟨0, [], none⟩ [3, 8] [5]).run ()).1.ending = .completed := by
      by_contra incomplete
      exact absurd (written.symm.trans (three.1 incomplete).1) (by decide)
    obtain ⟨function, start, last, known, _, _, _, writes⟩ := three.2 completed
    obtain rfl : function = hand := (Option.some.inj known).symm
    exact ⟨last, writes⟩
  · rw [completed] at failed
    cases failed

end Linked

end Lockstep
