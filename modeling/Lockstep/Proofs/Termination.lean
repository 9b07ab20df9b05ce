import Lockstep.Proofs.Chunking
import Lockstep.Proofs.Verification

/-!
# Programs that only branch forward

A branch that leads forward cannot make a loop, but calls may recurse, and a
return goes back to an earlier offset.  What decreases is the code that is
left, counted over all activations: `Machine.workload` weighs what is left in an
activation by a power that is the higher the fewer activations wait below it.
A call then costs less than the step past it brings, because the number of
waiting activations is bounded, and a return drops what is left of the callee.

`Machine.Advances.workload_lt` says that every step of a verified program that only
branches forward lowers this workload, and `Machine.runAt_ends` that a budget above
the workload suffices.  `Program.stepBound` is such a budget for all calls of a
program.
-/

namespace Lockstep

variable {σ : Type}

/-! ## Forward programs -/

namespace Program

/-- Every branch leads past the place where it stands. -/
def Forward (program : Program) : Prop :=
  ∀ function ∈ program.functions,
    ∀ placed ∈ (Listing.ofCode function.code).instructions,
      ∀ target ∈ placed.instruction.target?, placed.offset < target

instance (program : Program) : Decidable program.Forward :=
  inferInstanceAs (Decidable (∀ _ ∈ _, ∀ _ ∈ _, ∀ _ ∈ _, _))

/-- The length of the longest code. -/
def longest (program : Program) : Nat :=
  (program.functions.map fun function => function.code.length).foldr max 0

/-- More steps than any batch of a forward program takes. -/
def stepBound (program : Program) : Nat :=
  program.longest * (program.longest + 1) ^ callCapacity + 1

theorem length_le_longest {program : Program} {function : Function}
    (known : function ∈ program.functions) : function.code.length ≤ program.longest := by
  unfold longest
  generalize program.functions = functions at known
  induction functions with
  | nil =>
      cases known
  | cons head tail induction =>
      rw [List.map_cons, List.foldr_cons]
      rcases List.mem_cons.mp known with rfl | later
      · exact Nat.le_max_left _ _
      · exact Nat.le_trans (induction later) (Nat.le_max_right _ _)

end Program

/-! ## What is left to do -/

/-- How much of its code an activation has before it. -/
def Activation.remaining (activation : Activation) : Nat :=
  activation.function.code.length - activation.offset

/--
The code that is left in some activations, the running one first.  What is left
of an activation counts once for every number of steps that the activations
above it can take.
-/
def weigh (radix : Nat) : List Activation → Nat
  | [] => 0
  | activation :: below =>
      activation.remaining * radix ^ (callCapacity - below.length) + weigh radix below

section Weights

variable {radix : Nat} {before after callee : Activation} {below : List Activation}

theorem weigh_advance (positive : 0 < radix) (less : after.remaining < before.remaining) :
    weigh radix (after :: below) < weigh radix (before :: below) := by
  apply Nat.add_lt_add_right
  exact Nat.mul_lt_mul_of_pos_right less (Nat.pow_pos positive)

/-- The code of a callee weighs less than the step past the call. -/
theorem weigh_call (small : callee.remaining < radix)
    (waiting : below.length < callCapacity)
    (less : after.remaining < before.remaining) :
    weigh radix (callee :: after :: below) < weigh radix (before :: below) := by
  have positive : 0 < radix := Nat.zero_lt_of_lt small
  have power : radix ^ (callCapacity - below.length) =
      radix * radix ^ (callCapacity - (after :: below).length) := by
    rw [List.length_cons, ← Nat.pow_succ']
    congr 1
    omega
  calc
    weigh radix (callee :: after :: below)
      = callee.remaining * radix ^ (callCapacity - (after :: below).length) +
          weigh radix (after :: below) := rfl
    _ < radix ^ (callCapacity - below.length) + weigh radix (after :: below) := by
        apply Nat.add_lt_add_right
        rw [power]
        exact Nat.mul_lt_mul_of_pos_right small (Nat.pow_pos positive)
    _ = (after.remaining + 1) * radix ^ (callCapacity - below.length) +
          weigh radix below := by
        rw [weigh, Nat.succ_mul]
        omega
    _ ≤ weigh radix (before :: below) :=
        Nat.add_le_add_right (Nat.mul_le_mul_right _ less) _

theorem weigh_return (positive : 0 < radix) (some : 0 < before.remaining) :
    weigh radix below < weigh radix (before :: below) :=
  Nat.lt_add_of_pos_left (Nat.mul_pos some (Nat.pow_pos positive))

end Weights

namespace Machine

variable {program : Program} {machine after : Machine} {batch : Batch σ}
variable {instruction : Instruction} {externals : Nat}

/-- The code that is left to a machine. -/
def workload (program : Program) (machine : Machine) : Nat :=
  weigh (program.longest + 1) machine.activations

/-- An offset further on in the code leaves less of it. -/
theorem remaining_jumped {target : Nat} (further : machine.current.offset < target)
    (inside : machine.current.offset < machine.current.function.code.length) :
    (machine.jumped target).current.remaining < machine.current.remaining := by
  change machine.current.function.code.length - target <
    machine.current.function.code.length - machine.current.offset
  omega

/-- What an instruction stands before lies inside the code. -/
theorem offset_lt_of_decoded (decoded : machine.upcoming = .ok instruction) :
    machine.current.offset < machine.current.function.code.length := by
  have width := Instruction.width_le decoded
  have positive := instruction.width_pos
  rw [List.length_drop] at width
  omega

/-- Every step of a forward program leaves less to do. -/
theorem Advances.workload_lt (advances : machine.Advances program instruction (.next after))
    (forward : program.Forward) (sound : machine.Sound program)
    (aligned : machine.Aligned) : after.workload program < machine.workload program := by
  have inside := offset_lt_of_decoded advances.decoded
  have listed := aligned.listed advances.decoded
  have positive : 0 < program.longest + 1 := Nat.succ_pos _
  have past : (machine.advanced instruction).current.remaining <
      machine.current.remaining :=
    remaining_jumped (Nat.lt_add_of_pos_right instruction.width_pos) inside
  rcases advances with ⟨_, effect⟩
  unfold workload activations
  cases effect with
  | operated operated =>
      rw [show after.current = (machine.advanced instruction).current from
          operated.stack.current,
        show after.callers = machine.callers from operated.stack.callers]
      exact weigh_advance positive past
  | jumped leads _ =>
      exact weigh_advance positive
        (remaining_jumped (forward _ sound.running.known _ listed _ leads) inside)
  | @called _ callee calls =>
      have short := Program.length_le_longest (List.mem_of_getElem? calls.known)
      exact weigh_call (Nat.lt_succ_of_le short) calls.waiting past
  | returned hands =>
      cases hands with
      | @resumed _ caller earlier _ waiting _ =>
          rw [show machine.callers = caller :: earlier from waiting]
          exact weigh_return positive (Nat.sub_pos_of_lt inside)

/-- A budget above what is left to do suffices for a run to end. -/
theorem runAt_ends (verified : batch.program.Verified externals)
    (forward : batch.program.Forward) {budget : Nat} {host : σ}
    (sound : machine.Sound batch.program) (aligned : machine.Aligned)
    (enough : machine.workload batch.program < budget) :
    ∃ result later, machine.runAt batch budget host = (some result, later) := by
  induction budget generalizing machine host with
  | zero =>
      exact absurd enough (Nat.not_lt_zero _)
  | succ budget induction =>
      rw [runAt_succ]
      cases stepped : machine.stepAt batch host with
      | mk outcome state =>
          rcases outcome with failure | following | ⟨final, returned⟩
          · exact ⟨_, _, rfl⟩
          · have steps : Steps batch machine following := ⟨host, state, stepped⟩
            obtain ⟨instruction, advances⟩ := steps.advances sound
            have less := advances.workload_lt forward sound aligned
            exact induction (advances.sound sound)
              (advances.aligned verified sound aligned)
              (Nat.lt_of_lt_of_le less (Nat.le_of_lt_succ enough))
          · exact ⟨_, _, rfl⟩

/-- A machine that starts has less than the bound of its program to do. -/
theorem workload_booted {function : Function} {lanes : Nat} {arguments : List Register}
    {globals : RegisterFile globalCapacity} (known : function ∈ program.functions) :
    (booted function lanes globals arguments).workload program < program.stepBound := by
  have weight : (booted function lanes globals arguments).workload program =
      function.code.length * (program.longest + 1) ^ callCapacity := by
    change (function.code.length - 0) * _ ^ (callCapacity - 0) + 0 = _
    rw [Nat.sub_zero, Nat.sub_zero, Nat.add_zero]
  rw [weight]
  exact Nat.lt_succ_of_le (Nat.mul_le_mul_right _ (Program.length_le_longest known))

end Machine

/-! ## Calls -/

namespace Linked

variable {linked : Linked σ} {invocation : Invocation} {function : Function} {host : σ}

/-- With any budget from a bound on, a call ends, and ends alike. -/
structure Steady {β : Type} (bound : Nat) (call : Nat → StateM σ (Result β)) (host : σ) :
    Prop where
  ended : ((call bound).run host).1.ending ≠ .exhausted
  same : ∀ budget, bound ≤ budget → (call budget).run host = (call bound).run host

section Forward

variable (verified : linked.program.Verified linked.externals.length)
variable (forward : linked.program.Forward)
include verified forward

theorem runBatch_ends (invocation : Invocation) (firstElement lanes : Nat) (host : σ)
    {arguments : List Register} (known : function ∈ linked.program.functions)
    (frame : function.stackNeed ≤ stackCapacity)
    (counted : arguments.length = function.parameterCount) :
    ∃ result later, ∀ budget, linked.program.stepBound ≤ budget →
      (linked.runBatch budget invocation function firstElement lanes arguments).run host =
        (some result, later) := by
  obtain ⟨globals, seeded⟩ := seed_of_verified verified (invocation.inputs.getD [])
  have sound : (Machine.booted function lanes globals arguments).Sound linked.program :=
    Machine.sound_booted known frame globals
  have aligned : (Machine.booted function lanes globals arguments).Aligned := by
    intro activation only
    rcases List.mem_singleton.mp only with rfl
    exact Machine.aligned_start (verified.codes _ known).whole _ _ _ _
  obtain ⟨result, later, ended⟩ := @Machine.runAt_ends σ _
    (linked.batch invocation firstElement) _ verified forward _ host sound aligned
    (Machine.workload_booted known)
  refine ⟨result, later, fun budget enough => ?_⟩
  rw [runBatch_at frame counted, seeded]
  exact Machine.runAt_mono ended enough

theorem run_steady (invocation : Invocation) (arguments returns : List Word) (host : σ) :
    Steady linked.program.stepBound
      (fun budget => linked.run budget invocation arguments returns) host := by
  cases prepared : linked.program.prepare invocation arguments.length
      (some returns.length) with
  | error failure =>
      constructor
      · rw [run_at, prepared]
        simp
      · intro budget enough
        rw [run_at, run_at, prepared]
  | ok function =>
      rcases Program.prepare_eq_ok.mp prepared with ⟨known, accepts⟩
      have counted : (arguments.map fun word => packWords [word]).length =
          function.parameterCount := by
        rw [List.length_map]
        exact accepts.arguments
      obtain ⟨result, later, ends⟩ := runBatch_ends verified forward invocation 0 1 host
        (List.mem_of_getElem? known) accepts.frame counted
      constructor
      · rw [run_at, prepared]
        dsimp only
        rw [ends _ (Nat.le_refl _)]
        rcases result with failure | ⟨machine, returned⟩ <;> simp [conclude]
      · intro budget enough
        rw [run_at, run_at, prepared]
        dsimp only
        rw [ends _ (Nat.le_refl _), ends budget enough]

theorem runChunk_steady (invocation : Invocation)
    (ready : function.Ready linked.program) {count offset : Nat}
    {arguments returns : List Column}
    (spacious : Spacious function count arguments returns) (within : offset < count)
    (host : σ) :
    Steady linked.program.stepBound
      (fun budget => linked.runChunk budget invocation function offset
        (min (count - offset) laneCount) arguments returns) host := by
  have chunk := spacious.chunk within
  have narrow := Nat.min_le_right (count - offset) laneCount
  obtain ⟨result, later, ends⟩ := runBatch_ends verified forward invocation offset
    (min (count - offset) laneCount) host ready.known ready.frame (spacious.counted _ _)
  constructor
  · rw [runChunk_at ready chunk narrow]
    dsimp only
    rw [ends _ (Nat.le_refl _)]
    rcases result with failure | ⟨machine, returned⟩ <;> simp [concludeChunk]
  · intro budget enough
    rw [runChunk_at ready chunk narrow, runChunk_at ready chunk narrow]
    dsimp only
    rw [ends _ (Nat.le_refl _), ends budget enough]

/-- Chunk after chunk, a call for columns ends, and ends alike with any larger budget. -/
theorem runFrom_steady (invocation : Invocation)
    (ready : function.Ready linked.program) {count : Nat} (offset : Nat)
    (arguments returns : List Column) (host : σ)
    (spacious : Spacious function count arguments returns) :
    Steady linked.program.stepBound
      (fun budget => linked.runFrom budget invocation function count offset arguments
        returns) host := by
  suffices both : ((linked.runFrom linked.program.stepBound invocation function count
      offset arguments returns).run host).1.ending ≠ .exhausted ∧
      ∀ budget, linked.program.stepBound ≤ budget →
        (linked.runFrom budget invocation function count offset arguments
          returns).run host =
          (linked.runFrom linked.program.stepBound invocation function count offset
            arguments returns).run host from ⟨both.1, both.2⟩
  revert spacious
  apply @runFrom_induction σ linked linked.program.stepBound invocation function count
    (fun offset arguments returns host reached =>
      Spacious function count arguments returns →
        reached.1.ending ≠ .exhausted ∧
          ∀ budget, linked.program.stepBound ≤ budget →
            (linked.runFrom budget invocation function count offset arguments
              returns).run host = reached)
  · intro offset arguments returns host beyond _
    exact ⟨by simp, fun budget _ => runFrom_of_le beyond⟩
  · intro offset arguments returns host result later within chunk incomplete spacious
    have steady := runChunk_steady verified forward invocation ready spacious within host
    have ended := steady.ended
    rw [chunk] at ended
    refine ⟨ended, fun budget enough => ?_⟩
    exact runFrom_of_stopped within ((steady.same budget enough).trans chunk) incomplete
  · intro offset arguments returns host after given state reached within chunk rest spacious
    have steady := runChunk_steady verified forward invocation ready spacious within host
    have clean := @runChunk_clean σ linked linked.program.stepBound invocation function
      host ready count offset arguments returns spacious within
    rw [chunk] at clean
    have later := rest (spacious.of_lengths clean.arguments clean.returns)
    refine ⟨later.1, fun budget enough => ?_⟩
    rw [runFrom_of_completed within ((steady.same budget enough).trans chunk)]
    exact later.2 budget enough

theorem runStriped_steady (invocation : Invocation) (count : Nat)
    (arguments returns : List Column) (host : σ) :
    Steady linked.program.stepBound
      (fun budget => linked.runStriped budget invocation count arguments returns) host := by
  cases accepted : linked.accept invocation count arguments returns with
  | error failure =>
      constructor
      · rw [runStriped_accept, accepted]
        simp
      · intro budget enough
        rw [runStriped_accept, runStriped_accept, accepted]
  | ok function =>
      have steady := runFrom_steady verified forward invocation (ready_of_accept accepted) 0
        arguments returns host (spacious_of_accept accepted)
      constructor
      · rw [runStriped_accept, accepted]
        exact steady.ended
      · intro budget enough
        rw [runStriped_accept, runStriped_accept, accepted]
        exact steady.same budget enough

end Forward

/--
A call that ends under every host: it completes or fails, and never for a
storage that does not exist.  How it ends does not depend on its budget of
steps, if that is a bound or more.
-/
def Terminates {β : Type} (bound : Nat) (call : Nat → StateM σ (Result β)) : Prop :=
  ∀ host, ∃ result later,
    (result.ending = .completed ∨
      ∃ failure, failure ≠ .trap ∧ result.ending = .failed failure) ∧
    ∀ budget, bound ≤ budget → (call budget).run host = (result, later)

theorem terminates_of_steady {β : Type} {bound : Nat} {call : Nat → StateM σ (Result β)}
    (steady : ∀ host, Steady bound call host)
    (clean : ∀ host, ((call bound).run host).1.ending ≠ .failed .trap) :
    Terminates bound call := by
  intro host
  refine ⟨((call bound).run host).1, ((call bound).run host).2, ?_, (steady host).same⟩
  cases ending : ((call bound).run host).1.ending with
  | completed =>
      exact Or.inl rfl
  | failed failure =>
      refine Or.inr ⟨failure, ?_, rfl⟩
      rintro rfl
      exact clean host ending
  | exhausted =>
      exact absurd ending (steady host).ended

/--
A verified program all of whose branches lead forward terminates: every call of
every function, for one element or for columns, with buffers of any shape and
whatever the host answers, however its functions call each other.
-/
theorem forward_programs_terminate (linked : Linked σ) (verified : linked.verify = .ok ())
    (forward : linked.program.Forward) :
    (∀ invocation arguments returns,
      Terminates linked.program.stepBound
        fun budget => linked.run budget invocation arguments returns) ∧
      ∀ invocation count arguments returns,
        Terminates linked.program.stepBound
          fun budget => linked.runStriped budget invocation count arguments returns := by
  have passed := Program.verify_eq_ok.mp verified
  constructor
  · intro invocation arguments returns
    exact terminates_of_steady (run_steady passed forward invocation arguments returns)
      fun host => (run_clean linked _ invocation arguments returns host).ending
  · intro invocation count arguments returns
    exact terminates_of_steady
      (runStriped_steady passed forward invocation count arguments returns)
      fun host => (runStriped_clean linked _ invocation count arguments returns host).ending

/-- Two functions that call each other for as long as a lane is live. -/
def rally : Program where
  functions :=
    [{ name := "serve", parameterCount := 0, code :=
        (Instruction.branchIfAllFalse 5).encode ++ (Instruction.call 1).encode ++
          (Instruction.ret 0).encode },
      { name := "answer", parameterCount := 0, code :=
        (Instruction.call 0).encode ++ (Instruction.ret 0).encode }]

/-- A rally ends, though nothing in its code ends it. -/
theorem forward_programs_terminate_rally :
    Linked.verify (⟨rally, []⟩ : Linked Unit) = .ok () ∧ rally.Forward ∧
      ∀ handle count columns, Terminates rally.stepBound fun budget =>
        Linked.runStriped (⟨rally, []⟩ : Linked Unit) budget ⟨handle, [], none⟩ count
          columns [] := by
  have verified : Linked.verify (⟨rally, []⟩ : Linked Unit) = .ok () := by
    rfl
  have forward : rally.Forward := by
    decide
  exact ⟨verified, forward, fun handle count columns =>
    (forward_programs_terminate (⟨rally, []⟩ : Linked Unit) verified forward).2
      ⟨handle, [], none⟩ count columns []⟩

end Linked

end Lockstep
