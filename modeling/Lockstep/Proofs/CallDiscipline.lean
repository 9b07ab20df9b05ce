import Lockstep.Proofs.Verification
import Mathlib.Data.List.Chain

/-!
# Calls and returns

A function that was called works above its base: whatever it does, and however
many functions it calls in turn, the registers below its base and the waiting
activations are as they were at the call.  When it returns, its caller goes on
behind the call with the stack as high as before; what has changed below is
what the caller has reserved for the results.

`Serving` is the invariant of the machines between a call and its return, and
`Serving.step` says that a step keeps it unless it is the return.  A call that
no lane takes is passed over, and leaves the caller at the same place.
-/

namespace Lockstep

variable {σ : Type}

/-- An activation above another one has its frame at or above the other's base. -/
theorem base_le_of_isChain {inner rest tail : List Activation} {frame head : Activation}
    (nested : (head :: tail).IsChain fun above below => below.floor ≤ above.base)
    (placed : ∀ activation ∈ head :: tail, activation.base ≤ activation.floor)
    (same : head :: tail = inner ++ frame :: rest) : frame.base ≤ head.base := by
  induction inner generalizing head tail with
  | nil =>
      rw [(List.cons.inj same).1]
  | cons first others induction =>
      obtain ⟨rfl, following⟩ := List.cons.inj same
      cases tail with
      | nil =>
          exact absurd (congrArg List.length following) (by simp)
      | cons second older =>
          obtain ⟨above, chain⟩ := List.isChain_cons_cons.mp nested
          have placedOlder := fun activation (member : activation ∈ second :: older) =>
            placed activation (List.mem_cons_of_mem head member)
          calc frame.base
              ≤ second.base := induction chain placedOlder following
            _ ≤ second.floor := placedOlder second List.mem_cons_self
            _ ≤ head.base := above

namespace Machine

variable {program : Program} {batch : Batch σ} {past machine after : Machine}
variable {callee : Function}

theorem Sound.base_le_floor (sound : machine.Sound program) {activation : Activation}
    (member : activation ∈ machine.activations) : activation.base ≤ activation.floor := by
  have frame := (sound.activations activation member).frame
  omega

theorem Sound.base_le (sound : machine.Sound program) {inner rest : List Activation}
    {frame : Activation} (nested : machine.activations = inner ++ frame :: rest) :
    frame.base ≤ machine.current.base :=
  base_le_of_isChain sound.nested (fun _ => sound.base_le_floor) nested

/--
A machine between a call and its return.  `past` is the machine of the caller,
already past the call.
-/
structure Serving (program : Program) (past : Machine) (callee : Function)
    (machine : Machine) : Prop where
  sound : machine.Sound program
  /-- The activation of the function called stands on those of the caller. -/
  frames : ∃ inner frame, machine.activations = inner ++ frame :: past.activations ∧
    frame.function = callee ∧ frame.base = past.top - callee.parameterCount
  /-- Nothing has changed below its base. -/
  cells : ∀ position, position < past.top - callee.parameterCount →
    machine.cell .local position = past.cell .local position

namespace Serving

/-- The frame of the running function is at or above the base. -/
theorem base_le (serving : Serving program past callee machine) :
    past.top - callee.parameterCount ≤ machine.current.base ∧
      machine.current.base ≤ machine.current.floor := by
  obtain ⟨inner, frame, nested, _, base⟩ := serving.frames
  rw [← base]
  exact ⟨serving.sound.base_le nested, serving.sound.base_le_floor List.mem_cons_self⟩

/-- The waiting activations of the caller are kept, and the caller waits. -/
theorem waiting (serving : Serving program past callee machine) :
    ∃ deeper, machine.callers = deeper ++ past.current :: past.callers := by
  obtain ⟨inner, frame, nested, _, _⟩ := serving.frames
  cases inner with
  | nil =>
      exact ⟨[], (List.cons.inj nested).2⟩
  | cons head tail =>
      refine ⟨tail ++ [frame], ?_⟩
      rw [List.append_assoc]
      exact (List.cons.inj nested).2

theorem depth_lt (serving : Serving program past callee machine) :
    past.callers.length < machine.callers.length := by
  obtain ⟨deeper, waiting⟩ := serving.waiting
  rw [waiting, List.length_append, List.length_cons]
  omega

/-- The call itself. -/
theorem start {position : Nat} (sound : past.Sound program)
    (calls : past.Calls program position callee) :
    Serving program past callee (past.called callee) where
  sound := sound.called calls
  frames := ⟨[], _, rfl, rfl, rfl⟩
  cells := by
    intro position below
    have present := calls.present
    exact cell_called (by omega) calls.room fun _ => by omega

theorem jumped (serving : Serving program past callee machine) {target : Nat}
    (inside : target ≤ machine.current.function.code.length) :
    Serving program past callee (machine.jumped target) where
  sound := serving.sound.jumped inside
  frames := by
    obtain ⟨inner, frame, nested, function, base⟩ := serving.frames
    cases inner with
    | nil =>
        obtain ⟨rfl, callers⟩ := List.cons.inj nested
        exact ⟨[], { machine.current with offset := target },
          congrArg _ callers, function, base⟩
    | cons head tail =>
        exact ⟨{ machine.current with offset := target } :: tail, frame,
          congrArg _ (List.cons.inj nested).2, function, base⟩
  cells := serving.cells

/-- An operation reaches below the base of the running function only for globals. -/
theorem operated (serving : Serving program past callee machine)
    {instruction : Instruction} (operated : machine.Operated instruction after) :
    Serving program past callee after where
  sound := serving.sound.operated operated
  frames := by
    have same : after.activations = machine.activations := by
      unfold Machine.activations
      rw [show after.current = machine.current from operated.stack.current,
        show after.callers = machine.callers from operated.stack.callers]
    rw [same]
    exact serving.frames
  cells := by
    intro position below
    have base := serving.base_le
    have present := operated.stack.present
    rw [← serving.cells position below]
    apply Lanes.ext_get
    intro lane
    refine operated.stack.cells .local position lane (fun _ => by omega) fun touched => ?_
    have above := ((operated.stack.confined .local position lane touched).2 rfl).1
    omega

theorem called (serving : Serving program past callee machine) {position : Nat}
    {other : Function} (calls : machine.Calls program position other) :
    Serving program past callee (machine.called other) where
  sound := serving.sound.called calls
  frames := by
    obtain ⟨inner, frame, nested, function, base⟩ := serving.frames
    exact ⟨(machine.called other).current :: inner, frame, congrArg _ nested, function,
      base⟩
  cells := by
    intro position below
    have base := serving.base_le
    have present := calls.present
    rw [← serving.cells position below]
    exact cell_called (by omega) calls.room fun _ => by omega

/-- A return of a function that was called later. -/
theorem resumed (serving : Serving program past callee machine) {caller : Activation}
    {earlier : List Activation} {returned : List Register}
    (waiting : machine.callers = caller :: earlier)
    (reserved : caller.floor + returned.length ≤ machine.current.base)
    (deeper : past.callers.length < earlier.length) :
    Serving program past callee (machine.resumed caller earlier returned) := by
  have sound : (machine.resumed caller earlier returned).Sound program :=
    serving.sound.resumed waiting
  obtain ⟨inner, frame, nested, function, base⟩ := serving.frames
  cases inner with
  | nil =>
      have callers : machine.callers = past.activations := (List.cons.inj nested).2
      rw [waiting] at callers
      have same := congrArg List.length (List.cons.inj callers).2
      omega
  | cons head tail =>
      have resumedNested : (machine.resumed caller earlier returned).activations =
          tail ++ frame :: past.activations := by
        change caller :: earlier = _
        rw [← waiting]
        exact (List.cons.inj nested).2
      refine ⟨sound, ⟨tail, frame, resumedNested, function, base⟩, ?_⟩
      intro position below
      -- The caller works above the base too, and so do the results that it gets.
      have above : frame.base ≤ caller.base := sound.base_le resumedNested
      have placed : caller.base ≤ caller.floor := sound.base_le_floor List.mem_cons_self
      have floor := serving.sound.floor
      have capacity := serving.sound.capacity
      have size := serving.base_le.2
      rw [← serving.cells position below]
      exact cell_resumed (by omega) (by omega) fun _ => by omega

/-- A step keeps to the discipline, unless it returns to the caller. -/
theorem step (serving : Serving program past callee machine) {instruction : Instruction}
    (advances : machine.Advances program instruction (.next after))
    (deeper : past.callers.length < after.callers.length) :
    Serving program past callee after := by
  obtain ⟨decoded, effect⟩ := advances
  have inside := (serving.sound.advanced decoded).running.offset
  have moved : Serving program past callee (machine.advanced instruction) :=
    serving.jumped inside
  cases effect with
  | operated operated =>
      exact moved.operated operated
  | jumped leads inside =>
      exact moved.jumped inside
  | called calls =>
      exact moved.called calls
  | returned hands =>
      cases hands with
      | resumed returns waiting reserved =>
          refine moved.resumed waiting ?_ deeper
          rw [returns.returned, length_topmost]
          exact reserved

end Serving

/-! ## Returning -/

/--
A caller has gone on behind its call: everything is as before the call, but for
the results below the arguments and the arguments themselves.
-/
structure Concluded (past : Machine) (callee : Function) (last after : Machine) :
    Prop where
  /-- The last instruction is a return of the function called. -/
  returned : ∃ count, last.upcoming = .ok (.ret count) ∧ count.toNat = callee.returnCount
  frame : last.current.function = callee ∧
    last.current.base = past.top - callee.parameterCount
  current : after.current = past.current
  callers : after.callers = past.callers
  top : after.top = past.top
  /-- What was below the results is unchanged. -/
  below : ∀ position,
    position < past.top - callee.parameterCount - callee.returnCount →
      after.cell .local position = past.cell .local position
  /-- The results are the topmost operands of the function, in order. -/
  results : ∀ step, step < callee.returnCount →
    after.cell .local
        (past.top - callee.parameterCount - callee.returnCount + step) =
      last.cell .local (last.top - callee.returnCount + step)
  /-- The arguments are as the function has left them. -/
  arguments : ∀ step, step < callee.parameterCount →
    after.cell .local (past.top - callee.parameterCount + step) =
      last.cell .local (past.top - callee.parameterCount + step)

/-- The registers right below the base hold what was returned. -/
theorem cell_resumed_result {caller : Activation} {earlier : List Activation}
    {returned : List Register} (reserved : returned.length ≤ machine.current.base)
    (inside : machine.current.base ≤ stackCapacity) {step : Nat}
    (inRange : step < returned.length) :
    (machine.resumed caller earlier returned).cell .local
      (machine.current.base - returned.length + step) = returned[step] :=
  RegisterFile.register_overwrite_add _ (by omega) inRange

/-- The registers from the base on are left as they are. -/
theorem cell_resumed_above {caller : Activation} {earlier : List Activation}
    {returned : List Register} (reserved : returned.length ≤ machine.current.base)
    (inside : machine.current.base ≤ stackCapacity) {position : Nat}
    (above : machine.current.base ≤ position) :
    (machine.resumed caller earlier returned).cell .local position =
      machine.cell .local position := by
  refine (RegisterFile.register_overwrite _ _ _ (by omega) position).trans (if_neg ?_)
  omega

/-- The return of the function called itself. -/
theorem Serving.resumes (serving : Serving program past callee machine)
    (function : machine.current.function = callee)
    (base : machine.current.base = past.top - callee.parameterCount)
    (present : callee.parameterCount ≤ past.top) {count : UInt8}
    (decoded : machine.upcoming = .ok (.ret count)) {returned : List Register}
    (returns : (machine.advanced (.ret count)).Returns count.toNat returned)
    (reserved : past.current.floor + count.toNat ≤ machine.current.base) :
    Concluded past callee machine
      ((machine.advanced (.ret count)).resumed past.current past.callers returned) := by
  have declared : count.toNat = callee.returnCount := function ▸ returns.declared
  have counted : returned.length = callee.returnCount := by
    rw [returns.returned, length_topmost, declared]
  have capacity := serving.sound.capacity
  have floor := serving.sound.floor
  have size := serving.base_le.2
  have inside : (machine.advanced (.ret count)).current.base ≤ stackCapacity :=
    Nat.le_trans (Nat.le_trans size floor) capacity
  have handed : returned.length ≤ (machine.advanced (.ret count)).current.base := by
    change returned.length ≤ machine.current.base
    omega
  constructor
  · exact ⟨count, decoded, declared⟩
  · exact ⟨function, base⟩
  · rfl
  · rfl
  · change machine.current.base + machine.current.argumentCount = past.top
    rw [serving.sound.running.counted, function]
    omega
  · intro position below
    rw [← serving.cells position (by omega)]
    refine cell_resumed handed inside fun _ => ?_
    change position < machine.current.base - returned.length
    omega
  · intro step inRange
    have written : returned[step] =
        machine.cell .local (machine.top - callee.returnCount + step) := by
      simp only [returns.returned, getElem_topmost, declared]
      rfl
    rw [← written, ← base, ← counted]
    exact cell_resumed_result handed inside (by omega)
  · intro step inRange
    refine cell_resumed_above handed inside ?_
    change machine.current.base ≤ _
    omega

/-- A step that leaves the function called is its return. -/
theorem Serving.concludes (serving : Serving program past callee machine)
    (present : callee.parameterCount ≤ past.top) {instruction : Instruction}
    (advances : machine.Advances program instruction (.next after))
    (shallow : after.callers.length ≤ past.callers.length) :
    Concluded past callee machine after := by
  have depth := serving.depth_lt
  obtain ⟨inner, frame, nested, function, base⟩ := serving.frames
  obtain ⟨decoded, effect⟩ := advances
  cases effect with
  | operated operated =>
      have same : after.callers = machine.callers := operated.stack.callers
      rw [same] at shallow
      omega
  | jumped leads inside =>
      change machine.callers.length ≤ _ at shallow
      omega
  | called calls =>
      change machine.callers.length + 1 ≤ _ at shallow
      omega
  | returned hands =>
      cases hands with
      | @resumed results caller earlier returns waiting reserved =>
          change machine.callers = caller :: earlier at waiting
          change earlier.length ≤ _ at shallow
          cases inner with
          | cons head tail =>
              have callers : machine.callers = tail ++ frame :: past.activations :=
                (List.cons.inj nested).2
              have counted := congrArg List.length (waiting.symm.trans callers)
              simp only [List.length_cons, List.length_append, activations] at counted
              omega
          | nil =>
              obtain ⟨current, callers⟩ := List.cons.inj nested
              obtain ⟨rfl, rfl⟩ := List.cons.inj (waiting.symm.trans callers)
              rw [← current] at function base
              exact serving.resumes function base present decoded returns reserved

/-! ## Calls -/

/-- A step at a call is the call. -/
theorem Steps.call {position : UInt8} (steps : Steps batch machine after)
    (decoded : machine.upcoming = .ok (.call position)) :
    (machine.advanced (.call position)).call batch.program.functions position.toNat =
      .ok after := by
  obtain ⟨host, later, stepped⟩ := steps
  rw [stepAt_eq, fetch_of_decoded decoded] at stepped
  change ((go ((machine.advanced (.call position)).call batch.program.functions
    position.toNat) : Session σ Flow).at host) = _ at stepped
  unfold go at stepped
  rw [Session.at_ofExcept] at stepped
  generalize (machine.advanced (.call position)).call batch.program.functions
    position.toNat = outcome at stepped ⊢
  cases outcome with
  | error failure =>
      exact absurd (congrArg Prod.fst stepped) (by rintro ⟨⟩)
  | ok reached =>
      cases stepped
      rfl

/-- A call with a live lane opens the frame of a function of the program. -/
theorem Steps.calls {position : UInt8} (steps : Steps batch machine after)
    (decoded : machine.upcoming = .ok (.call position)) (live : machine.live.any = true) :
    ∃ callee, (machine.advanced (.call position)).Calls batch.program position.toNat
        callee ∧
      after = (machine.advanced (.call position)).called callee := by
  have called := steps.call decoded
  have taken : (machine.advanced (.call position)).live.any = true := live
  unfold Machine.call at called
  rw [if_pos taken] at called
  exact (invoke_yields taken position).of_ok called

/-- A call without a live lane is passed over. -/
theorem Steps.passes {position : UInt8} (steps : Steps batch machine after)
    (decoded : machine.upcoming = .ok (.call position)) (idle : machine.live.any = false) :
    after = machine.advanced (.call position) := by
  have called := steps.call decoded
  unfold Machine.call at called
  rw [show (machine.advanced (.call position)).live.any = false from idle] at called
  exact (Except.ok.inj called).symm

/-- Steps that all end with more than a number of waiting callers. -/
def Deeper (batch : Batch σ) (depth : Nat) : Machine → Machine → Prop :=
  Relation.ReflTransGen fun before after =>
    Steps batch before after ∧ depth < after.callers.length

/-- The discipline is kept along every run of the function called. -/
theorem Serving.run (serving : Serving batch.program past callee machine)
    (deeper : Deeper batch past.callers.length machine after) :
    Serving batch.program past callee after := by
  induction deeper with
  | refl =>
      exact serving
  | tail _ next induction =>
      obtain ⟨instruction, advances⟩ := next.1.advances induction.sound
      exact induction.step advances next.2

/-- What a call does to a machine, whether it is passed over or carried out. -/
structure Disciplined (batch : Batch σ) (machine : Machine) (position : UInt8)
    (past : Machine) : Prop where
  /-- A call that no lane takes goes on behind it. -/
  skipped : machine.live.any = false → ∀ after, Steps batch machine after → after = past
  /-- A call that a lane takes opens a frame on its arguments. -/
  taken : machine.live.any = true → ∀ entered, Steps batch machine entered →
    ∃ callee, batch.program.functions[position.toNat]? = some callee ∧
      past.current.floor + callee.parameterCount ≤ past.top ∧
      entered = past.called callee ∧
      ∀ inner, Deeper batch machine.callers.length entered inner →
        -- While the function works, what is below its arguments is left alone,
        (∃ deeper, inner.callers = deeper ++ past.current :: machine.callers) ∧
          (∀ position, position < past.top - callee.parameterCount →
            inner.cell .local position = machine.cell .local position) ∧
          -- and when it has returned, the caller goes on where it was.
          ∀ after, Steps batch inner after →
            after.callers.length ≤ machine.callers.length →
              Concluded past callee inner after

theorem Sound.disciplined (sound : machine.Sound batch.program) {position : UInt8}
    (decoded : machine.upcoming = .ok (.call position)) :
    Disciplined batch machine position (machine.advanced (.call position)) := by
  refine ⟨fun idle _ steps => steps.passes decoded idle, ?_⟩
  intro live entered steps
  obtain ⟨callee, calls, rfl⟩ := steps.calls decoded live
  refine ⟨callee, calls.known, calls.present, rfl, ?_⟩
  intro inner deeper
  have serving := (Serving.start (sound.advanced decoded) calls).run deeper
  refine ⟨serving.waiting, serving.cells, ?_⟩
  intro after next shallow
  obtain ⟨instruction, advances⟩ := next.advances serving.sound
  have present := calls.present
  exact serving.concludes (by omega) advances shallow

end Machine

namespace Linked

/--
Calls and returns keep to a discipline in every machine that occurs: a function
that was called leaves alone what is below its arguments and the activations
that wait, and its return puts the caller behind the call with the stack as
before, but for the results below the arguments and for the arguments.  A call
that is passed over puts the caller at the same place.
-/
theorem calls_are_disciplined (linked : Linked σ) (invocation : Invocation)
    (function : Function) (firstElement lanes : Nat) (machine : Machine)
    (occurs : linked.Occurs invocation function firstElement lanes machine)
    (position : UInt8) (decoded : machine.upcoming = .ok (.call position)) :
    Machine.Disciplined (linked.batch invocation firstElement) machine position
      (machine.advanced (.call position)) :=
  occurs.serves.sound.disciplined decoded

/-- A program in which `relay` calls `echo`. -/
def relaying : Linked Unit :=
  ⟨{ functions := [echo, relay] }, []⟩

/-- In a run of `relay`, `echo` is called and returns to where it was called. -/
theorem calls_are_disciplined_relay :
    ∃ machine entered inner after,
      relaying.Occurs ⟨1, [], none⟩ relay 0 1 machine ∧
        machine.upcoming = .ok (.call 0) ∧ machine.live.any = true ∧
        Machine.Steps (relaying.batch ⟨1, [], none⟩ 0) machine entered ∧
        Machine.Deeper (relaying.batch ⟨1, [], none⟩ 0) 0 entered inner ∧
        Machine.Steps (relaying.batch ⟨1, [], none⟩ 0) inner after ∧
        Machine.Concluded (machine.advanced (.call 0)) echo inner after := by
  -- Three instructions of `relay` come before the call, one of `echo` before its return.
  obtain ⟨first, second, machine, entered, inner, after, reserves, loads, passes, enters,
      loadsAgain, returns, decoded, live, shallow⟩ :
      ∃ first second machine entered inner after,
        Machine.Steps (relaying.batch ⟨1, [], none⟩ 0)
            (Machine.booted relay 1 (.blank globalCapacity) [packWords [7]]) first ∧
          Machine.Steps (relaying.batch ⟨1, [], none⟩ 0) first second ∧
          Machine.Steps (relaying.batch ⟨1, [], none⟩ 0) second machine ∧
          Machine.Steps (relaying.batch ⟨1, [], none⟩ 0) machine entered ∧
          (Machine.Steps (relaying.batch ⟨1, [], none⟩ 0) entered inner ∧
            machine.callers.length < inner.callers.length) ∧
          Machine.Steps (relaying.batch ⟨1, [], none⟩ 0) inner after ∧
          machine.upcoming = .ok (.call 0) ∧ machine.live.any = true ∧
          machine.callers.length = 0 ∧ after.callers.length = 0 :=
    ⟨_, _, _, _, _, _, ⟨(), (), rfl⟩, ⟨(), (), rfl⟩, ⟨(), (), rfl⟩, ⟨(), (), rfl⟩,
      ⟨⟨(), (), rfl⟩, Nat.zero_lt_one⟩, ⟨(), (), rfl⟩, rfl, rfl, rfl, rfl⟩
  have occurs : relaying.Occurs ⟨1, [], none⟩ relay 0 1 machine :=
    occurs_iff.mpr ⟨some 1, [packWords [7]], .blank globalCapacity, by decide, rfl,
      ((Relation.ReflTransGen.single reserves).tail loads).tail passes⟩
  obtain ⟨callee, known, _, _, discipline⟩ :=
    (calls_are_disciplined relaying ⟨1, [], none⟩ relay 0 1 machine occurs 0
      decoded).taken live entered enters
  obtain rfl : callee = echo := (Option.some.inj known).symm
  have concluded := (discipline inner (Relation.ReflTransGen.single loadsAgain)).2.2 after
    returns (by omega)
  rw [shallow.1] at loadsAgain
  exact ⟨machine, entered, inner, after, occurs, decoded, live, enters,
    Relation.ReflTransGen.single loadsAgain, returns, concluded⟩

end Linked

end Lockstep
