import Lockstep.Proofs.DomesticFailures
import Lockstep.Proofs.Journal

/-!
# Which requests a step makes

The requests that are due at a step can be read off the machine: if the next
instruction asks the host, one request for every live lane, in ascending order,
on behalf of the element in that lane, with the operands that the lane has on
the stack.  This is `Machine.due`.

A step makes all requests that are due and has them answered; or it makes them
up to one that is refused, and fails by naming that one; or it fails for a
reason of its own and makes none.  `Machine.stepAt_consults` says that there is
no other way.  The last case is the reason why operands and room are checked
before the first request: what the host has done cannot be undone.
-/

namespace Lockstep

variable {σ α β : Type}

/-! ## Requests and answers -/

namespace JournalEntry

/-- The words by which a refusal names its request. -/
def title (entry : JournalEntry) : String :=
  s!"external {entry.external} {entry.kind.name} for element {entry.element}"

/-- Make a request, looking only at whether it is answered. -/
def put (entry : JournalEntry) (external : External σ) : HostAction σ Unit :=
  match entry.kind with
  | .read => do
      let _ ← external.read entry.element entry.width
  | .write => do
      let _ ← external.write entry.element entry.input
  | .call => do
      let _ ← external.call entry.element entry.input entry.width

/-- What making a request of the attached externals comes to. -/
def Meets (externals : List (External σ)) (entry : JournalEntry) (host : σ)
    (outcome : Except HostError Unit) (later : σ) : Prop :=
  ∃ external, externals[entry.external]? = some external ∧
    (entry.put external).run.run host = (outcome, later)

end JournalEntry

/-- An action whose answer is not looked at. -/
theorem HostAction.run_discard (action : HostAction σ α) (host : σ) :
    (do let _ ← action : HostAction σ Unit).run.run host =
      ((action.run.run host).1.map fun _ => (), (action.run.run host).2) := by
  rw [ExceptT.run_bind, StateT.run_bind]
  rcases action.run.run host with ⟨_ | _, later⟩ <;> rfl

/-- Requests that are made one after the other and are all answered. -/
inductive Answers (externals : List (External σ)) : σ → List JournalEntry → σ → Prop
  | nil (host : σ) : Answers externals host [] host
  | cons {host middle later : σ} {entry : JournalEntry} {entries : List JournalEntry}
      (first : entry.Meets externals host (.ok ()) middle)
      (rest : Answers externals middle entries later) :
      Answers externals host (entry :: entries) later

theorem Answers.append {externals : List (External σ)} {host middle later : σ}
    {first second : List JournalEntry} (early : Answers externals host first middle)
    (late : Answers externals middle second later) :
    Answers externals host (first ++ second) later := by
  induction early with
  | nil =>
      exact late
  | cons met _ induction =>
      exact .cons met (induction late)

/--
The requests that were due have been made and answered, or made up to one that
was refused, which is then named in the failure.
-/
inductive Exchange (externals : List (External σ)) (due : List JournalEntry) (host : σ) :
    List JournalEntry → Except Failure α × σ → Prop
  | answered {value : α} {later : σ} (answers : Answers externals host due later) :
      Exchange externals due host due (.ok value, later)
  | refused {earlier rest : List JournalEntry} {last : JournalEntry} {middle later : σ}
      {error : HostError} (order : due = earlier ++ last :: rest)
      (answers : Answers externals host earlier middle)
      (refuses : last.Meets externals middle (.error error) later) :
      Exchange externals due host (earlier ++ [last])
        (.error (.external (.context last.title error)), later)

/-- An exchange with the host, or a failure that comes before any request. -/
inductive Consulted (externals : List (External σ)) (due : List JournalEntry) (host : σ) :
    List JournalEntry → Except Failure α × σ → Prop
  | exchanged {made : List JournalEntry} {reached : Except Failure α × σ}
      (exchange : Exchange externals due host made reached) :
      Consulted externals due host made reached
  | failed {failure : Failure} (domestic : failure.domestic = true) :
      Consulted externals due host [] (.error failure, host)

namespace Consulted

variable {externals : List (External σ)} {due made : List JournalEntry} {host later : σ}

/-- A result that does not involve the host, when nothing is due. -/
theorem of_domestic {result : Except Failure α} (domestic : Domestic result) :
    Consulted externals [] host [] (result, host) := by
  cases result with
  | ok value => exact .exchanged (.answered (.nil host))
  | error failure => exact .failed domestic

/-- What succeeds has made all requests that were due. -/
theorem of_ok {value : α}
    (consulted : Consulted externals due host made (.ok value, later)) :
    made = due ∧ Answers externals host due later := by
  cases consulted with
  | exchanged exchange =>
      cases exchange with
      | answered answers => exact ⟨rfl, answers⟩

/-- No request is made that was not due. -/
theorem mem_due {reached : Except Failure α × σ} {entry : JournalEntry}
    (consulted : Consulted externals due host made reached) (member : entry ∈ made) :
    entry ∈ due := by
  cases consulted with
  | exchanged exchange =>
      cases exchange with
      | answered _ =>
          exact member
      | @refused earlier rest last _ _ _ order _ _ =>
          rw [order, List.append_cons]
          exact List.mem_append_left rest member
  | failed _ =>
      cases member

end Consulted

/-! ## Sessions that exchange requests -/

section Sessions

variable {externals : List (External σ)} {due : List JournalEntry}

/-- A session whose record is an exchange of the requests that are due. -/
def Session.Exchanges (externals : List (External σ)) (due : List JournalEntry)
    (recorded : Session (σ × List JournalEntry) α) (session : Session σ α) : Prop :=
  ∀ host, ∃ made,
    (∀ journal, recorded.at (host, journal) =
      ((session.at host).1, (session.at host).2, journal ++ made)) ∧
    Exchange externals due host made (session.at host)

/-- A session that may fail before it exchanges the requests that are due. -/
def Session.Consults (externals : List (External σ)) (due : List JournalEntry)
    (recorded : Session (σ × List JournalEntry) α) (session : Session σ α) : Prop :=
  ∀ host, ∃ made,
    (∀ journal, recorded.at (host, journal) =
      ((session.at host).1, (session.at host).2, journal ++ made)) ∧
    Consulted externals due host made (session.at host)

namespace Session.Exchanges

theorem pure (value : α) :
    Session.Exchanges externals [] (Pure.pure value) (Pure.pure value : Session σ α) := by
  intro host
  refine ⟨[], fun journal => ?_, .answered (.nil host)⟩
  rw [List.append_nil]
  rfl

/-- Two exchanges, of which the second is reached if the first is answered. -/
theorem bind {later : List JournalEntry} {first : Session σ α}
    {recordedFirst : Session (σ × List JournalEntry) α} {next : α → Session σ β}
    {recordedNext : α → Session (σ × List JournalEntry) β}
    (begun : Session.Exchanges externals due recordedFirst first)
    (continued : ∀ value,
      Session.Exchanges externals later (recordedNext value) (next value)) :
    Session.Exchanges externals (due ++ later) (recordedFirst >>= recordedNext)
      (first >>= next) := by
  intro host
  obtain ⟨made, start, exchange⟩ := begun host
  simp only [Session.at_bind, start]
  generalize first.at host = reached at exchange
  cases exchange with
  | @answered value state answers =>
      obtain ⟨others, rest, exchange⟩ := continued value state
      refine ⟨due ++ others, fun journal => ?_, ?_⟩
      · rw [← List.append_assoc]
        exact rest (journal ++ due)
      · dsimp only
        generalize (next value).at state = reached at exchange
        cases exchange with
        | answered further =>
            exact .answered (answers.append further)
        | refused order further refuses =>
            rw [order, ← List.append_assoc, ← List.append_assoc]
            exact .refused rfl (answers.append further) refuses
  | @refused earlier rest last _ _ _ order answers refuses =>
      have further : due ++ later = earlier ++ last :: (rest ++ later) := by
        rw [order, List.append_assoc, List.cons_append]
      exact ⟨_, fun _ => rfl, .refused further answers refuses⟩

/-- What follows an exchange and can neither fail nor ask. -/
theorem andThen {session : Session σ α} {recorded : Session (σ × List JournalEntry) α}
    {next : α → Except Failure β}
    (asks : Session.Exchanges externals due recorded session)
    (total : ∀ value, ∃ result, next value = .ok result) :
    Session.Exchanges externals due (recorded >>= fun value => Session.ofExcept (next value))
      (session >>= fun value => Session.ofExcept (next value)) := by
  rw [← List.append_nil due]
  refine asks.bind fun value => ?_
  obtain ⟨result, same⟩ := total value
  rw [same]
  exact pure result

/-- A request is an exchange of its own. -/
theorem ask {entry : JournalEntry} {external : External σ} {action : HostAction σ α}
    (attached : externals[entry.external]? = some external)
    (made : ∀ host, (entry.put external).run.run host =
      ((action.run.run host).1.map fun _ => (), (action.run.run host).2)) :
    Session.Exchanges externals [entry]
      (Session.ask entry.kind entry.external entry.element
        (HostAction.recorded entry action))
      (Session.ask entry.kind entry.external entry.element action) := by
  intro host
  refine ⟨[entry], fun journal => ?_, ?_⟩
  · rw [Session.at_ask, Session.at_ask]
    rfl
  · have outcome := made host
    rw [Session.at_ask]
    generalize action.run.run host = answer at outcome
    rcases answer with ⟨error | value, later⟩
    · exact .refused (List.nil_append _).symm (.nil host) ⟨external, attached, outcome⟩
    · exact .answered (.cons ⟨external, attached, outcome⟩ (.nil later))

theorem mapM {entries : List α} {entry : α → JournalEntry} {step : α → Session σ β}
    {recordedStep : α → Session (σ × List JournalEntry) β}
    (each : ∀ lane, Session.Exchanges externals [entry lane] (recordedStep lane)
      (step lane)) :
    Session.Exchanges externals (entries.map entry) (entries.mapM recordedStep)
      (entries.mapM step) := by
  induction entries with
  | nil =>
      exact pure []
  | cons head tail induction =>
      rw [List.mapM_cons, List.mapM_cons]
      exact (each head).bind fun first =>
        induction.andThen fun rest => ⟨first :: rest, rfl⟩

theorem forM {entries : List α} {entry : α → JournalEntry} {step : α → Session σ Unit}
    {recordedStep : α → Session (σ × List JournalEntry) Unit}
    (each : ∀ lane, Session.Exchanges externals [entry lane] (recordedStep lane)
      (step lane)) :
    Session.Exchanges externals (entries.map entry) (entries.forM recordedStep)
      (entries.forM step) := by
  induction entries with
  | nil =>
      exact pure ()
  | cons head tail induction =>
      exact (each head).bind fun _ => induction

end Session.Exchanges

namespace Session.Consults

theorem of_exchanges {session : Session σ α}
    {recorded : Session (σ × List JournalEntry) α}
    (exchanges : Session.Exchanges externals due recorded session) :
    Session.Consults externals due recorded session := by
  intro host
  obtain ⟨made, same, exchange⟩ := exchanges host
  exact ⟨made, same, .exchanged exchange⟩

/-- A check that comes first. -/
theorem check {result : Except Failure α} {next : α → Session σ β}
    {recordedNext : α → Session (σ × List JournalEntry) β} (domestic : Domestic result)
    (continued : ∀ value, result = .ok value →
      Session.Consults externals due (recordedNext value) (next value)) :
    Session.Consults externals due (Session.ofExcept result >>= recordedNext)
      (Session.ofExcept result >>= next) := by
  cases result with
  | ok value =>
      exact continued value rfl
  | error failure =>
      intro host
      refine ⟨[], fun journal => ?_, .failed domestic⟩
      rw [List.append_nil]
      rfl

/-- What follows and can neither fail nor ask. -/
theorem map {session : Session σ α} {recorded : Session (σ × List JournalEntry) α}
    {change : α → β} (consults : Session.Consults externals due recorded session) :
    Session.Consults externals due (recorded >>= fun value => Pure.pure (change value))
      (session >>= fun value => Pure.pure (change value)) := by
  intro host
  obtain ⟨made, start, consulted⟩ := consults host
  simp only [Session.at_bind, start]
  refine ⟨made, fun journal => ?_, ?_⟩
  · rcases session.at host with ⟨_ | _, _⟩ <;> rfl
  · generalize session.at host = reached at consulted
    cases consulted with
    | exchanged exchange =>
        cases exchange with
        | answered answers => exact .exchanged (.answered answers)
        | refused order answers refuses =>
            exact .exchanged (.refused order answers refuses)
    | failed domestic => exact .failed domestic

/-- An external that is attached, with or without a journal. -/
theorem withExternal {batch : Batch σ} {position : Nat} {next : External σ → Session σ α}
    {recordedNext : External (σ × List JournalEntry) →
      Session (σ × List JournalEntry) α}
    (continued : ∀ external, batch.externals[position]? = some external →
      Session.Consults externals due (recordedNext (external.recorded position))
        (next external)) :
    Session.Consults externals due
      (Session.ofExcept (batch.recorded.external position) >>= recordedNext)
      (Session.ofExcept (batch.external position) >>= next) := by
  rw [Batch.external_recorded]
  unfold Batch.external
  cases attached : batch.externals[position]? with
  | none =>
      intro host
      refine ⟨[], fun journal => ?_, .failed rfl⟩
      rw [List.append_nil]
      rfl
  | some external =>
      exact continued external attached

end Session.Consults

end Sessions

/-! ## Requests that are due -/

/-- The request that an instruction makes for a lane, if it asks the host. -/
def Instruction.inquiry (batch : Batch σ) (machine : Machine) :
    Instruction → Option (Lane → JournalEntry)
  | .readExternal count external => some fun lane =>
      { external := external.toNat, kind := .read
        element := batch.firstElement + lane.val
        input := [], width := count.toNat }
  | .writeExternal count external => some fun lane =>
      { external := external.toNat, kind := .write
        element := batch.firstElement + lane.val
        input := laneWords (machine.topmost count.toNat) lane, width := 0 }
  | .callExternal arguments results external => some fun lane =>
      { external := external.toNat, kind := .call
        element := batch.firstElement + lane.val
        input := laneWords (machine.topmost arguments.toNat) lane
        width := results.toNat }
  | _ => none

namespace Machine

variable {batch : Batch σ} {machine : Machine}

/-- The requests of an instruction: one for each live lane, in ascending order. -/
def inquiries (batch : Batch σ) (machine : Machine) (instruction : Instruction) :
    List JournalEntry :=
  match instruction.inquiry batch machine with
  | some entry => machine.live.active.map entry
  | none => []

/-- The requests that are due at the next step. -/
def due (batch : Batch σ) (machine : Machine) : List JournalEntry :=
  match machine.upcoming with
  | .ok instruction => machine.inquiries batch instruction
  | .error _ => []

/-- Requests are due for the elements in the live lanes, if the instruction asks at all. -/
theorem due_elements {instruction : Instruction}
    (decoded : machine.upcoming = .ok instruction) :
    (machine.due batch).map JournalEntry.element =
      if instruction.asksHost then
        machine.live.active.map fun lane => batch.firstElement + lane.val
      else [] := by
  rw [due, decoded]
  cases instruction with
  | readExternal | writeExternal | callExternal =>
      exact List.map_map
  | _ =>
      rfl

/-- A request that is due is made for the element in a live lane. -/
theorem element_of_due {entry : JournalEntry} (member : entry ∈ machine.due batch) :
    ∃ lane, machine.live.get lane = true ∧
      entry.element = batch.firstElement + lane.val := by
  cases decoded : machine.upcoming with
  | error malformed =>
      rw [due, decoded] at member
      cases member
  | ok instruction =>
      have listed := List.mem_map_of_mem (f := JournalEntry.element) member
      rw [due_elements decoded] at listed
      split at listed
      · obtain ⟨lane, active, same⟩ := List.mem_map.mp listed
        exact ⟨lane, (Lanes.mem_active _ _).mp active, same.symm⟩
      · cases listed

/-- The live lanes and the operands do not change when the offset advances. -/
theorem inquiries_advanced (instruction other : Instruction) :
    (machine.advanced instruction).inquiries batch other =
      machine.inquiries batch other := by
  cases other <;> rfl

/-- Results that have room in the place of operands can be pushed. -/
theorem exists_push {results : List Register}
    (enough : machine.top + results.length ≤ stackCapacity) :
    ∃ after, machine.push results = .ok after := by
  rw [push_eq, if_pos enough]
  exact ⟨_, rfl⟩

theorem readExternal_consults (count external : UInt8) :
    Session.Consults batch.externals
      (machine.inquiries batch (.readExternal count external))
      (machine.readExternal batch.recorded count.toNat external.toNat)
      (machine.readExternal batch count.toNat external.toNat) := by
  refine .withExternal fun attachment attached => ?_
  refine .check (room_domestic _) fun _ roomy => ?_
  refine .check (scratch_domestic _) fun _ _ => ?_
  refine .of_exchanges (.andThen (.mapM fun lane => ?_) fun answers => ?_)
  · exact .bind (.ask attached fun host => HostAction.run_discard _ host) fun _ => .pure _
  · apply exists_push
    rw [length_mergeAnswers]
    exact (room_yields machine count.toNat).of_ok roomy

theorem writeExternal_consults (fits : machine.Fits) (count external : UInt8) :
    Session.Consults batch.externals
      (machine.inquiries batch (.writeExternal count external))
      (machine.writeExternal batch.recorded count.toNat external.toNat)
      (machine.writeExternal batch count.toNat external.toNat) := by
  refine .withExternal fun attachment attached => ?_
  refine .check (peek_domestic _) fun values peeked => ?_
  obtain ⟨present, rfl⟩ := (peek_yields fits count.toNat).of_ok peeked
  refine .check (scratch_domestic _) fun _ _ => ?_
  refine .of_exchanges (.andThen (.forM fun lane => ?_) fun _ => ⟨_, rfl⟩)
  exact .ask attached fun host => HostAction.run_discard _ host

theorem callExternal_consults (fits : machine.Fits) (arguments results external : UInt8) :
    Session.Consults batch.externals
      (machine.inquiries batch (.callExternal arguments results external))
      (machine.callExternal batch.recorded arguments.toNat results.toNat external.toNat)
      (machine.callExternal batch arguments.toNat results.toNat external.toNat) := by
  refine .withExternal fun attachment attached => ?_
  refine .check (peek_domestic _) fun values peeked => ?_
  obtain ⟨present, rfl⟩ := (peek_yields fits arguments.toNat).of_ok peeked
  refine .check (room_domestic _) fun _ roomy => ?_
  refine .check (scratch_domestic _) fun _ _ => ?_
  refine .of_exchanges (.andThen (.mapM fun lane => ?_) fun answers => ?_)
  · exact .bind (.ask attached fun host => HostAction.run_discard _ host) fun _ => .pure _
  · have enough := (room_yields machine _).of_ok roomy
    apply exists_push
    rw [length_mergeAnswers]
    change machine.top - arguments.toNat + results.toNat ≤ stackCapacity
    omega

/-- An instruction makes the requests that are due, or none. -/
theorem execute_consults (fits : machine.Fits) (instruction : Instruction) :
    Session.Consults batch.externals (machine.inquiries batch instruction)
      (machine.execute batch.recorded instruction) (machine.execute batch instruction) := by
  by_cases quiet : instruction.asksHost = false
  · intro host
    have none : machine.inquiries batch instruction = [] := by
      cases instruction with
      | callExternal | readExternal | writeExternal => cases quiet
      | _ => rfl
    refine ⟨[], fun journal => ?_, ?_⟩
    · rw [execute_at batch host quiet, execute_at batch.recorded (host, journal) quiet,
        List.append_nil]
      rfl
    · rw [none, execute_at batch host quiet]
      exact .of_domestic (carry_domestic instruction quiet)
  · cases instruction with
    | callExternal arguments results external =>
        exact .map (callExternal_consults fits _ _ _)
    | readExternal count external =>
        exact .map (readExternal_consults _ _)
    | writeExternal count external =>
        exact .map (writeExternal_consults fits _ _)
    | _ =>
        exact absurd rfl quiet

theorem step_consults (sound : machine.Sound batch.program) :
    Session.Consults batch.externals (machine.due batch) (machine.step batch.recorded)
      (machine.step batch) := by
  refine .check fetch_domestic ?_
  rintro ⟨instruction, _⟩ fetched
  obtain ⟨decoded, rfl⟩ := fetch_eq_ok fetched
  have same : machine.due batch =
      (machine.advanced instruction).inquiries batch instruction := by
    rw [due, decoded, inquiries_advanced]
  rw [same]
  exact execute_consults (sound.advanced decoded).fits instruction

/-- The requests that a step makes, in order. -/
def stepRequests (batch : Batch σ) (host : σ) (machine : Machine) : List JournalEntry :=
  (machine.stepAt batch.recorded (host, [])).2.2

/--
A step has the requests that are due answered, or fails at the first one that
is refused, or fails for a reason of its own without asking.
-/
theorem stepAt_consults (sound : machine.Sound batch.program) (host : σ) :
    (∀ journal, machine.stepAt batch.recorded (host, journal) =
      ((machine.stepAt batch host).1, (machine.stepAt batch host).2,
        journal ++ machine.stepRequests batch host)) ∧
      Consulted batch.externals (machine.due batch) host
        (machine.stepRequests batch host) (machine.stepAt batch host) := by
  obtain ⟨made, same, consulted⟩ := step_consults sound host
  have requests : machine.stepRequests batch host = made :=
    congrArg (·.2.2) (same [])
  rw [requests]
  exact ⟨same, consulted⟩

end Machine

end Lockstep
