import Lockstep.Host.Memory
import Lockstep.Proofs.MirroredSteps

/-!
# Recorded requests

Any host can be made to keep a journal: `Batch.recorded` wraps every external
so that a request is written down and then answered as before.  A machine
cannot tell the difference.  `Machine.runAt_recorded` says that its runs give
the same results and leave the same host, and that they add a list of requests
to the journal which does not depend on what the journal held.
-/

namespace Lockstep

variable {σ α β : Type}

/-! ## Hosts with a journal -/

/-- An action of a host that first writes a request into the journal. -/
def HostAction.recorded (entry : JournalEntry) (action : HostAction σ α) :
    HostAction (σ × List JournalEntry) α :=
  ExceptT.mk fun state =>
    let answered := action.run.run state.1
    (answered.1, answered.2, state.2 ++ [entry])

/-- The external at a position with a journal of the requests made to it. -/
def External.recorded (position : Nat) (external : External σ) :
    External (σ × List JournalEntry) where
  read element width :=
    HostAction.recorded ⟨position, .read, element, [], width⟩
      (external.read element width)
  write element words :=
    HostAction.recorded ⟨position, .write, element, words, 0⟩
      (external.write element words)
  call element words width :=
    HostAction.recorded ⟨position, .call, element, words, width⟩
      (external.call element words width)

/-- The batch whose host keeps a journal. -/
def Batch.recorded (batch : Batch σ) : Batch (σ × List JournalEntry) where
  program := batch.program
  externals := batch.externals.mapIdx External.recorded
  uniforms := batch.uniforms
  firstElement := batch.firstElement

theorem Batch.external_recorded (batch : Batch σ) (position : Nat) :
    batch.recorded.external position =
      (batch.external position).map (External.recorded position) := by
  unfold Batch.external Batch.recorded
  rw [List.getElem?_mapIdx, List.length_mapIdx]
  cases batch.externals[position]? <;> rfl

/-! ## Sessions with a journal -/

/-- The first session does what the second one does, and records some requests. -/
def Session.Records (recorded : Session (σ × List JournalEntry) α)
    (session : Session σ α) : Prop :=
  ∀ host, ∃ requests, ∀ journal,
    recorded.at (host, journal) =
      ((session.at host).1, (session.at host).2, journal ++ requests)

namespace Session.Records

theorem ofExcept (result : Except Failure α) :
    Session.Records (Session.ofExcept result) (Session.ofExcept result : Session σ α) := by
  intro host
  refine ⟨[], fun journal => ?_⟩
  rw [List.append_nil, Session.at_ofExcept, Session.at_ofExcept]

theorem pure (value : α) :
    Session.Records (Pure.pure value) (Pure.pure value : Session σ α) :=
  ofExcept (.ok value)

theorem bind {first : Session σ α} {recordedFirst : Session (σ × List JournalEntry) α}
    {next : α → Session σ β} {recordedNext : α → Session (σ × List JournalEntry) β}
    (begun : Session.Records recordedFirst first)
    (continued : ∀ value, Session.Records (recordedNext value) (next value)) :
    Session.Records (recordedFirst >>= recordedNext) (first >>= next) := by
  intro host
  obtain ⟨requests, start⟩ := begun host
  simp only [Session.at_bind, start]
  rcases first.at host with ⟨outcome, later⟩
  cases outcome with
  | error failure =>
      exact ⟨requests, fun _ => rfl⟩
  | ok value =>
      obtain ⟨others, rest⟩ := continued value later
      refine ⟨requests ++ others, fun journal => ?_⟩
      rw [← List.append_assoc]
      exact rest (journal ++ requests)

/-- A request is the only one of its session. -/
theorem ask (kind : RequestKind) (external element : Nat) (entry : JournalEntry)
    (action : HostAction σ α) :
    Session.Records
      (Session.ask kind external element (HostAction.recorded entry action))
      (Session.ask kind external element action) := by
  intro host
  refine ⟨[entry], fun journal => ?_⟩
  rw [Session.at_ask, Session.at_ask]
  rfl

theorem mapM {entries : List α} {step : α → Session σ β}
    {recordedStep : α → Session (σ × List JournalEntry) β}
    (each : ∀ entry, Session.Records (recordedStep entry) (step entry)) :
    Session.Records (entries.mapM recordedStep) (entries.mapM step) := by
  induction entries with
  | nil =>
      exact pure []
  | cons head tail induction =>
      rw [List.mapM_cons, List.mapM_cons]
      exact (each head).bind fun _ => induction.bind fun _ => pure _

theorem forM {entries : List α} {step : α → Session σ Unit}
    {recordedStep : α → Session (σ × List JournalEntry) Unit}
    (each : ∀ entry, Session.Records (recordedStep entry) (step entry)) :
    Session.Records (entries.forM recordedStep) (entries.forM step) := by
  induction entries with
  | nil =>
      exact pure ()
  | cons head tail induction =>
      exact (each head).bind fun _ => induction

/-- An external that keeps a journal takes the place of the one that does not. -/
theorem withExternal {batch : Batch σ} {position : Nat}
    {next : External σ → Session σ α}
    {recordedNext : External (σ × List JournalEntry) →
      Session (σ × List JournalEntry) α}
    (continued : ∀ external,
      Session.Records (recordedNext (external.recorded position)) (next external)) :
    Session.Records (Session.ofExcept (batch.recorded.external position) >>= recordedNext)
      (Session.ofExcept (batch.external position) >>= next) := by
  rw [Batch.external_recorded]
  cases batch.external position with
  | error failure =>
      exact ofExcept (.error failure)
  | ok external =>
      exact continued external

end Session.Records

/-! ## Machines with a journal -/

namespace Machine

variable {batch : Batch σ} {machine : Machine}

theorem readExternal_records (count position : Nat) :
    Session.Records (machine.readExternal batch.recorded count position)
      (machine.readExternal batch count position) :=
  .withExternal fun _ => .bind (.ofExcept _) fun _ => .bind (.ofExcept _) fun _ =>
    .bind (.mapM fun _ => .bind (.ask _ _ _ _ _) fun _ => .pure _) fun _ => .ofExcept _

theorem writeExternal_records (count position : Nat) :
    Session.Records (machine.writeExternal batch.recorded count position)
      (machine.writeExternal batch count position) :=
  .withExternal fun _ => .bind (.ofExcept _) fun _ => .bind (.ofExcept _) fun _ =>
    .bind (.forM fun _ => .ask _ _ _ _ _) fun _ => .pure _

theorem callExternal_records (arguments results position : Nat) :
    Session.Records (machine.callExternal batch.recorded arguments results position)
      (machine.callExternal batch arguments results position) :=
  .withExternal fun _ => .bind (.ofExcept _) fun _ => .bind (.ofExcept _) fun _ =>
    .bind (.ofExcept _) fun _ =>
      .bind (.mapM fun _ => .bind (.ask _ _ _ _ _) fun _ => .pure _) fun _ => .ofExcept _

/-- An instruction is carried out alike with a journal and without. -/
theorem execute_records (instruction : Instruction) :
    Session.Records (machine.execute batch.recorded instruction)
      (machine.execute batch instruction) := by
  by_cases quiet : instruction.asksHost = false
  · intro host
    refine ⟨[], fun journal => ?_⟩
    rw [execute_at batch host quiet, execute_at batch.recorded (host, journal) quiet,
      List.append_nil]
    rfl
  · cases instruction with
    | callExternal arguments results external =>
        exact .bind (callExternal_records _ _ _) fun _ => .pure _
    | readExternal count external =>
        exact .bind (readExternal_records _ _) fun _ => .pure _
    | writeExternal count external =>
        exact .bind (writeExternal_records _ _) fun _ => .pure _
    | _ =>
        exact absurd rfl quiet

theorem step_records : Session.Records (machine.step batch.recorded) (machine.step batch) :=
  .bind (.ofExcept _) fun _ => execute_records _

/-- The requests that a run makes, in order. -/
def requests (batch : Batch σ) (budget : Nat) (host : σ) (machine : Machine) :
    List JournalEntry :=
  (machine.runAt batch.recorded budget (host, [])).2.2

/-- A journal changes nothing about a run, which adds its requests to it. -/
theorem runAt_recorded (budget : Nat) (host : σ) (journal : List JournalEntry) :
    machine.runAt batch.recorded budget (host, journal) =
      ((machine.runAt batch budget host).1, (machine.runAt batch budget host).2,
        journal ++ machine.requests batch budget host) := by
  -- The requests are those of the run with an empty journal, so both are followed at once.
  suffices added : ∃ requests, ∀ journal,
      machine.runAt batch.recorded budget (host, journal) =
        ((machine.runAt batch budget host).1, (machine.runAt batch budget host).2,
          journal ++ requests) by
    obtain ⟨requests, ran⟩ := added
    rw [ran journal, Machine.requests, ran []]
    rfl
  induction budget generalizing machine host with
  | zero =>
      exact ⟨[], fun journal => by rw [List.append_nil]; rfl⟩
  | succ budget induction =>
      obtain ⟨requests, stepped⟩ := @step_records σ batch machine host
      change ∀ journal, machine.stepAt batch.recorded (host, journal) =
        ((machine.stepAt batch host).1, (machine.stepAt batch host).2,
          journal ++ requests) at stepped
      simp only [runAt_succ, stepped]
      rcases machine.stepAt batch host with ⟨outcome, later⟩
      rcases outcome with failure | following | ⟨final, returned⟩
      · exact ⟨requests, fun _ => rfl⟩
      · obtain ⟨others, rest⟩ := @induction following later
        refine ⟨requests ++ others, fun journal => ?_⟩
        rw [← List.append_assoc]
        exact rest (journal ++ requests)
      · exact ⟨requests, fun _ => rfl⟩

end Machine

end Lockstep
