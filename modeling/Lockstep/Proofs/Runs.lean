import Lockstep.Machine.Step
import Lockstep.Proofs.Results
import Mathlib.Logic.Relation

/-!
# Steps and runs

A step depends on the state of the host and changes it, so it is looked at
through `Machine.stepAt`, which gives the outcome of a step and the state of
the host afterwards.  `Machine.Steps` is the relation of a machine to its
successors under any host state, and `Machine.Reaches` its closure: what holds
in every machine that is reached holds throughout every run.

A run with a budget is an iteration of steps.  `Machine.runAt_succ` unfolds
it, and `Machine.runAt_mono` says that a run which has ended ends alike with
every larger budget.
-/

namespace Lockstep

variable {σ α β : Type}

/-! ## Sessions -/

/-- The outcome of a session that starts with a given host state. -/
def Session.at (session : Session σ α) (host : σ) : Except Failure α × σ :=
  session.run.run host

@[simp]
theorem Session.at_ofExcept (result : Except Failure α) (host : σ) :
    (Session.ofExcept result : Session σ α).at host = (result, host) :=
  rfl

theorem Session.at_get (state : σ) : (get : Session σ σ).at state = (.ok state, state) :=
  rfl

theorem Session.at_set (after state : σ) :
    (set after : Session σ PUnit).at state = (.ok (), after) :=
  rfl

theorem Session.at_modify (change : σ → σ) (state : σ) :
    (modify change : Session σ PUnit).at state = (.ok (), change state) :=
  rfl

/-- A sequence of sessions hands the state of the host on. -/
theorem Session.at_bind (first : Session σ α) (next : α → Session σ β) (host : σ) :
    (first >>= next).at host =
      match first.at host with
      | (.ok value, later) => (next value).at later
      | (.error failure, later) => (.error failure, later) := by
  unfold Session.at
  rw [ExceptT.run_bind, StateT.run_bind]
  rcases first.run.run host with ⟨outcome, later⟩
  cases outcome <;> rfl

/-- Asking the host runs its action, and names the request in a refusal. -/
theorem Session.at_ask (kind : RequestKind) (external element : Nat)
    (action : HostAction σ α) (host : σ) :
    (Session.ask kind external element action).at host =
      ((action.run.run host).1.mapError fun error => Failure.external (.context
        s!"external {external} {kind.name} for element {element}" error),
        (action.run.run host).2) := by
  unfold Session.at Session.ask
  rw [ExceptT.run_mk, StateT.run_bind]
  rcases action.run.run host with ⟨outcome, later⟩
  cases outcome <;> rfl

/-- A session gives what is expected or fails as allowed, whatever the host. -/
def Session.Ensures (allowed : Failure → Prop) (expected : α → Prop)
    (session : Session σ α) : Prop :=
  ∀ host, Yields allowed expected (session.at host).1

namespace Session.Ensures

variable {allowed : Failure → Prop}
variable {expected : α → Prop} {final : β → Prop}

theorem ofExcept {result : Except Failure α}
    (given : Yields allowed expected result) :
    Session.Ensures allowed expected (Session.ofExcept result : Session σ α) :=
  fun _ => given

theorem pure {value : α} (holds : expected value) :
    Session.Ensures allowed expected (Pure.pure value : Session σ α) :=
  fun _ => holds

theorem bind {first : Session σ α} {next : α → Session σ β}
    (begun : Session.Ensures allowed expected first)
    (continued : ∀ value, expected value →
      Session.Ensures allowed final (next value)) :
    Session.Ensures allowed final (first >>= next) := by
  intro host
  have start := begun host
  rw [Session.at_bind]
  generalize first.at host = reached at start
  rcases reached with ⟨outcome, later⟩
  cases outcome with
  | ok value =>
      exact continued value start later
  | error failure =>
      exact start

/-- A request to the host can only fail because the host refuses. -/
theorem ask (kind : RequestKind) (external element : Nat)
    (action : HostAction σ α)
    (refusal : ∀ error, allowed (.external error)) :
    Session.Ensures allowed (fun _ => True)
      (Session.ask kind external element action) := by
  intro host
  rw [Session.at_ask]
  cases (action.run.run host).1 with
  | ok answer =>
      trivial
  | error error =>
      exact refusal _

theorem mapM {entries : List α} {step : α → Session σ β}
    (each : ∀ entry ∈ entries,
      Session.Ensures allowed (fun _ => True) (step entry)) :
    Session.Ensures allowed (fun _ => True) (entries.mapM step) := by
  induction entries with
  | nil =>
      exact fun _ => trivial
  | cons head tail induction =>
      rw [List.mapM_cons]
      apply bind (each head List.mem_cons_self)
      intro _ _
      apply bind (induction fun entry member =>
        each entry (List.mem_cons_of_mem head member))
      exact fun _ _ => pure trivial

theorem forM {entries : List α} {step : α → Session σ Unit}
    (each : ∀ entry ∈ entries,
      Session.Ensures allowed (fun _ => True) (step entry)) :
    Session.Ensures allowed (fun _ => True) (entries.forM step) := by
  induction entries with
  | nil =>
      exact fun _ => trivial
  | cons head tail induction =>
      change Session.Ensures allowed _ (step head >>= fun _ => tail.forM step)
      apply bind (each head List.mem_cons_self)
      intro _ _
      exact induction fun entry member =>
        each entry (List.mem_cons_of_mem head member)

end Session.Ensures

namespace Machine

/-! ## Steps -/

/-- The outcome of a step and the state of the host afterwards. -/
def stepAt (batch : Batch σ) (host : σ) (machine : Machine) :
    Except Failure Flow × σ :=
  (machine.step batch).at host

/-- A step fetches an instruction and carries it out. -/
theorem stepAt_eq (batch : Batch σ) (host : σ) (machine : Machine) :
    machine.stepAt batch host =
      match machine.fetch with
      | .ok (instruction, advanced) => (advanced.execute batch instruction).at host
      | .error failure => (.error failure, host) := by
  unfold stepAt step
  rw [Session.at_bind, Session.at_ofExcept]
  cases machine.fetch <;> rfl

/-- One machine is the next after another, under some host state. -/
def Steps (batch : Batch σ) (before after : Machine) : Prop :=
  ∃ host later, before.stepAt batch host = (.ok (.next after), later)

/-- One machine comes after another in some number of steps. -/
def Reaches (batch : Batch σ) : Machine → Machine → Prop :=
  Relation.ReflTransGen (Steps batch)

/-- What holds at the start and survives every step holds in every machine reached. -/
theorem Reaches.invariant {batch : Batch σ} {holds : Machine → Prop}
    {start machine : Machine} (reached : Reaches batch start machine)
    (initially : holds start)
    (preserved : ∀ before after, holds before → Steps batch before after →
      holds after) :
    holds machine := by
  induction reached with
  | refl =>
      exact initially
  | tail _ step induction =>
      exact preserved _ _ induction step

/-! ## Runs -/

/-- The result of a run with a budget and the state of the host afterwards. -/
def runAt (batch : Batch σ) (budget : Nat) (host : σ) (machine : Machine) :
    Option (Except Failure (Machine × List Register)) × σ :=
  (Machine.run batch budget machine).run host

@[simp]
theorem runAt_zero (batch : Batch σ) (host : σ) (machine : Machine) :
    machine.runAt batch 0 host = (none, host) :=
  rfl

theorem runAt_succ (batch : Batch σ) (budget : Nat) (host : σ) (machine : Machine) :
    machine.runAt batch (budget + 1) host =
      match machine.stepAt batch host with
      | (.ok (.next later), state) => later.runAt batch budget state
      | (.ok (.done final returned), state) => (some (.ok (final, returned)), state)
      | (.error failure, state) => (some (.error failure), state) := by
  unfold runAt stepAt Session.at run
  rw [iterate, StateT.run_bind]
  rcases (machine.step batch).run.run host with ⟨outcome, state⟩
  cases outcome with
  | ok flow =>
      cases flow <;> rfl
  | error failure =>
      rfl

/-- A run that has ended ends alike with every larger budget. -/
theorem runAt_mono {batch : Batch σ} {budget larger : Nat} {host : σ}
    {machine : Machine} {result : Except Failure (Machine × List Register)} {later : σ}
    (ended : machine.runAt batch budget host = (some result, later))
    (more : budget ≤ larger) :
    machine.runAt batch larger host = (some result, later) := by
  induction budget generalizing larger host machine with
  | zero =>
      rw [runAt_zero] at ended
      exact absurd (congrArg Prod.fst ended) (by simp)
  | succ budget induction =>
      obtain ⟨rest, rfl⟩ := Nat.exists_eq_add_of_le more
      rw [show budget + 1 + rest = (budget + rest) + 1 by omega, runAt_succ]
      rw [runAt_succ] at ended
      generalize machine.stepAt batch host = reached at ended
      rcases reached with ⟨outcome, state⟩
      cases outcome with
      | ok flow =>
          cases flow with
          | next following =>
              exact induction ended (Nat.le_add_right budget rest)
          | done final returned =>
              exact ended
      | error failure =>
          exact ended

/-- Runs end in a result under every host, and leave the host alone. -/
def Settles (batch : Batch σ) (machine : Machine)
    (result : Except Failure (Machine × List Register)) : Prop :=
  ∃ budget, ∀ host, machine.runAt batch budget host = (some result, host)

/-- Runs that end at all do not depend on the host. -/
def Decided (batch : Batch σ) (machine : Machine) : Prop :=
  ∀ budget host result later,
    machine.runAt batch budget host = (some result, later) →
      machine.Settles batch result

theorem Settles.of_ended {batch : Batch σ} {machine : Machine} {budget : Nat}
    {host later : σ} {result other : Except Failure (Machine × List Register)}
    (settles : machine.Settles batch result)
    (ended : machine.runAt batch budget host = (some other, later)) :
    other = result ∧ later = host := by
  obtain ⟨enough, settled⟩ := settles
  have first := runAt_mono ended (Nat.le_max_left budget enough)
  have second := runAt_mono (settled host) (Nat.le_max_right budget enough)
  rw [first] at second
  cases second
  exact ⟨rfl, rfl⟩

theorem Settles.unique {batch : Batch σ} {machine : Machine}
    {result other : Except Failure (Machine × List Register)}
    (settles : machine.Settles batch result) (again : machine.Settles batch other)
    (host : σ) : other = result := by
  obtain ⟨budget, settled⟩ := again
  exact (settles.of_ended (settled host)).1

/-- What a step that does not lead on gives as the result of a run. -/
def concludes : Except Failure Flow → Except Failure (Machine × List Register) → Prop
  | .ok (.next _), _ => False
  | .ok (.done final returned), result => result = .ok (final, returned)
  | .error failure, result => result = .error failure

/-- A run that has ended made its last step from a machine that it reached. -/
theorem runAt_ended {batch : Batch σ} {budget : Nat} {host later : σ}
    {machine : Machine} {result : Except Failure (Machine × List Register)}
    (ended : machine.runAt batch budget host = (some result, later)) :
    ∃ last state, Reaches batch machine last ∧
      concludes (last.stepAt batch state).1 result := by
  induction budget generalizing machine host with
  | zero =>
      rw [runAt_zero] at ended
      exact absurd (congrArg Prod.fst ended) (by simp)
  | succ budget induction =>
      rw [runAt_succ] at ended
      cases stepped : machine.stepAt batch host with
      | mk outcome state =>
          rw [stepped] at ended
          rcases outcome with failure | following | ⟨final, returned⟩
          · rcases ended with ⟨⟩
            refine ⟨machine, host, Relation.ReflTransGen.refl, ?_⟩
            rw [stepped]
            rfl
          · obtain ⟨last, reachedState, reached, concluded⟩ := induction ended
            exact ⟨last, reachedState,
              Relation.ReflTransGen.head ⟨host, state, stepped⟩ reached, concluded⟩
          · rcases ended with ⟨⟩
            refine ⟨machine, host, Relation.ReflTransGen.refl, ?_⟩
            rw [stepped]
            rfl

/-- The machines that take a step in a run, each with the host that it finds. -/
def moments (batch : Batch σ) : Nat → σ → Machine → List (Machine × σ)
  | 0, _, _ => []
  | budget + 1, host, machine =>
      (machine, host) ::
        match machine.stepAt batch host with
        | (.ok (.next after), later) => moments batch budget later after
        | _ => []

/-- Every machine that takes a step in a run is reached. -/
theorem reaches_of_moment {batch : Batch σ} {machine : Machine} {budget : Nat}
    {host : σ} {moment : Machine × σ}
    (member : moment ∈ machine.moments batch budget host) :
    Reaches batch machine moment.1 := by
  induction budget generalizing machine host with
  | zero =>
      cases member
  | succ budget induction =>
      rcases List.mem_cons.mp member with rfl | later
      · exact .refl
      · cases stepped : machine.stepAt batch host with
        | mk outcome state =>
            rw [stepped] at later
            rcases outcome with failure | after | ⟨final, returned⟩
            · cases later
            · exact .head ⟨host, state, stepped⟩ (induction later)
            · cases later

end Machine

end Lockstep
