import Lockstep.Proofs.Journal
import Lockstep.Proofs.MaskedSteps

/-!
# Padding lanes

A chunk of fewer elements than there are lanes leaves some lanes over.  Whatever
these lanes hold, in the stack or in the globals, nobody can tell: two machines
that start with the same values in the lanes of the elements stay in step for
good.  They take the same path, make the same requests to the host in the same
order, end alike, and hand over the same values in the lanes of the elements.

The machines mirror each other along the map that keeps the lanes of the
elements, `Lane.below`.  Only such lanes are ever live, so the machines have the
very same live lanes; that covers the instructions that look at all lanes at
once and the order in which the host is asked.  `Linked.runBatch_alike` says the
same of the batches of a call, whose arguments are put in place first.
-/

namespace Lockstep

variable {σ α β γ δ : Type} {lanes : Nat}

/-- The map that keeps the lanes of the elements. -/
def Lane.below (lanes : Nat) : Lane → Option Lane :=
  fun lane => if lane.val < lanes then some lane else none

theorem Lane.below_eq_some {lane target : Lane} :
    Lane.below lanes lane = some target ↔ lane.val < lanes ∧ target = lane := by
  unfold below
  split
  · rename_i small
    simp [small, eq_comm]
  · rename_i large
    simp [large]

theorem Lanes.mirrors_below {left right : Lanes α} :
    left.Mirrors (Lane.below lanes) right ↔
      ∀ lane : Lane, lane.val < lanes → right.get lane = left.get lane := by
  constructor
  · intro mirrors lane small
    exact mirrors lane lane (Lane.below_eq_some.mpr ⟨small, rfl⟩)
  · intro same lane target mapped
    rcases Lane.below_eq_some.mp mapped with ⟨small, rfl⟩
    exact same _ small

theorem leadingWords_eq {left right : Register}
    (mirrors : left.Mirrors (Lane.below lanes) right) :
    leadingWords right lanes = leadingWords left lanes := by
  have same := Lanes.mirrors_below.mp mirrors
  have listed : ∀ register : Register, leadingWords register lanes =
      ((List.finRange laneCount).take lanes).map register.get := by
    intro register
    have whole : register.toList = (List.finRange laneCount).map register.get := by
      refine List.ext_getElem ?_ ?_
      · simp [Lanes.toList]
      · intro position inLeft inRight
        simp [Lanes.toList, Lanes.get]
    rw [leadingWords, whole, List.map_take]
  rw [listed, listed]
  refine List.map_congr_left fun lane member => same lane ?_
  obtain ⟨position, inTaken, rfl⟩ := List.mem_iff_getElem.mp member
  rw [List.length_take] at inTaken
  rw [List.getElem_take, List.getElem_finRange]
  exact (Nat.lt_min.mp inTaken).1

theorem MirroredRun.leadingWords_eq {left right : List Register}
    (run : MirroredRun (Lane.below lanes) left right) :
    right.map (leadingWords · lanes) = left.map (leadingWords · lanes) := by
  induction run with
  | nil =>
      rfl
  | cons mirrors _ induction =>
      rw [List.map_cons, List.map_cons, induction, Lockstep.leadingWords_eq mirrors]

/-! ## Results that match -/

/-- Two results are related values, or they are the very same failure. -/
def Matched (related : α → β → Prop) : Except Failure α → Except Failure β → Prop
  | .ok value, .ok answer => related value answer
  | .error failure, .error refusal => refusal = failure
  | _, _ => False

theorem Matched.of_ok {related : α → β → Prop} {value : α} {follower : Except Failure β}
    (matched : Matched related (.ok value) follower) :
    ∃ answer, follower = .ok answer ∧ related value answer := by
  cases follower with
  | ok answer =>
      exact ⟨answer, rfl, matched⟩
  | error refusal =>
      exact matched.elim

theorem Matched.of_error {related : α → β → Prop} {failure : Failure}
    {follower : Except Failure β} (matched : Matched related (.error failure) follower) :
    follower = .error failure := by
  cases follower with
  | ok answer =>
      exact matched.elim
  | error refusal =>
      exact congrArg _ matched

theorem Matched.mono {related weaker : α → β → Prop} {leader : Except Failure α}
    {follower : Except Failure β} (matched : Matched related leader follower)
    (weaken : ∀ value answer, related value answer → weaker value answer) :
    Matched weaker leader follower := by
  cases leader with
  | ok value =>
      obtain ⟨answer, rfl, holds⟩ := matched.of_ok
      exact weaken value answer holds
  | error failure =>
      rw [matched.of_error]
      exact rfl

theorem Failure.inLane_of_lane? {failure : Failure} {lane : Lane}
    (named : failure.lane? = some lane) : failure.inLane lane = failure := by
  unfold Failure.lane? at named
  split at named
  · cases named
    rfl
  · cases named
    rfl
  · cases named
    rfl
  · cases named

/-- Results that follow each other match if no padding lane is to blame. -/
theorem Follows.matched {related : α → β → Prop} {leader : Except Failure α}
    {follower : Except Failure β}
    (follows : Follows (Lane.below lanes) related leader follower)
    (blameless : ∀ failure lane, leader = .error failure → failure.lane? = some lane →
      lane.val < lanes) :
    Matched related leader follower := by
  cases leader with
  | ok value =>
      rcases follows with ⟨answer, rfl, holds⟩
      exact holds
  | error failure =>
      cases concerned : failure.lane? with
      | none =>
          rw [follows.of_error rfl concerned]
          exact rfl
      | some lane =>
          have small := blameless failure lane rfl concerned
          rw [follows.of_lane_error rfl concerned
            (Lane.below_eq_some.mpr ⟨small, rfl⟩), Failure.inLane_of_lane? concerned]
          exact rfl

theorem Follows.matched_of_impartial {related : α → β → Prop}
    {leader : Except Failure α} {follower : Except Failure β}
    (follows : Follows (Lane.below lanes) related leader follower)
    (impartial : Impartial leader) : Matched related leader follower := by
  refine follows.matched ?_
  intro failure lane failed concerned
  rw [Yields.of_error impartial failed] at concerned
  cases concerned

/-- Two sessions do the same to every host, and their results match. -/
def Session.Agrees (related : α → β → Prop) (first : Session σ α)
    (second : Session σ β) : Prop :=
  ∀ host, (second.at host).2 = (first.at host).2 ∧
    Matched related (first.at host).1 (second.at host).1

namespace Session.Agrees

variable {related : α → β → Prop}

theorem ofExcept {leader : Except Failure α} {follower : Except Failure β}
    (matched : Matched related leader follower) :
    Session.Agrees related (Session.ofExcept leader)
      (Session.ofExcept follower : Session σ β) :=
  fun _ => ⟨rfl, matched⟩

theorem pure {value : α} {answer : β} (holds : related value answer) :
    Session.Agrees related (Pure.pure value) (Pure.pure answer : Session σ β) :=
  fun _ => ⟨rfl, holds⟩

theorem refl (session : Session σ α) : Session.Agrees (· = ·) session session := by
  intro host
  refine ⟨rfl, ?_⟩
  cases (session.at host).1 <;> exact rfl

theorem bind {first : Session σ α} {second : Session σ β} {final : γ → δ → Prop}
    {next : α → Session σ γ} {answerNext : β → Session σ δ}
    (begun : Session.Agrees related first second)
    (continued : ∀ value answer, related value answer →
      Session.Agrees final (next value) (answerNext answer)) :
    Session.Agrees final (first >>= next) (second >>= answerNext) := by
  intro host
  have agreed := begun host
  rw [Session.at_bind, Session.at_bind]
  generalize first.at host = reached at agreed
  generalize second.at host = answered at agreed
  rcases reached with ⟨result, later⟩
  rcases answered with ⟨answer, _⟩
  obtain ⟨rfl, results⟩ := agreed
  cases result with
  | error failure =>
      cases results.of_error
      exact ⟨rfl, rfl⟩
  | ok value =>
      obtain ⟨reply, rfl, holds⟩ := results.of_ok
      exact continued value reply holds _

/-- The same request for every entry of a list, made alike, is answered alike. -/
theorem mapM {entries : List α} {step other : α → Session σ β}
    (same : ∀ entry ∈ entries, other entry = step entry) :
    Session.Agrees (· = ·) (entries.mapM step) (entries.mapM other) := by
  have equal : entries.mapM other = entries.mapM step := by
    induction entries with
    | nil =>
        rfl
    | cons head tail induction =>
        rw [List.mapM_cons, List.mapM_cons, same head List.mem_cons_self,
          induction fun entry member => same entry (List.mem_cons_of_mem head member)]
  rw [equal]
  exact refl _

theorem forM {entries : List α} {step other : α → Session σ Unit}
    (same : ∀ entry ∈ entries, other entry = step entry) :
    Session.Agrees (· = ·) (entries.forM step) (entries.forM other) := by
  have equal : entries.forM other = entries.forM step := by
    induction entries with
    | nil =>
        rfl
    | cons head tail induction =>
        have tailSame :=
          induction fun entry member => same entry (List.mem_cons_of_mem head member)
        change (other head >>= fun _ => tail.forM other) = step head >>= fun _ => _
        rw [same head List.mem_cons_self, tailSame]
  rw [equal]
  exact refl _

end Session.Agrees

/-- Answers of the host, over registers that mirror each other. -/
theorem MirroredRun.mergeAnswers {image : Lane → Option Lane}
    {before others : List Register} (run : MirroredRun image before others)
    (identical : ∀ lane target, image lane = some target → target = lane) (count : Nat)
    (answers : List (Lane × List Word)) :
    MirroredRun image (mergeAnswers count before answers)
      (Lockstep.mergeAnswers count others answers) := by
  apply List.forall₂_map_left_iff.mpr
  apply List.forall₂_map_right_iff.mpr
  apply List.forall₂_same.mpr
  intro position _ lane target mapped
  have same := identical lane target mapped
  subst same
  rw [Lanes.get_ofFn, Lanes.get_ofFn, run.getD position _ _ mapped]

/-! ## Machines that differ in padding lanes -/

namespace Machine

variable {batch : Batch σ} {program : Program} {function : Function}
variable {left right : Machine}

/--
A sound machine that runs lanes of the elements only, and a machine that agrees
with it on these lanes.
-/
structure Akin (program : Program) (lanes : Nat) (left right : Machine) : Prop where
  sound : left.Sound program
  running : ∀ lane : Lane, left.live.get lane = true → lane.val < lanes
  live : right.live = left.live
  mirrors : left.Mirrors (Lane.below lanes) spotless right

namespace Akin

/-- A lane that runs is the lane of an element. -/
theorem below_of_active (akin : Akin program lanes left right) {lane : Lane}
    (active : lane ∈ left.live.active) : Lane.below lanes lane = some lane := by
  have small := akin.running lane ((Lanes.mem_active _ _).mp active)
  exact Lane.below_eq_some.mpr ⟨small, rfl⟩

theorem covers (akin : Akin program lanes left right) :
    left.live.Covers (Lane.below lanes) right.live := by
  unfold Lanes.Covers
  rw [akin.live, List.filterMap_congr fun _ => akin.below_of_active,
    List.filterMap_some]

theorem advanced (akin : Akin program lanes left right) {instruction : Instruction}
    (decoded : left.upcoming = .ok instruction) :
    Akin program lanes (left.advanced instruction) (right.advanced instruction) where
  sound := akin.sound.advanced decoded
  running := akin.running
  live := akin.live
  mirrors := akin.mirrors.advanced instruction

theorem peek_matched (akin : Akin program lanes left right) (count : Nat) :
    Matched (MirroredRun (Lane.below lanes)) (left.peek count) (right.peek count) := by
  have exposed : left.Exposes spotless count := fun _ _ _ _ => trivial
  have follows := peek_follows akin.sound.fits akin.mirrors exposed
  exact (follows.mono fun _ _ ⟨_, _, _, run⟩ => run).matched_of_impartial
    (peek_impartial count)

theorem room_matched (akin : Akin program lanes left right) (count : Nat) :
    Matched (fun _ _ => True) (left.room count) (right.room count) := by
  unfold room
  rw [akin.mirrors.top]
  split
  · exact trivial
  · exact rfl

theorem push_matched (akin : Akin program lanes left right)
    {results answers : List Register} (count : Nat)
    (run : MirroredRun (Lane.below lanes) results answers) :
    Matched (Mirrors (Lane.below lanes) spotless) ((left.drop count).push results)
      ((right.drop count).push answers) :=
  (push_follows (akin.mirrors.drop count) run).matched_of_impartial
    (push_impartial results)

/-! ## Requests to the host -/

theorem readExternal_agrees (akin : Akin program lanes left right)
    (count position : Nat) :
    Session.Agrees (Mirrors (Lane.below lanes) spotless)
      (left.readExternal batch count position)
      (right.readExternal batch count position) := by
  unfold readExternal
  rw [akin.live]
  refine (Session.Agrees.refl _).bind ?_
  rintro external _ rfl
  refine (Session.Agrees.ofExcept (akin.room_matched count)).bind fun _ _ _ => ?_
  refine (Session.Agrees.refl _).bind fun _ _ _ => ?_
  refine (Session.Agrees.refl _).bind ?_
  rintro answers _ rfl
  refine .ofExcept (akin.push_matched 0 ?_)
  exact List.forall₂_same.mpr fun _ _ => Lanes.mirrors_below.mpr fun _ _ => rfl

theorem writeExternal_agrees (akin : Akin program lanes left right)
    (count position : Nat) :
    Session.Agrees (Mirrors (Lane.below lanes) spotless)
      (left.writeExternal batch count position)
      (right.writeExternal batch count position) := by
  unfold writeExternal
  rw [akin.live]
  refine (Session.Agrees.refl _).bind ?_
  rintro external _ rfl
  refine (Session.Agrees.ofExcept (akin.peek_matched count)).bind fun values others run => ?_
  refine (Session.Agrees.refl _).bind fun _ _ _ => ?_
  refine (Session.Agrees.forM ?_).bind fun _ _ _ => .pure (akin.mirrors.drop count)
  intro lane active
  rw [run.laneWords_eq (akin.below_of_active active)]

theorem callExternal_agrees (akin : Akin program lanes left right)
    (arguments results position : Nat) :
    Session.Agrees (Mirrors (Lane.below lanes) spotless)
      (left.callExternal batch arguments results position)
      (right.callExternal batch arguments results position) := by
  unfold callExternal
  rw [akin.live]
  refine (Session.Agrees.refl _).bind ?_
  rintro external _ rfl
  refine (Session.Agrees.ofExcept (akin.peek_matched arguments)).bind
    fun values others run => ?_
  refine (Session.Agrees.ofExcept (akin.room_matched _)).bind fun _ _ _ => ?_
  refine (Session.Agrees.refl _).bind fun _ _ _ => ?_
  refine (Session.Agrees.mapM ?_).bind ?_
  · intro lane active
    rw [run.laneWords_eq (akin.below_of_active active)]
  · rintro answers _ rfl
    refine .ofExcept (akin.push_matched arguments (run.mergeAnswers ?_ _ _))
    exact fun _ _ mapped => (Lane.below_eq_some.mp mapped).2

/-! ## Steps -/

/-- An instruction is carried out alike, whether or not it asks the host. -/
theorem execute_agrees (akin : Akin batch.program lanes left right)
    (instruction : Instruction) :
    Session.Agrees (Flow.Mirrors (Lane.below lanes) spotless)
      (left.execute batch instruction) (right.execute batch instruction) := by
  have sound := akin.sound
  by_cases quiet : instruction.asksHost = false
  · intro host
    have follows := @carry_follows_spotless _ _ _ _ batch sound.fits akin.mirrors
      sound.running.arguments akin.covers instruction quiet
      fun _ => by rw [akin.live]
    have blames := @execute_blames _ batch left sound.fits sound.predicates instruction host
    rw [execute_at batch host quiet] at blames ⊢
    rw [execute_at batch host quiet]
    refine ⟨rfl, follows.matched ?_⟩
    intro failure lane failed concerned
    exact akin.running lane (blames.of_error failed lane concerned).1
  · cases instruction with
    | callExternal arguments results external =>
        exact (akin.callExternal_agrees _ _ _).bind fun _ _ => .pure
    | readExternal count external =>
        exact (akin.readExternal_agrees _ _).bind fun _ _ => .pure
    | writeExternal count external =>
        exact (akin.writeExternal_agrees _ _).bind fun _ _ => .pure
    | _ =>
        exact absurd rfl quiet

theorem step_agrees (akin : Akin batch.program lanes left right) :
    Session.Agrees (Flow.Mirrors (Lane.below lanes) spotless)
      (left.step batch) (right.step batch) := by
  have fetched := (fetch_follows akin.mirrors).matched_of_impartial fetch_impartial
  refine (Session.Agrees.ofExcept fetched).bind ?_
  rintro _ _ ⟨instruction, decoded, rfl, rfl⟩
  exact (akin.advanced decoded).execute_agrees instruction

end Akin

/-- Two machines that serve a call and agree on the lanes of its elements. -/
structure Paired (program : Program) (function : Function) (lanes : Nat)
    (left right : Machine) : Prop where
  serves : left.Serves program function lanes
  others : right.Serves program function lanes
  mirrors : left.Mirrors (Lane.below lanes) spotless right

/-- The machines have the same live lanes. -/
theorem Paired.live_eq (paired : Paired program function lanes left right) :
    right.live = left.live := by
  apply Lanes.ext_get
  intro lane
  by_cases small : lane.val < lanes
  · exact Lanes.mirrors_below.mp paired.mirrors.live lane small
  · have dead : ∀ machine : Machine, machine.Serves program function lanes →
        machine.live.get lane = false := by
      intro machine serves
      exact Bool.eq_false_iff.mpr fun live => small (serves.lt_of_live live)
    rw [dead left paired.serves, dead right paired.others]

theorem Paired.akin (paired : Paired program function lanes left right) :
    Akin program lanes left right :=
  ⟨paired.serves.sound, fun _ => paired.serves.lt_of_live, paired.live_eq, paired.mirrors⟩

/-- Two outermost returns hand over the same values in the lanes of the elements. -/
structure HandsAlike (function : Function) (lanes : Nat)
    (reached other : Machine × List Register) : Prop where
  returned : other.2.map (leadingWords · lanes) = reached.2.map (leadingWords · lanes)
  /-- The argument slots hold the same values. -/
  arguments : ∀ slot, slot < function.parameterCount →
    leadingWords (other.1.registers.register slot) lanes =
      leadingWords (reached.1.registers.register slot) lanes

theorem Mirrors.handsAlike {final last : Machine} {returned answers : List Register}
    (mirrors : final.Mirrors (Lane.below lanes) spotless last)
    (run : MirroredRun (Lane.below lanes) returned answers)
    (delivers : Delivers program function lanes final returned) :
    HandsAlike function lanes (final, returned) (last, answers) where
  returned := run.leadingWords_eq
  arguments := by
    intro slot inSlots
    exact leadingWords_eq (mirrors.locals slot trivial (delivers.lt_top inSlots))

/-- What a step of two machines that differ in padding lanes comes to. -/
inductive StepsAlike (batch : Batch σ) (function : Function) (lanes : Nat) (host : σ)
    (left right : Machine) : Prop
  | failed {failure : Failure} {later : σ}
      (first : left.stepAt batch host = (.error failure, later))
      (second : right.stepAt batch host = (.error failure, later))
  | next {after other : Machine} {later : σ}
      (first : left.stepAt batch host = (.ok (.next after), later))
      (second : right.stepAt batch host = (.ok (.next other), later))
      (paired : Paired batch.program function lanes after other)
  | done {final last : Machine} {returned answers : List Register} {later : σ}
      (first : left.stepAt batch host = (.ok (.done final returned), later))
      (second : right.stepAt batch host = (.ok (.done last answers), later))
      (alike : HandsAlike function lanes (final, returned) (last, answers))

theorem Paired.stepsAlike (paired : Paired batch.program function lanes left right)
    (host : σ) : StepsAlike batch function lanes host left right := by
  obtain ⟨hosts, results⟩ := paired.akin.step_agrees host
  have yields := stepAt_yields paired.serves.sound host
  have reaches : ∀ {machine after : Machine} {later : σ},
      machine.stepAt batch host = (.ok (.next after), later) →
        Reaches batch machine after :=
    fun stepped => .single ⟨host, _, stepped⟩
  change (right.stepAt batch host).2 = (left.stepAt batch host).2 at hosts
  change Matched _ (left.stepAt batch host).1 (right.stepAt batch host).1 at results
  generalize first : left.stepAt batch host = reached at hosts results yields
  generalize second : right.stepAt batch host = answered at hosts results
  rcases reached with ⟨outcome, later⟩
  rcases answered with ⟨answer, _⟩
  cases hosts
  rcases outcome with failure | flow
  · cases results.of_error
    exact .failed first second
  · obtain ⟨reply, rfl, mirrors⟩ := results.of_ok
    rcases flow with after | ⟨final, returned⟩
    · rcases reply with other | _
      · exact .next first second ⟨(reaches first).serves paired.serves,
          (reaches second).serves paired.others, mirrors⟩
      · exact mirrors.elim
    · rcases reply with _ | ⟨last, answers⟩
      · exact mirrors.elim
      · obtain ⟨instruction, advances⟩ := yields
        exact .done first second
          (mirrors.1.handsAlike mirrors.2 (advances.delivers paired.serves))

/-! ## Runs -/

/-- Two runs end alike, or neither ends. -/
def EndsAlike (function : Function) (lanes : Nat) : BatchResult → BatchResult → Prop
  | none, none => True
  | some result, some answer => Matched (HandsAlike function lanes) result answer
  | _, _ => False

/-- The activations before each step of a run. -/
def path (batch : Batch σ) : Nat → σ → Machine → List (List Activation)
  | 0, _, _ => []
  | budget + 1, host, machine =>
      machine.activations ::
        match machine.stepAt batch host with
        | (.ok (.next following), later) => path batch budget later following
        | _ => []

theorem Paired.runAt_alike (paired : Paired batch.program function lanes left right)
    (budget : Nat) (host : σ) :
    (right.runAt batch budget host).2 = (left.runAt batch budget host).2 ∧
      EndsAlike function lanes (left.runAt batch budget host).1
        (right.runAt batch budget host).1 := by
  induction budget generalizing left right host with
  | zero =>
      exact ⟨rfl, trivial⟩
  | succ budget induction =>
      rw [runAt_succ, runAt_succ]
      cases paired.stepsAlike host with
      | failed first second =>
          rw [first, second]
          exact ⟨rfl, rfl⟩
      | next first second following =>
          rw [first, second]
          exact induction following _
      | done first second alike =>
          rw [first, second]
          exact ⟨rfl, alike⟩

theorem Paired.path_eq (paired : Paired batch.program function lanes left right)
    (budget : Nat) (host : σ) :
    right.path batch budget host = left.path batch budget host := by
  induction budget generalizing left right host with
  | zero =>
      rfl
  | succ budget induction =>
      have here : right.activations = left.activations := by
        unfold activations
        rw [paired.mirrors.current, paired.mirrors.callers]
      unfold path
      rw [here]
      cases paired.stepsAlike host with
      | failed first second =>
          rw [first, second]
      | next first second following =>
          rw [first, second]
          exact congrArg _ (induction following _)
      | done first second _ =>
          rw [first, second]

/-- Two machines whose runs cannot be told apart, whatever the budget and the host. -/
structure Indistinguishable (batch : Batch σ) (function : Function) (lanes : Nat)
    (left right : Machine) : Prop where
  results : ∀ budget host, EndsAlike function lanes (left.runAt batch budget host).1
    (right.runAt batch budget host).1
  hosts : ∀ budget host,
    (right.runAt batch budget host).2 = (left.runAt batch budget host).2
  requests : ∀ budget host,
    right.requests batch budget host = left.requests batch budget host
  paths : ∀ budget host, right.path batch budget host = left.path batch budget host

theorem Paired.indistinguishable (paired : Paired batch.program function lanes left right) :
    Indistinguishable batch function lanes left right := by
  -- Runs with a journal tell everything at once: result, host and requests.
  have journals : ∀ budget host,
      ((right.runAt batch budget host).2 = (left.runAt batch budget host).2 ∧
        right.requests batch budget host = left.requests batch budget host) ∧
        EndsAlike function lanes (left.runAt batch budget host).1
          (right.runAt batch budget host).1 := by
    intro budget host
    have recorded : Paired batch.recorded.program function lanes left right := paired
    have alike := recorded.runAt_alike budget (host, [])
    rw [runAt_recorded, runAt_recorded] at alike
    simpa only [List.nil_append, Prod.mk.injEq] using alike
  exact ⟨fun budget host => (journals budget host).2,
    fun budget host => (journals budget host).1.1,
    fun budget host => (journals budget host).1.2, paired.path_eq⟩

/-! ## Starts -/

/-- Enter the outermost function of a call. -/
def start (function : Function) (lanes : Nat) (registers : RegisterFile stackCapacity)
    (globals : RegisterFile globalCapacity) : Except Failure Machine :=
  (idle function lanes registers globals).enter function 0

/-- A call puts its inputs and arguments in place and enters its function. -/
theorem boot_eq_start (inputs : Option (List Word)) (arguments : List Register) :
    boot program function lanes inputs arguments = (do
      let globals ← program.seed (inputs.getD [])
      let registers ← (RegisterFile.blank stackCapacity).writeRun 0 arguments
      start function lanes registers globals) :=
  rfl

/-- Two files hold the same values in the lanes of the elements. -/
def SharesLanes {capacity : Nat} (lanes : Nat) (file other : RegisterFile capacity) :
    Prop :=
  ∀ position, ∀ lane : Lane, lane.val < lanes →
    (other.register position).get lane = (file.register position).get lane

theorem paired_entered (known : function ∈ program.functions)
    (frame : function.stackNeed ≤ stackCapacity)
    {registers others : RegisterFile stackCapacity}
    {globals otherGlobals : RegisterFile globalCapacity}
    (shared : SharesLanes lanes registers others)
    (sharedGlobals : SharesLanes lanes globals otherGlobals) :
    Paired program function lanes
      ((idle function lanes registers globals).entered function 0)
      ((idle function lanes others otherGlobals).entered function 0) := by
  refine ⟨serves_entered_idle known frame _ _, serves_entered_idle known frame _ _, ?_⟩
  -- Entering a function does not depend on the top, which may cover the arguments before.
  let before (registers : RegisterFile stackCapacity)
      (globals : RegisterFile globalCapacity) : Machine :=
    { idle function lanes registers globals with top := function.parameterCount }
  have mirrors : (before registers globals).Mirrors (Lane.below lanes) spotless
      (before others otherGlobals) := by
    refine ⟨rfl, rfl, rfl, ⟨?_, .nil, .nil⟩, ?_, ?_⟩
    · exact Lanes.mirrors_below.mpr fun _ _ => rfl
    · intro position
      exact Lanes.mirrors_below.mpr (sharedGlobals position)
    · intro position _ _
      exact Lanes.mirrors_below.mpr (shared position)
  exact mirrors.entered (Nat.le_of_eq (Nat.zero_add _)) (by omega)

theorem matched_start (known : function ∈ program.functions)
    {registers others : RegisterFile stackCapacity}
    {globals otherGlobals : RegisterFile globalCapacity}
    (shared : SharesLanes lanes registers others)
    (sharedGlobals : SharesLanes lanes globals otherGlobals) :
    Matched (Paired program function lanes) (start function lanes registers globals)
      (start function lanes others otherGlobals) := by
  unfold start
  rw [enter_eq, enter_eq]
  split
  · rename_i room
    exact paired_entered known (by omega) shared sharedGlobals
  · exact rfl

/--
Padding lanes are inert.  Calls of a function on machines whose registers and
globals hold the same values in the lanes of the elements are refused alike,
or run without a difference that the host, the path or the results could show.
-/
theorem padding_is_inert (batch : Batch σ) (function : Function)
    (known : function ∈ batch.program.functions) (lanes : Nat)
    (registers others : RegisterFile stackCapacity)
    (globals otherGlobals : RegisterFile globalCapacity)
    (shared : SharesLanes lanes registers others)
    (sharedGlobals : SharesLanes lanes globals otherGlobals) :
    Matched (Indistinguishable batch function lanes)
      (start function lanes registers globals)
      (start function lanes others otherGlobals) :=
  (matched_start known shared sharedGlobals).mono fun _ _ paired => paired.indistinguishable

/-- A function that passes its argument through `echo` and asks the host about it. -/
def consult : Function where
  name := "consult"
  parameterCount := 1
  stackCount := 2
  returnCount := 1
  parameters := [{ slotCount := 1 }]
  code := (Instruction.compute (.reserve 1)).encode ++
    (Instruction.load .local 1 0).encode ++ (Instruction.branchIfAllFalse 10).encode ++
    (Instruction.call 0).encode ++ (Instruction.compute (.pop 1)).encode ++
    (Instruction.callExternal 1 1 0).encode ++ (Instruction.ret 1).encode

/-- A register file that holds a single register. -/
def holding (words : List Word) : RegisterFile stackCapacity :=
  (RegisterFile.blank stackCapacity).overwrite 0 [packWords words]

theorem register_holding (words : List Word) (position : Nat) :
    (holding words).register position =
      if position = 0 then packWords words
      else (RegisterFile.blank stackCapacity).register position := by
  unfold holding
  rw [RegisterFile.register_overwrite _ _ _ (show 0 + 1 ≤ stackCapacity by decide)]
  cases position with
  | zero =>
      rfl
  | succ position =>
      rw [if_neg (by simp), if_neg (Nat.succ_ne_zero position)]

/-- The programs of `echo` and `consult`, with a host that answers with zeros. -/
def consultation : Batch Unit where
  program := { functions := [Linked.echo, consult] }
  externals := [{ call := fun _ _ width => return Vector.replicate width 0 }]
  uniforms := []
  firstElement := 0

/-- A call of `consult` for one element, with and without a stray value beside it. -/
theorem padding_is_inert_consult :
    SharesLanes 1 (holding [7]) (holding [7, 9]) ∧
      (holding [7]).register 0 ≠ (holding [7, 9]).register 0 ∧
      ∃ left right, start consult 1 (holding [7]) (.blank globalCapacity) = .ok left ∧
        start consult 1 (holding [7, 9]) (.blank globalCapacity) = .ok right ∧
        left.requests consultation 9 () = [⟨0, .call, 0, [7], 1⟩] ∧
        Indistinguishable consultation consult 1 left right := by
  have shared : SharesLanes 1 (holding [7]) (holding [7, 9]) := by
    intro position lane small
    rw [register_holding, register_holding]
    have lowest : lane = 0 := Fin.ext (Nat.lt_one_iff.mp small)
    subst lowest
    split <;> rfl
  have started : start consult 1 (holding [7]) (.blank globalCapacity) =
      .ok ((idle consult 1 (holding [7]) (.blank globalCapacity)).entered consult 0) := by
    unfold start
    rw [enter_eq, if_pos (by decide)]
  have inert := padding_is_inert consultation consult (by decide) 1 _ _
    (.blank globalCapacity) (.blank globalCapacity) shared (fun _ _ _ => rfl)
  rw [started] at inert
  obtain ⟨right, began, alike⟩ := inert.of_ok
  refine ⟨shared, ?_, _, right, started, began, ?_, alike⟩
  · rw [register_holding, register_holding]
    decide
  · decide +kernel

/-! ## Batches -/

/-- Arguments that are the same in the lanes of the elements. -/
def ArgumentsShare (lanes : Nat) (arguments others : List Register) : Prop :=
  List.Forall₂ (fun register other => ∀ lane : Lane, lane.val < lanes →
    other.get lane = register.get lane) arguments others

theorem sharesLanes_overwrite {arguments others : List Register}
    (share : ArgumentsShare lanes arguments others)
    (inside : 0 + arguments.length ≤ stackCapacity) :
    SharesLanes lanes ((RegisterFile.blank stackCapacity).overwrite 0 arguments)
      ((RegisterFile.blank stackCapacity).overwrite 0 others) := by
  intro position lane small
  have lengths := share.length_eq
  rw [RegisterFile.register_overwrite _ _ _ inside,
    RegisterFile.register_overwrite _ _ _ (by rw [← lengths]; exact inside), ← lengths]
  split
  · rename_i within
    have before : position - 0 < arguments.length := by omega
    have after : position - 0 < others.length := by omega
    rw [List.getD_eq_getElem _ _ before, List.getD_eq_getElem _ _ after]
    exact share.get before after lane small
  · rfl

/-- Calls whose arguments are the same in the lanes of the elements start alike. -/
theorem matched_boot (known : function ∈ program.functions)
    (inputs : Option (List Word)) {arguments others : List Register}
    (share : ArgumentsShare lanes arguments others) :
    Matched (Paired program function lanes)
      (boot program function lanes inputs arguments)
      (boot program function lanes inputs others) := by
  rw [boot_eq_start, boot_eq_start]
  cases program.seed (inputs.getD []) with
  | error failure =>
      exact rfl
  | ok globals =>
      have lengths := share.length_eq
      by_cases inside : 0 + arguments.length ≤ stackCapacity
      · rw [RegisterFile.writeRun_of_le _ inside,
          RegisterFile.writeRun_of_le _ (by rw [← lengths]; exact inside)]
        exact matched_start known (sharesLanes_overwrite share inside) fun _ _ _ => rfl
      · unfold RegisterFile.writeRun
        rw [if_neg inside, if_neg (by rw [← lengths]; exact inside)]
        exact rfl

end Machine

/--
What the arguments of a batch hold in padding lanes makes no difference to the
host, nor to what the batch gives in the lanes of its elements.
-/
theorem Linked.runBatch_alike {linked : Linked σ} {function : Function}
    (known : function ∈ linked.program.functions) (budget : Nat) (invocation : Invocation)
    (firstElement lanes : Nat) {arguments others : List Register}
    (share : Machine.ArgumentsShare lanes arguments others) (host : σ) :
    ((linked.runBatch budget invocation function firstElement lanes others).run host).2 =
        ((linked.runBatch budget invocation function firstElement lanes
          arguments).run host).2 ∧
      Machine.EndsAlike function lanes
        ((linked.runBatch budget invocation function firstElement lanes
          arguments).run host).1
        ((linked.runBatch budget invocation function firstElement lanes
          others).run host).1 := by
  have matched := Machine.matched_boot known invocation.inputs share
  unfold runBatch launch
  cases booted : Machine.boot linked.program function lanes invocation.inputs arguments with
  | error failure =>
      rw [booted] at matched
      rw [matched.of_error]
      exact ⟨rfl, rfl⟩
  | ok left =>
      rw [booted] at matched
      obtain ⟨right, began, paired⟩ := matched.of_ok
      have alike : Machine.Paired (linked.batch invocation firstElement).program function
          lanes left right := paired
      rw [began]
      exact alike.runAt_alike budget host

end Lockstep
