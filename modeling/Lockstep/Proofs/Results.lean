import Lockstep.Failure
import Mathlib.Algebra.Group.Nat.Defs
import Mathlib.Order.Fin.Basic
import Mathlib.Tactic.Common

/-!
# Results that may be failures

Two ways of speaking about a result that may be a failure.  `Yields` says
what a single result can be: a value that satisfies a condition, or a failure
of an allowed sort.  `Follows` compares two results: the second gives a
related value whenever the first gives one, and fails in the same way whenever
the first fails, as far as the failure concerns it.

A failure may concern one lane only.  `Failure.lane?` names that lane and
`Failure.inLane` moves the failure to another lane.  Results are compared
along a partial map of lanes: a failure that concerns no lane in particular is
shared exactly, and a failure of a lane with an image recurs in the image.

Both notions pass through sequencing, so that a fact about an operation is
assembled from facts about its parts.
-/

namespace Lockstep

/-! ## Sequences -/

@[simp]
theorem ok_bind {α β : Type} (value : α) (next : α → Except Failure β) :
    ((.ok value : Except Failure α) >>= next) = next value :=
  rfl

/-- A check that either passes or refuses. -/
theorem ite_ok_iff {ε : Type} {condition : Prop} [Decidable condition] {refusal : ε} :
    (if condition then .ok () else .error refusal : Except ε Unit) = .ok () ↔
      condition := by
  by_cases holds : condition <;> simp [holds]

/-- A sequence that starts by refusing what meets a condition. -/
theorem guard_eq_ok {ε α : Type} {condition : Prop} [Decidable condition] {refusal : ε}
    {next : Unit → Except ε α} {value : α} :
    (if condition then (throw refusal >>= next : Except ε α) else next ()) = .ok value ↔
      ¬ condition ∧ next () = .ok value := by
  by_cases holds : condition
  · rw [if_pos holds]
    constructor
    · rintro ⟨⟩
    · rintro ⟨refused, _⟩
      exact absurd holds refused
  · rw [if_neg holds]
    exact ⟨fun passed => ⟨holds, passed⟩, fun both => both.2⟩

/-- A sequence gives a value if its parts do. -/
theorem bind_eq_ok {ε α β : Type} {first : Except ε α} {next : α → Except ε β} {value : β} :
    (first >>= next) = .ok value ↔ ∃ middle, first = .ok middle ∧ next middle = .ok value := by
  cases first with
  | ok middle =>
      constructor
      · intro passed
        exact ⟨middle, rfl, passed⟩
      · rintro ⟨_, ⟨⟩, passed⟩
        exact passed
  | error refusal =>
      constructor
      · rintro ⟨⟩
      · rintro ⟨_, ⟨⟩, _⟩

/-- A sequence that starts with a check. -/
theorem check_bind_eq_ok {ε α : Type} {check : Except ε Unit}
    {next : Unit → Except ε α} {value : α} :
    (check >>= next) = .ok value ↔ check = .ok () ∧ next () = .ok value := by
  cases check with
  | ok done =>
      exact ⟨fun passed => ⟨rfl, passed⟩, fun both => both.2⟩
  | error refusal =>
      constructor
      · rintro ⟨⟩
      · rintro ⟨⟨⟩, _⟩

/-- A sequence that starts by comparing a number that may be left out. -/
theorem guard_option_eq_ok {ε α : Type} {given : Option Nat} {wanted : Nat}
    {refusal : Nat → ε} {next : Unit → Except ε α} {value : α} :
    (match given with
      | some number =>
          if number ≠ wanted then (throw (refusal number) >>= next : Except ε α)
          else next ()
      | _ => next ()) = .ok value ↔
      (∀ number, given = some number → number = wanted) ∧ next () = .ok value := by
  cases given with
  | none =>
      simp
  | some number =>
      simp only [guard_eq_ok, Decidable.not_not, Option.some.injEq]
      constructor
      · rintro ⟨rfl, passed⟩
        exact ⟨fun _ same => same.symm, passed⟩
      · rintro ⟨same, passed⟩
        exact ⟨same number rfl, passed⟩

/-- A check that is made for each entry of a list passes if it passes for each. -/
theorem forM_eq_ok {ε α : Type} {entries : List α} {check : α → Except ε Unit} :
    entries.forM check = .ok () ↔ ∀ entry ∈ entries, check entry = .ok () := by
  induction entries with
  | nil =>
      exact ⟨fun _ _ member => absurd member List.not_mem_nil, fun _ => rfl⟩
  | cons head tail induction =>
      rw [List.forall_mem_cons, ← induction]
      exact check_bind_eq_ok

/-! ## Failures of lanes -/

/-- The lane that a failure concerns, if it concerns only one. -/
def Failure.lane? : Failure → Option Lane
  | .fault (.arithmetic _ lane) => some lane
  | .fault (.bounds (.index _ lane _)) => some lane
  | .fault (.bounds (.laneIndex _ _ _ _ lane _)) => some lane
  | _ => none

/-- The same failure in another lane. -/
def Failure.inLane (target : Lane) : Failure → Failure
  | .fault (.arithmetic opcode _) => .fault (.arithmetic opcode target)
  | .fault (.bounds (.index position _ length)) =>
      .fault (.bounds (.index position target length))
  | .fault (.bounds (.laneIndex opcode space position count _ limit)) =>
      .fault (.bounds (.laneIndex opcode space position count target limit))
  | other => other

/-- Moving a failure to another lane keeps its kind. -/
@[simp]
theorem Failure.kind_inLane (failure : Failure) (target : Lane) :
    (failure.inLane target).report.kind = failure.report.kind := by
  unfold Failure.inLane
  split <;> rfl

/--
Whether a failure depends on what a machine holds while it runs: on its
operands, its open scopes and loops, its waiting activations, or its host.
The other failures can be read off the program.
-/
def Failure.runtime : Failure → Bool
  | .fault (.capacity (.stack _)) => true
  | .fault (.capacity (.scopes _)) => true
  | .fault (.capacity (.activation _ _ _)) => true
  | .fault (.capacity .calls) => true
  | .fault (.bounds (.index _ _ _)) => true
  | .fault (.bounds (.laneIndex _ _ _ _ _ _)) => true
  | .fault (.arithmetic _ _) => true
  | .fault (.bytecode (.underflow _ _)) => true
  | .fault (.bytecode (.noScope _)) => true
  | .fault (.bytecode (.noReturnSpace _)) => true
  | .fault (.unsupported _) => true
  | .external _ => true
  | _ => false

/-! ## Single results -/

section Yields

variable {α β : Type}

/-- A result is a value that satisfies a condition, or an allowed failure. -/
def Yields (allowed : Failure → Prop) (expected : α → Prop) :
    Except Failure α → Prop
  | .ok value => expected value
  | .error failure => allowed failure

namespace Yields

variable {allowed weaker : Failure → Prop}
variable {expected looser : α → Prop} {final : β → Prop}

@[simp]
theorem ok_iff (value : α) :
    Yields allowed expected (.ok value) ↔ expected value :=
  Iff.rfl

@[simp]
theorem pure_iff (value : α) :
    Yields allowed expected (pure value) ↔ expected value :=
  Iff.rfl

@[simp]
theorem error_iff (failure : Failure) :
    Yields allowed expected (.error failure) ↔ allowed failure :=
  Iff.rfl

@[simp]
theorem throw_iff (failure : Failure) :
    Yields allowed expected (throw failure) ↔ allowed failure :=
  Iff.rfl

/-- A result of a sequence comes from a result of its first part. -/
theorem bind {first : Except Failure α} {next : α → Except Failure β}
    (begun : Yields allowed expected first)
    (continued : ∀ value, expected value → Yields allowed final (next value)) :
    Yields allowed final (first >>= next) := by
  cases first with
  | ok value =>
      exact continued value begun
  | error failure =>
      exact begun

/-- Conditions and allowances may be relaxed. -/
theorem mono {result : Except Failure α}
    (given : Yields allowed expected result)
    (failures : ∀ failure, allowed failure → weaker failure)
    (values : ∀ value, expected value → looser value) :
    Yields weaker looser result := by
  cases result with
  | ok value =>
      exact values value given
  | error failure =>
      exact failures failure given

/-- The condition may be relaxed. -/
theorem relax {result : Except Failure α}
    (given : Yields allowed expected result)
    (values : ∀ value, expected value → looser value) :
    Yields allowed looser result :=
  given.mono (fun _ permitted => permitted) values

/-- More failures may be allowed. -/
theorem permit {result : Except Failure α}
    (given : Yields allowed expected result)
    (failures : ∀ failure, allowed failure → weaker failure) :
    Yields weaker expected result :=
  given.mono failures fun _ holds => holds

/-- The value of a successful result satisfies the condition. -/
theorem of_ok {result : Except Failure α} {value : α}
    (given : Yields allowed expected result) (succeeded : result = .ok value) :
    expected value := by
  subst succeeded
  exact given

/-- The failure of an unsuccessful result is allowed. -/
theorem of_error {result : Except Failure α} {failure : Failure}
    (given : Yields allowed expected result) (failed : result = .error failure) :
    allowed failure := by
  subst failed
  exact given

/-- A check that is made for each entry of a list. -/
theorem forM {entries : List α} {check : α → Except Failure Unit}
    (checked : ∀ entry ∈ entries, Yields allowed (fun _ => expected entry) (check entry)) :
    Yields allowed (fun _ => ∀ entry ∈ entries, expected entry)
      (entries.forM check) := by
  induction entries with
  | nil =>
      intro entry member
      exact absurd member List.not_mem_nil
  | cons head tail induction =>
      change Yields allowed _ (check head >>= fun _ => tail.forM check)
      apply bind (checked head List.mem_cons_self)
      intro _ headHolds
      apply relax
        (induction fun entry member =>
          checked entry (List.mem_cons_of_mem head member))
      intro _ tailHolds entry member
      rcases List.mem_cons.mp member with rfl | inTail
      · exact headHolds
      · exact tailHolds entry inTail

/-- Steps that are taken for each entry of a list, each keeping what is expected. -/
theorem foldlM {entries : List α} {step : β → α → Except Failure β} {start : β}
    {expected : β → Prop} (initially : expected start)
    (stepped : ∀ reached, expected reached → ∀ entry ∈ entries,
      Yields allowed expected (step reached entry)) :
    Yields allowed expected (entries.foldlM step start) := by
  induction entries generalizing start with
  | nil =>
      exact initially
  | cons head tail induction =>
      rw [List.foldlM_cons]
      apply bind (stepped start initially head List.mem_cons_self)
      intro reached holds
      apply induction holds
      intro later laterHolds entry member
      exact stepped later laterHolds entry (List.mem_cons_of_mem head member)

end Yields

end Yields

/-! ## Pairs of results -/

section Follows

variable {α β γ δ : Type}

/--
The second result does what the first one does: it gives a related value, or
it fails as the first one fails.  A failure that concerns one lane recurs in
the image of that lane; nothing is said if the lane has no image.
-/
def Follows (image : Lane → Option Lane) (related : α → β → Prop) :
    Except Failure α → Except Failure β → Prop
  | .ok value, follower => ∃ answer, follower = .ok answer ∧ related value answer
  | .error failure, follower =>
      match failure.lane? with
      | none => follower = .error failure
      | some lane =>
          ∀ target, image lane = some target →
            follower = .error (failure.inLane target)

namespace Follows

variable {image : Lane → Option Lane}
variable {related weaker : α → β → Prop} {final : γ → δ → Prop}

@[simp]
theorem ok_iff (value : α) (follower : Except Failure β) :
    Follows image related (.ok value) follower ↔
      ∃ answer, follower = .ok answer ∧ related value answer :=
  Iff.rfl

/-- Related values follow each other. -/
theorem of_related {value : α} {answer : β} (holds : related value answer) :
    Follows image related (.ok value) (.ok answer) :=
  ⟨answer, rfl, holds⟩

/-- A failure that concerns no lane in particular follows itself. -/
theorem of_shared {failure : Failure} (shared : failure.lane? = none) :
    Follows image related (.error failure : Except Failure α)
      (.error failure : Except Failure β) := by
  simp only [Follows, shared]

/-- The second result gives a related value whenever the first gives one. -/
theorem of_ok {leader : Except Failure α} {follower : Except Failure β} {value : α}
    (follows : Follows image related leader follower)
    (succeeded : leader = .ok value) :
    ∃ answer, follower = .ok answer ∧ related value answer := by
  subst succeeded
  exact follows

/-- The second result shares a failure that concerns no lane in particular. -/
theorem of_error {leader : Except Failure α} {follower : Except Failure β}
    {failure : Failure}
    (follows : Follows image related leader follower)
    (failed : leader = .error failure) (shared : failure.lane? = none) :
    follower = .error failure := by
  subst failed
  simpa only [Follows, shared] using follows

/-- The second result repeats the failure of a lane in the image of that lane. -/
theorem of_lane_error {leader : Except Failure α} {follower : Except Failure β}
    {failure : Failure} {lane target : Lane}
    (follows : Follows image related leader follower)
    (failed : leader = .error failure) (concerned : failure.lane? = some lane)
    (mapped : image lane = some target) :
    follower = .error (failure.inLane target) := by
  subst failed
  simp only [Follows, concerned] at follows
  exact follows target mapped

/-- Results that follow each other may be continued alike. -/
theorem bind {leader : Except Failure α} {follower : Except Failure β}
    {next : α → Except Failure γ} {answerNext : β → Except Failure δ}
    (begun : Follows image related leader follower)
    (continued : ∀ value answer, related value answer →
      Follows image final (next value) (answerNext answer)) :
    Follows image final (leader >>= next) (follower >>= answerNext) := by
  cases leader with
  | ok value =>
      rcases begun with ⟨answer, rfl, holds⟩
      exact continued value answer holds
  | error failure =>
      cases concerned : failure.lane? with
      | none =>
          have same := begun.of_error rfl concerned
          subst same
          exact of_shared concerned
      | some lane =>
          change Follows image final (.error failure) (follower >>= answerNext)
          simp only [Follows, concerned]
          intro target mapped
          have same := begun.of_lane_error rfl concerned mapped
          subst same
          rfl

/-- The relation between the values may be relaxed. -/
theorem mono {leader : Except Failure α} {follower : Except Failure β}
    (follows : Follows image related leader follower)
    (relaxed : ∀ value answer, related value answer → weaker value answer) :
    Follows image weaker leader follower := by
  cases leader with
  | ok value =>
      rcases follows with ⟨answer, rfl, holds⟩
      exact ⟨answer, rfl, relaxed value answer holds⟩
  | error failure =>
      exact follows

/--
Checks of lanes in order.  The second list of lanes is the image of the first,
and checks of a lane and of its image agree.
-/
theorem forM_lanes {lanes : List Lane}
    {check answerCheck : Lane → Except Failure Unit}
    (checked : ∀ lane ∈ lanes, ∀ failure, check lane = .error failure →
      failure.lane? = some lane)
    (agree : ∀ lane target, image lane = some target →
      Follows image (fun _ _ => True) (check lane) (answerCheck target)) :
    Follows image (fun _ _ => True) (lanes.forM check)
      ((lanes.filterMap image).forM answerCheck) := by
  induction lanes with
  | nil =>
      exact ⟨⟨⟩, rfl, trivial⟩
  | cons head tail induction =>
      have tailFollows := induction fun lane member =>
        checked lane (List.mem_cons_of_mem head member)
      change Follows image _ (check head >>= fun _ => tail.forM check) _
      cases mapped : image head with
      | some target =>
          rw [List.filterMap_cons_some mapped]
          change Follows image _ _
            (answerCheck target >>= fun _ => (tail.filterMap image).forM answerCheck)
          exact bind (agree head target mapped) fun _ _ _ => tailFollows
      | none =>
          rw [List.filterMap_cons_none mapped]
          cases outcome : check head with
          | ok value =>
              exact tailFollows
          | error failure =>
              have concerned := checked head List.mem_cons_self failure outcome
              change Follows image (fun _ _ => True) (.error failure) _
              simp only [Follows, concerned]
              intro target mappedAgain
              rw [mapped] at mappedAgain
              exact absurd mappedAgain (by simp)

end Follows

end Follows

end Lockstep
