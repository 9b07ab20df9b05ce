import Lockstep.Proofs.Predication
import Lockstep.Proofs.Slots
import Mathlib.Data.List.Forall2

/-!
# Machines that mirror each other

Two machines run the same code on different lanes: a lane of the first machine
may have an image, a lane of the second one.  Registers, masks and predicates
mirror each other if every lane holds what its image holds.

Machines mirror each other if they stand at the same place with stacks of the
same height, and if their predicates, their globals and those registers of
their stacks that a condition calls clean do.  Each operation on the stack, on
the slots and on the predicates takes machines that mirror each other to
machines that mirror each other, and fails in both or in neither, as far as
the failing lane has an image.  An operation reads clean registers only: the
operands that it takes and, for slots, the frame of the running function.
-/

namespace Lockstep

/-! ## Registers and masks -/

/-- Every lane holds what its image holds. -/
def Lanes.Mirrors {α : Type} (image : Lane → Option Lane) (left right : Lanes α) : Prop :=
  ∀ lane target, image lane = some target → right.get target = left.get lane

/-- The lanes of the second mask are the images of the lanes of the first, in order. -/
def Lanes.Covers (image : Lane → Option Lane) (left right : Mask) : Prop :=
  right.active = left.active.filterMap image

/-- Registers that mirror each other, one by one. -/
abbrev MirroredRun (image : Lane → Option Lane) : List Register → List Register → Prop :=
  List.Forall₂ (Lanes.Mirrors image)

variable {σ α : Type} {image : Lane → Option Lane}

namespace Lanes.Mirrors

theorem splat (entry : α) :
    (Lanes.splat entry).Mirrors image (Lanes.splat entry) := by
  intro lane target _
  rw [get_splat, get_splat]

theorem both {first second other another : Mask}
    (left : first.Mirrors image second) (right : other.Mirrors image another) :
    (first.both other).Mirrors image (second.both another) := by
  intro lane target mapped
  rw [get_both, get_both, left lane target mapped, right lane target mapped]

theorem either {first second other another : Mask}
    (left : first.Mirrors image second) (right : other.Mirrors image another) :
    (first.either other).Mirrors image (second.either another) := by
  intro lane target mapped
  rw [get_either, get_either, left lane target mapped, right lane target mapped]

theorem complement {first second : Mask} (mirrors : first.Mirrors image second) :
    first.complement.Mirrors image second.complement := by
  intro lane target mapped
  rw [get_complement, get_complement, mirrors lane target mapped]

theorem truthy {first second : Register} (mirrors : first.Mirrors image second) :
    first.truthy.Mirrors image second.truthy := by
  intro lane target mapped
  rw [get_truthy, get_truthy, mirrors lane target mapped]

theorem select {mask answerMask : Mask} {chosen other answerChosen answerOther : Register}
    (masks : mask.Mirrors image answerMask)
    (first : chosen.Mirrors image answerChosen)
    (second : other.Mirrors image answerOther) :
    (Lanes.select mask chosen other).Mirrors image
      (Lanes.select answerMask answerChosen answerOther) := by
  intro lane target mapped
  rw [get_select, get_select, masks lane target mapped, first lane target mapped,
    second lane target mapped]

end Lanes.Mirrors

namespace MirroredRun

theorem laneWords_eq {left right : List Register} (run : MirroredRun image left right)
    {lane target : Lane} (mapped : image lane = some target) :
    laneWords right target = laneWords left lane := by
  induction run with
  | nil =>
      rfl
  | cons mirrors _ induction =>
      simp only [laneWords, List.map_cons, mirrors lane target mapped]
      exact congrArg _ induction

theorem getElem {left right : List Register} (run : MirroredRun image left right)
    {step : Nat} (inLeft : step < left.length) (inRight : step < right.length) :
    left[step].Mirrors image right[step] :=
  run.get inLeft inRight

theorem getD {left right : List Register} (run : MirroredRun image left right)
    (step : Nat) :
    (left.getD step .zero).Mirrors image (right.getD step .zero) := by
  induction run generalizing step with
  | nil =>
      exact Lanes.Mirrors.splat 0
  | cons mirrors _ induction =>
      cases step with
      | zero =>
          exact mirrors
      | succ step =>
          exact induction step

theorem of_getElem {left right : List Register} (same : left.length = right.length)
    (each : ∀ step (inLeft : step < left.length) (inRight : step < right.length),
      left[step].Mirrors image right[step]) :
    MirroredRun image left right :=
  List.forall₂_iff_get.mpr ⟨same, each⟩

theorem zipWith {first second firstAnswer secondAnswer : List Register}
    {combine answerCombine : Register → Register → Register}
    (left : MirroredRun image first firstAnswer)
    (right : MirroredRun image second secondAnswer)
    (combined : ∀ a b c d, Lanes.Mirrors image a c → Lanes.Mirrors image b d →
      (combine a b).Mirrors image (answerCombine c d)) :
    MirroredRun image (List.zipWith combine first second)
      (List.zipWith answerCombine firstAnswer secondAnswer) := by
  induction left generalizing second secondAnswer with
  | nil =>
      simp
  | cons head _ induction =>
      cases right with
      | nil =>
          simp
      | cons other rest =>
          exact .cons (combined _ _ _ _ head other) (induction rest)

/-- Runs of register files that mirror each other. -/
theorem ofRuns {capacity : Nat} {left right : RegisterFile capacity} {start count : Nat}
    (each : ∀ step, step < count →
      (left.register (start + step)).Mirrors image (right.register (start + step))) :
    MirroredRun image (left.run start count) (right.run start count) := by
  refine of_getElem ?_ ?_
  · rw [RegisterFile.length_run, RegisterFile.length_run]
  · intro step inLeft inRight
    rw [RegisterFile.getElem_run, RegisterFile.getElem_run]
    rw [RegisterFile.length_run] at inLeft
    exact each step inLeft

/-- A kernel gives results that mirror each other. -/
theorem applied {left right results answers : List Register} {kernel : Kernel}
    (run : MirroredRun image left right) (given : kernel.apply left = some results)
    (answered : kernel.apply right = some answers) : MirroredRun image results answers := by
  obtain ⟨counted, columns⟩ := lanewise_eq_some given
  obtain ⟨countedAnswers, answerColumns⟩ := lanewise_eq_some answered
  refine of_getElem (counted.trans countedAnswers.symm) ?_
  intro step inLeft inRight lane target mapped
  obtain ⟨column, found, entries⟩ := columns lane
  obtain ⟨other, foundAnswer, answerEntries⟩ := answerColumns target
  rw [run.laneWords_eq mapped, found] at foundAnswer
  rw [entries step inLeft, answerEntries step inRight, Option.some.inj foundAnswer]

end MirroredRun

/-- Checks of entries that correspond to each other. -/
theorem Follows.forM_pairs {entries answers : List Register}
    {check answerCheck : Register → Except Failure Unit}
    (run : MirroredRun image entries answers)
    (each : ∀ entry answer, Lanes.Mirrors image entry answer →
      Follows image (fun _ _ => True) (check entry) (answerCheck answer)) :
    Follows image (fun _ _ => True) (entries.forM check) (answers.forM answerCheck) := by
  induction run with
  | nil =>
      exact ⟨⟨⟩, rfl, trivial⟩
  | cons mirrors _ induction =>
      exact Follows.bind (each _ _ mirrors) fun _ _ _ => induction

/-! ## Predicates -/

/-- Scopes that mirror each other. -/
structure Scope.Mirrors (image : Lane → Option Lane) (left right : Scope) : Prop where
  condition : left.condition.Mirrors image right.condition
  mask : left.mask.Mirrors image right.mask

/-- Loops that mirror each other. -/
structure Loop.Mirrors (image : Lane → Option Lane) (left right : Loop) : Prop where
  running : left.running.Mirrors image right.running
  parked : left.parked.Mirrors image right.parked

namespace Predicates

/-- Predicates that mirror each other, scope by scope and loop by loop. -/
structure Mirrors (image : Lane → Option Lane) (left right : Predicates) : Prop where
  occupied : left.occupied.Mirrors image right.occupied
  scopes : List.Forall₂ (Scope.Mirrors image) left.scopes right.scopes
  loops : List.Forall₂ (Loop.Mirrors image) left.loops right.loops

/-- Operations on predicates with conditions that mirror each other. -/
def Action.Mirrors (image : Lane → Option Lane) : Action → Action → Prop
  | .maskPush left, .maskPush right => left.Mirrors image right
  | .loopMask left, .loopMask right => left.Mirrors image right
  | left, right => left = right

theorem maskWithin_mirrors {left right : List Scope} {occupied answerOccupied : Mask}
    (elements : occupied.Mirrors image answerOccupied)
    (scopes : List.Forall₂ (Scope.Mirrors image) left right) :
    (maskWithin occupied left).Mirrors image (maskWithin answerOccupied right) := by
  cases scopes with
  | nil =>
      exact elements
  | cons innermost _ =>
      exact innermost.mask

theorem runningWithin_mirrors {left right : List Loop}
    (loops : List.Forall₂ (Loop.Mirrors image) left right) :
    (runningWithin left).Mirrors image (runningWithin right) := by
  cases loops with
  | nil =>
      exact Lanes.Mirrors.splat true
  | cons innermost _ =>
      exact innermost.running

theorem Mirrors.live {left right : Predicates} (mirrors : left.Mirrors image right) :
    left.live.Mirrors image right.live :=
  (maskWithin_mirrors mirrors.occupied mirrors.scopes).both
    (runningWithin_mirrors mirrors.loops)

theorem checkRoom_follows {stack : MaskStack} {depth : Nat} :
    Follows image (fun _ _ => True) (checkRoom stack depth) (checkRoom stack depth) := by
  unfold checkRoom
  split
  · exact Follows.of_related trivial
  · exact Follows.of_shared rfl

theorem maskBlend_follows {left right : Predicates} (mirrors : left.Mirrors image right) :
    Follows image
      (fun value answer => value.1.Mirrors image answer.1 ∧
        value.2.Mirrors image answer.2 ∧
        ∃ scope outer, left.scopes = scope :: outer ∧ value.1 = scope.condition)
      left.maskBlend right.maskBlend := by
  rcases left with ⟨occupied, scopes, loops⟩
  rcases right with ⟨answerOccupied, answerScopes, answerLoops⟩
  rcases mirrors with ⟨elements, scopes, loops⟩
  cases scopes with
  | nil =>
      exact Follows.of_shared rfl
  | cons innermost outer =>
      exact Follows.of_related
        ⟨innermost.condition, ⟨elements, outer, loops⟩, _, _, rfl, rfl⟩

/-- Lanes that have left a loop do not depend on what keeps the others in it. -/
theorem loopMask_follows {left right : Predicates} (mirrors : left.Mirrors image right)
    {keep answerKeep : Mask}
    (agree : ∀ lane target, image lane = some target →
      left.running.get lane = true → answerKeep.get target = keep.get lane) :
    Follows image (Mirrors image) (left.loopMask keep) (right.loopMask answerKeep) := by
  rcases left with ⟨occupied, scopes, loops⟩
  rcases right with ⟨answerOccupied, answerScopes, answerLoops⟩
  rcases mirrors with ⟨elements, scopes, loops⟩
  cases loops with
  | nil =>
      exact Follows.of_shared rfl
  | @cons loop answer _ _ innermost outer =>
      refine Follows.of_related ⟨elements, scopes, .cons ⟨?_, innermost.parked⟩ outer⟩
      intro lane target mapped
      rw [Lanes.get_both, Lanes.get_both, innermost.running lane target mapped]
      cases running : loop.running.get lane with
      | false =>
          rfl
      | true =>
          rw [agree lane target mapped running]

/-- Operations that mirror each other keep predicates that mirror each other. -/
theorem perform_follows {left right : Predicates} (mirrors : left.Mirrors image right)
    {action answer : Action} (actions : action.Mirrors image answer) :
    Follows image (Mirrors image) (left.perform action) (right.perform answer) := by
  have live := mirrors.live
  have running := runningWithin_mirrors mirrors.loops
  have mask := maskWithin_mirrors mirrors.occupied mirrors.scopes
  rcases left with ⟨occupied, scopes, loops⟩
  rcases right with ⟨answerOccupied, answerScopes, answerLoops⟩
  rcases mirrors with ⟨elements, scopes, loops⟩
  dsimp only at elements scopes loops mask running
  cases action with
  | maskPush condition =>
      cases answer with
      | maskPush answerCondition =>
          change Follows image _ (checkRoom .condition _ >>= _)
            (checkRoom .condition _ >>= _)
          dsimp only
          rw [← scopes.length_eq]
          refine checkRoom_follows.bind fun _ _ _ => ?_
          exact Follows.of_related
            ⟨elements, .cons ⟨actions, mask.both actions⟩ scopes, loops⟩
      | _ =>
          cases actions
  | loopMask keep =>
      cases answer with
      | loopMask answerKeep =>
          exact loopMask_follows ⟨elements, scopes, loops⟩ fun lane target mapped _ =>
            actions lane target mapped
      | _ =>
          cases actions
  | maskPop =>
      cases actions
      cases scopes with
      | nil =>
          exact Follows.of_shared rfl
      | cons innermost outer =>
          exact Follows.of_related ⟨elements, outer, loops⟩
  | maskNegate =>
      cases actions
      cases scopes with
      | nil =>
          exact Follows.of_shared rfl
      | cons innermost outer =>
          have around := maskWithin_mirrors elements outer
          exact Follows.of_related ⟨elements,
            .cons ⟨innermost.condition, around.both innermost.condition.complement⟩ outer,
            loops⟩
  | maskBlend =>
      cases actions
      cases scopes with
      | nil =>
          exact Follows.of_shared rfl
      | cons innermost outer =>
          exact Follows.of_related ⟨elements, outer, loops⟩
  | loopBegin =>
      cases actions
      change Follows image _ (checkRoom .parked _ >>= _) (checkRoom .parked _ >>= _)
      dsimp only
      rw [← loops.length_eq]
      refine checkRoom_follows.bind fun _ _ _ => ?_
      exact Follows.of_related
        ⟨elements, scopes, .cons ⟨running, .splat false⟩ loops⟩
  | loopNext =>
      cases actions
      cases loops with
      | nil =>
          exact Follows.of_shared rfl
      | cons innermost outer =>
          exact Follows.of_related ⟨elements, scopes,
            .cons ⟨innermost.running.either innermost.parked, .splat false⟩ outer⟩
  | loopEnd =>
      cases actions
      cases loops with
      | nil =>
          exact Follows.of_shared rfl
      | cons innermost outer =>
          exact Follows.of_related ⟨elements, scopes, outer⟩
  | loopBreak =>
      cases actions
      cases loops with
      | nil =>
          exact Follows.of_shared rfl
      | cons innermost outer =>
          exact Follows.of_related ⟨elements, scopes,
            .cons ⟨innermost.running.both live.complement, innermost.parked⟩ outer⟩
  | loopContinue =>
      cases actions
      cases loops with
      | nil =>
          exact Follows.of_shared rfl
      | cons innermost outer =>
          exact Follows.of_related ⟨elements, scopes,
            .cons ⟨innermost.running.both live.complement,
              innermost.parked.either live⟩ outer⟩

end Predicates

/-! ## Machines -/

namespace Machine

/-- Machines at the same place that agree on what is clean. -/
structure Mirrors (image : Lane → Option Lane) (clean : Nat → Prop)
    (left right : Machine) : Prop where
  top : right.top = left.top
  current : right.current = left.current
  callers : right.callers = left.callers
  predicates : left.predicates.Mirrors image right.predicates
  globals : ∀ position,
    (left.cell .global position).Mirrors image (right.cell .global position)
  locals : ∀ position, clean position → position < left.top →
    (left.cell .local position).Mirrors image (right.cell .local position)

/-- Those of the topmost registers that are operands are clean. -/
def Exposes (machine : Machine) (clean : Nat → Prop) (count : Nat) : Prop :=
  ∀ position, machine.top - count ≤ position → machine.current.floor ≤ position →
    position < machine.top → clean position

/-- The frame of the running function is clean. -/
def CleanFrame (machine : Machine) (clean : Nat → Prop) : Prop :=
  ∀ position, machine.current.base ≤ position →
    position < machine.current.floor → clean position

variable {clean : Nat → Prop} {left right : Machine} {batch : Batch σ}

theorem Mirrors.live (mirrors : left.Mirrors image clean right) :
    left.live.Mirrors image right.live :=
  mirrors.predicates.live

theorem Mirrors.fits (mirrors : left.Mirrors image clean right) (fits : left.Fits) :
    right.Fits where
  sized := by
    rw [mirrors.current]
    exact fits.sized
  frame := by
    rw [mirrors.current]
    exact fits.frame
  floor := by
    rw [mirrors.current, mirrors.top]
    exact fits.floor
  capacity := by
    rw [mirrors.top]
    exact fits.capacity

theorem Mirrors.mono {cleaner : Nat → Prop} (mirrors : left.Mirrors image clean right)
    (fewer : ∀ position, position < left.top → cleaner position → clean position) :
    left.Mirrors image cleaner right where
  top := mirrors.top
  current := mirrors.current
  callers := mirrors.callers
  predicates := mirrors.predicates
  globals := mirrors.globals
  locals := by
    intro position isClean below
    exact mirrors.locals position (fewer position below isClean) below

theorem Mirrors.drop (mirrors : left.Mirrors image clean right) (count : Nat) :
    (left.drop count).Mirrors image clean (right.drop count) where
  top := by
    change right.top - count = left.top - count
    rw [mirrors.top]
  current := mirrors.current
  callers := mirrors.callers
  predicates := mirrors.predicates
  globals := mirrors.globals
  locals := by
    intro position isClean below
    exact mirrors.locals position isClean (Nat.lt_of_lt_of_le below (Nat.sub_le _ _))

theorem Mirrors.withPredicates {predicates answer : Predicates}
    (mirrors : left.Mirrors image clean right)
    (replaced : predicates.Mirrors image answer) :
    { left with predicates := predicates }.Mirrors image clean
      { right with predicates := answer } where
  top := mirrors.top
  current := mirrors.current
  callers := mirrors.callers
  predicates := replaced
  globals := mirrors.globals
  locals := mirrors.locals

/-! ## Operands -/

theorem Mirrors.topmost (mirrors : left.Mirrors image clean right) {count : Nat}
    (exposed : left.Exposes clean count)
    (present : left.current.floor + count ≤ left.top) :
    MirroredRun image (left.topmost count) (right.topmost count) := by
  unfold Machine.topmost
  rw [mirrors.top]
  apply MirroredRun.ofRuns
  intro step inRange
  exact mirrors.locals _ (exposed _ (by omega) (by omega) (by omega)) (by omega)

theorem require_follows (mirrors : left.Mirrors image clean right) (count : Nat) :
    Follows image (fun _ _ => left.current.floor + count ≤ left.top)
      (left.require count) (right.require count) := by
  unfold require
  rw [mirrors.current, mirrors.top]
  split
  · exact Follows.of_related ‹_›
  · exact Follows.of_shared rfl

/-- Both machines look at their topmost operands, whatever these hold. -/
theorem peek_shared (fits : left.Fits) (mirrors : left.Mirrors image clean right)
    (count : Nat) :
    Follows image
      (fun operands answers => left.current.floor + count ≤ left.top ∧
        operands = left.topmost count ∧ answers = right.topmost count)
      (left.peek count) (right.peek count) := by
  refine Follows.bind (require_follows mirrors count) ?_
  intro _ _ present
  have capacity := fits.capacity
  rw [RegisterFile.readRun_of_le left.registers (by omega),
    RegisterFile.readRun_of_le right.registers (by rw [mirrors.top]; omega)]
  exact Follows.of_related ⟨present, rfl, rfl⟩

theorem peek_follows (fits : left.Fits) (mirrors : left.Mirrors image clean right)
    {count : Nat} (exposed : left.Exposes clean count) :
    Follows image
      (fun operands answers => left.current.floor + count ≤ left.top ∧
        operands = left.topmost count ∧ answers = right.topmost count ∧
        MirroredRun image operands answers)
      (left.peek count) (right.peek count) := by
  apply (peek_shared fits mirrors count).mono
  rintro _ _ ⟨present, rfl, rfl⟩
  exact ⟨present, rfl, rfl, mirrors.topmost exposed present⟩

/-- Both machines pop, whatever the operand holds. -/
theorem pop_shared (fits : left.Fits) (mirrors : left.Mirrors image clean right) :
    Follows image
      (fun popped answer => left.current.floor + 1 ≤ left.top ∧
        popped = (left.cell .local (left.top - 1), left.drop 1) ∧
        answer = (right.cell .local (right.top - 1), right.drop 1))
      left.pop right.pop := by
  refine Follows.bind (peek_shared fits mirrors 1) ?_
  rintro _ _ ⟨present, rfl, rfl⟩
  refine Follows.of_related ⟨present, ?_, ?_⟩
  · simp [Machine.topmost, RegisterFile.run, cell]
  · simp [Machine.topmost, RegisterFile.run, cell]

theorem pop_follows (fits : left.Fits) (mirrors : left.Mirrors image clean right)
    (exposed : left.Exposes clean 1) :
    Follows image
      (fun popped answer => left.current.floor + 1 ≤ left.top ∧
        popped = (left.cell .local (left.top - 1), left.drop 1) ∧
        answer = (right.cell .local (right.top - 1), right.drop 1) ∧
        popped.1.Mirrors image answer.1)
      left.pop right.pop := by
  apply (pop_shared fits mirrors).mono
  rintro _ _ ⟨present, rfl, rfl⟩
  refine ⟨present, rfl, rfl, ?_⟩
  rw [mirrors.top]
  exact mirrors.locals _ (exposed _ (by omega) (by omega) (by omega)) (by omega)

/-- Pushed registers that mirror each other where they are clean. -/
theorem Mirrors.pushed {results answers : List Register}
    (mirrors : left.Mirrors image clean right)
    (enough : left.top + results.length ≤ stackCapacity)
    (same : results.length = answers.length)
    (each : ∀ step (inLeft : step < results.length) (inRight : step < answers.length),
      clean (left.top + step) → results[step].Mirrors image answers[step]) :
    (left.pushed results).Mirrors image clean (right.pushed answers) := by
  have enoughRight : right.top + answers.length ≤ stackCapacity := by
    rw [mirrors.top, ← same]
    exact enough
  constructor
  · change right.top + answers.length = left.top + results.length
    rw [mirrors.top, same]
  · exact mirrors.current
  · exact mirrors.callers
  · exact mirrors.predicates
  · exact mirrors.globals
  · intro position isClean below
    by_cases lower : position < left.top
    · have lowerRight : position < right.top := by
        rw [mirrors.top]
        exact lower
      rw [cell_pushed left enough fun _ => lower,
        cell_pushed right enoughRight fun _ => lowerRight]
      exact mirrors.locals position isClean lower
    · obtain ⟨step, rfl⟩ := Nat.exists_eq_add_of_le (Nat.le_of_not_lt lower)
      have inLeft : step < results.length := by
        change left.top + step < left.top + results.length at below
        omega
      have inRight : step < answers.length := same ▸ inLeft
      change Lanes.Mirrors image
        ((left.registers.overwrite left.top results).register (left.top + step))
        ((right.registers.overwrite right.top answers).register (left.top + step))
      rw [RegisterFile.register_overwrite_add _ enough inLeft, ← mirrors.top,
        RegisterFile.register_overwrite_add _ enoughRight inRight]
      exact each step inLeft inRight isClean

theorem push_shared {results answers : List Register}
    (mirrors : left.Mirrors image clean right) (same : results.length = answers.length)
    (each : ∀ step (inLeft : step < results.length) (inRight : step < answers.length),
      clean (left.top + step) → results[step].Mirrors image answers[step]) :
    Follows image (Mirrors image clean) (left.push results) (right.push answers) := by
  rw [push_eq, push_eq, mirrors.top, ← same]
  split
  · rename_i enough
    exact Follows.of_related (mirrors.pushed enough same each)
  · exact Follows.of_shared rfl

theorem push_follows {results answers : List Register}
    (mirrors : left.Mirrors image clean right)
    (run : MirroredRun image results answers) :
    Follows image (Mirrors image clean) (left.push results) (right.push answers) :=
  push_shared mirrors run.length_eq fun _ inLeft inRight _ => run.getElem inLeft inRight

theorem compute_follows (fits : left.Fits) (mirrors : left.Mirrors image clean right)
    (kernel : Kernel) (exposed : left.Exposes clean kernel.operands) :
    Follows image (Mirrors image clean) (left.compute kernel) (right.compute kernel) := by
  refine Follows.bind (peek_follows fits mirrors exposed) ?_
  rintro _ _ ⟨_, rfl, rfl, run⟩
  have shared := @Kernel.isSome_apply_congr kernel _ _ run.length_eq
  cases given : kernel.apply (left.topmost kernel.operands) with
  | none =>
      have missing : kernel.apply (right.topmost kernel.operands) = none := by
        rw [given] at shared
        simpa using shared.symm
      rw [missing]
      exact Follows.of_shared rfl
  | some results =>
      rw [given] at shared
      obtain ⟨answers, answered⟩ := Option.isSome_iff_exists.mp shared.symm
      rw [answered]
      cases kernel.keep with
      | true =>
          exact push_follows mirrors (run.applied given answered)
      | false =>
          exact push_follows (mirrors.drop _) (run.applied given answered)

theorem checkDivisors_follows (covers : left.live.Covers image right.live)
    (operation : Division) {divisors answers : List Register}
    (run : MirroredRun image divisors answers) :
    Follows image (fun _ _ => True) (left.checkDivisors operation divisors)
      (right.checkDivisors operation answers) := by
  refine Follows.forM_pairs run ?_
  intro divisor answer mirrored
  rw [covers]
  apply Follows.forM_lanes
  · intro lane _ failure failed
    split at failed
    · cases failed
      rfl
    · cases failed
  · intro lane target mapped
    rw [mirrored lane target mapped]
    split
    · simp only [Follows, Failure.lane?, mapped, Option.some.injEq]
      rintro _ rfl
      rfl
    · exact Follows.of_related trivial

theorem divide_follows (fits : left.Fits) (mirrors : left.Mirrors image clean right)
    (covers : left.live.Covers image right.live) (operation : Division) (count : Nat)
    (exposed : left.Exposes clean (2 * count)) :
    Follows image (Mirrors image clean) (left.divide operation count)
      (right.divide operation count) := by
  refine Follows.bind (peek_follows fits mirrors exposed) ?_
  rintro _ _ ⟨_, rfl, rfl, run⟩
  have dividends := List.forall₂_take count run
  have divisors := List.forall₂_drop count run
  refine Follows.bind (checkDivisors_follows covers operation divisors) ?_
  intro _ _ _
  refine push_follows (mirrors.drop _) (MirroredRun.zipWith dividends divisors ?_)
  intro dividend divisor answer answerDivisor first second
  refine Lanes.Mirrors.select mirrors.live ?_ first
  intro lane target mapped
  rw [Lanes.get_ofFn, Lanes.get_ofFn, first lane target mapped,
    second lane target mapped]

/-! ## Slots -/

theorem limit_eq (mirrors : left.Mirrors image clean right) (space : Space) :
    batch.limit right space = batch.limit left space := by
  cases space with
  | «local» =>
      change right.current.frameSize = left.current.frameSize
      rw [mirrors.current]
  | global =>
      rfl
  | uniform =>
      rfl

theorem origin_eq (mirrors : left.Mirrors image clean right) (bank : Bank) :
    right.origin bank = left.origin bank := by
  cases bank with
  | «local» =>
      change right.current.base = left.current.base
      rw [mirrors.current]
  | global =>
      rfl

theorem Mirrors.slots (fits : left.Fits) (mirrors : left.Mirrors image clean right)
    (frame : left.CleanFrame clean) {space : Space} {slot count : Nat}
    (inside : slot + count ≤ batch.limit left space) :
    MirroredRun image (left.slots batch space slot count)
      (right.slots batch space slot count) := by
  cases space with
  | «local» =>
      change slot + count ≤ left.current.frameSize at inside
      have ends := fits.frame
      have floor := fits.floor
      unfold Machine.slots
      rw [mirrors.current]
      apply MirroredRun.ofRuns
      intro step inRange
      exact mirrors.locals _ (frame _ (by omega) (by omega)) (by omega)
  | global =>
      apply MirroredRun.ofRuns
      intro step _
      exact mirrors.globals (slot + step)
  | uniform =>
      apply List.forall₂_map_left_iff.mpr
      apply List.forall₂_map_right_iff.mpr
      exact List.forall₂_same.mpr fun word _ => Lanes.Mirrors.splat word

theorem load_follows (fits : left.Fits) (mirrors : left.Mirrors image clean right)
    (frame : left.CleanFrame clean) (space : Space) (count slot : Nat) :
    Follows image (Mirrors image clean) (left.load batch space count slot)
      (right.load batch space count slot) := by
  unfold load checkSlots
  rw [limit_eq mirrors]
  by_cases inside : slot + count ≤ batch.limit left space
  · have insideRight : slot + count ≤ batch.limit right space := by
      rw [limit_eq mirrors]
      exact inside
    have room : Follows image (fun _ _ => True) (left.room count) (right.room count) := by
      unfold room
      rw [mirrors.top]
      split
      · exact Follows.of_related trivial
      · exact Follows.of_shared rfl
    rw [if_pos inside, slotRun_of_le fits inside,
      slotRun_of_le (mirrors.fits fits) insideRight]
    refine room.bind fun _ _ _ => ?_
    exact push_follows mirrors (mirrors.slots fits frame inside)
  · rw [if_neg inside]
    exact Follows.of_shared rfl

/-- Machines whose slots have been changed alike. -/
theorem Mirrors.of_frame {left' right' : Machine}
    (mirrors : left.Mirrors image clean right)
    (leftFrame : left'.top = left.top ∧ left'.current = left.current ∧
      left'.callers = left.callers ∧ left'.predicates = left.predicates)
    (rightFrame : right'.top = right.top ∧ right'.current = right.current ∧
      right'.callers = right.callers ∧ right'.predicates = right.predicates)
    (cells : ∀ bank position,
      (bank = .local → clean position ∧ position < left.top) →
        (left'.cell bank position).Mirrors image (right'.cell bank position)) :
    left'.Mirrors image clean right' where
  top := by
    rw [leftFrame.1, rightFrame.1]
    exact mirrors.top
  current := by
    rw [leftFrame.2.1, rightFrame.2.1]
    exact mirrors.current
  callers := by
    rw [leftFrame.2.2.1, rightFrame.2.2.1]
    exact mirrors.callers
  predicates := by
    rw [leftFrame.2.2.2, rightFrame.2.2.2]
    exact mirrors.predicates
  globals := by
    intro position
    apply cells .global
    rintro ⟨⟩
  locals := by
    intro position isClean below
    rw [leftFrame.1] at below
    exact cells .local position fun _ => ⟨isClean, below⟩

theorem Mirrors.cell (mirrors : left.Mirrors image clean right) {bank : Bank}
    {position : Nat} (known : bank = .local → clean position ∧ position < left.top) :
    (left.cell bank position).Mirrors image (right.cell bank position) := by
  cases bank with
  | «local» =>
      exact mirrors.locals position (known rfl).1 (known rfl).2
  | global =>
      exact mirrors.globals position

/-- A run of slots written on the live lanes. -/
theorem Mirrors.stored {bank : Bank} {slot : Nat} {values answers : List Register}
    (mirrors : left.Mirrors image clean right) (run : MirroredRun image values answers)
    (inside : left.origin bank + slot + values.length ≤ bank.capacity) :
    (left.updated bank slot
        (fun before value => .select left.live value before) values).Mirrors image clean
      (right.updated bank slot
        (fun before value => .select right.live value before) answers) := by
  have same := run.length_eq
  have origin := origin_eq mirrors bank
  have insideRight : right.origin bank + slot + answers.length ≤ bank.capacity := by
    rw [origin, ← same]
    exact inside
  refine mirrors.of_frame
    ⟨updated_top, updated_current, updated_callers, updated_predicates⟩
    ⟨updated_top, updated_current, updated_callers, updated_predicates⟩ ?_
  intro other position known
  by_cases within : other = bank ∧ left.origin bank + slot ≤ position ∧
      position < left.origin bank + slot + values.length
  · rcases within with ⟨rfl, lower, upper⟩
    obtain ⟨step, rfl⟩ := Nat.exists_eq_add_of_le lower
    have before := mirrors.cell known
    rw [cell_updated_of_lt inside (by omega)]
    rw [← origin] at before ⊢
    rw [cell_updated_of_lt insideRight (by omega)]
    exact Lanes.Mirrors.select mirrors.live
      (run.getElem (by omega) (by omega)) before
  · have outside : other = bank → position < left.origin bank + slot ∨
        left.origin bank + slot + values.length ≤ position := by
      intro equal
      by_contra inRange
      exact within ⟨equal, by omega, by omega⟩
    rw [cell_updated_of_outside inside outside]
    rw [← origin, same] at outside
    rw [cell_updated_of_outside insideRight outside]
    exact mirrors.cell known

theorem store_follows (fits : left.Fits) (mirrors : left.Mirrors image clean right)
    (bank : Bank) (count slot : Nat) (exposed : left.Exposes clean count) :
    Follows image (Mirrors image clean) (left.store batch bank count slot)
      (right.store batch bank count slot) := by
  unfold store checkSlots
  rw [limit_eq mirrors]
  by_cases inside : slot + count ≤ batch.limit left bank.space
  · have placed := (slots_inside fits inside).1
    rw [if_pos inside]
    refine Follows.bind (peek_follows fits mirrors exposed) ?_
    rintro _ _ ⟨_, rfl, rfl, run⟩
    have placedLeft : left.origin bank + slot + (left.topmost count).length ≤
        bank.capacity := by
      rw [length_topmost]
      exact placed
    have placedRight : right.origin bank + slot + (right.topmost count).length ≤
        bank.capacity := by
      rw [length_topmost, origin_eq mirrors]
      exact placed
    rw [updateRun_of_le placedLeft, updateRun_of_le placedRight]
    exact Follows.of_related ((mirrors.stored run placedLeft).drop count)
  · rw [if_neg inside]
    exact Follows.of_shared rfl

theorem checkIndices_follows (covers : left.live.Covers image right.live)
    (opcode : Opcode) (space : Space) {index answer : Register}
    (mirrored : index.Mirrors image answer) (count limit : Nat) :
    Follows image (fun _ _ => left.IndicesInside index count limit)
      (left.checkIndices opcode space index count limit)
      (right.checkIndices opcode space answer count limit) := by
  have checked := checkIndices_yields left opcode space index count limit
  have follows : Follows image (fun _ _ => True)
      (left.checkIndices opcode space index count limit)
      (right.checkIndices opcode space answer count limit) := by
    unfold checkIndices
    rw [covers]
    apply Follows.forM_lanes
    · intro lane _ failure failed
      dsimp only at failed
      split at failed
      · cases failed
      · cases failed
        rfl
    · intro lane target mapped
      dsimp only
      rw [mirrored lane target mapped]
      split
      · exact Follows.of_related trivial
      · simp only [Follows, Failure.lane?, mapped, Option.some.injEq]
        rintro _ rfl
        rfl
  cases outcome : left.checkIndices opcode space index count limit with
  | ok done =>
      obtain ⟨answered, same, _⟩ := follows.of_ok outcome
      exact ⟨answered, same, checked.of_ok outcome⟩
  | error failure =>
      rw [outcome] at follows
      exact follows

/-- Indexed loads of indices that mirror each other. -/
theorem Mirrors.gathered (fits : left.Fits) (mirrors : left.Mirrors image clean right)
    (frame : left.CleanFrame clean) {space : Space} {count : Nat}
    {index answer : Register} (mirrored : index.Mirrors image answer)
    (inside : left.IndicesInside index count (batch.limit left space)) :
    MirroredRun image (left.gathered batch space count index)
      (right.gathered batch space count answer) := by
  refine MirroredRun.of_getElem ?_ ?_
  · rw [length_gathered, length_gathered]
  · intro step inLeft inRight lane target mapped
    rw [get_gathered, get_gathered, mirrors.live lane target mapped,
      mirrored lane target mapped]
    split
    · rename_i live
      have run := mirrors.slots fits frame (inside lane live)
      rw [run.laneWords_eq mapped]
    · rfl

theorem scratch_follows (count : Nat) :
    Follows image (fun _ _ => True) (scratch count) (scratch count) := by
  unfold scratch
  split
  · exact Follows.of_related trivial
  · exact Follows.of_shared rfl

theorem gather_follows (fits : left.Fits) (mirrors : left.Mirrors image clean right)
    (covers : left.live.Covers image right.live) (frame : left.CleanFrame clean)
    (space : Space) (count : Nat) (exposed : left.Exposes clean 1) :
    Follows image (Mirrors image clean) (left.gather batch space count)
      (right.gather batch space count) := by
  rw [gather_eq fits, gather_eq (mirrors.fits fits)]
  refine Follows.bind (pop_follows fits mirrors exposed) ?_
  rintro _ _ ⟨_, rfl, rfl, mirrored⟩
  rw [limit_eq mirrors]
  refine Follows.bind
    (checkIndices_follows covers (.gather space) space mirrored count _) ?_
  intro _ _ inside
  refine Follows.bind (scratch_follows count) fun _ _ _ => ?_
  exact push_follows (mirrors.drop 1) (mirrors.gathered fits frame mirrored inside)

/-- Indexed stores of indices and values that mirror each other. -/
theorem Mirrors.scattered (fits : left.Fits) (mirrors : left.Mirrors image clean right)
    (bank : Bank) {index answer : Register} {values answers : List Register}
    (mirrored : index.Mirrors image answer) (run : MirroredRun image values answers)
    (covers : left.live.Covers image right.live)
    (inside : left.IndicesInside index values.length (batch.limit left bank.space)) :
    (left.live.active.foldl (scatterLane bank index values) left).Mirrors image clean
      (right.live.active.foldl (scatterLane bank answer answers) right) := by
  have same := run.length_eq
  have origin := origin_eq mirrors bank
  have insideLeft : ∀ lane ∈ left.live.active,
      left.origin bank + indexSlot (index.get lane) + values.length ≤ bank.capacity := by
    intro lane active
    exact (slots_inside fits (inside lane ((Lanes.mem_active _ _).mp active))).1
  have insideRight : ∀ lane ∈ right.live.active,
      right.origin bank + indexSlot (answer.get lane) + answers.length ≤
        bank.capacity := by
    intro target active
    rw [covers, List.mem_filterMap] at active
    rcases active with ⟨lane, active, mapped⟩
    rw [origin, ← same, mirrored lane target mapped]
    exact insideLeft lane active
  refine mirrors.of_frame (foldl_scatterLane_frame _ left)
    (foldl_scatterLane_frame _ right) ?_
  intro other position known lane target mapped
  have addressed :
      right.scatterCells bank answer answers.length right.live.active other position
          target ↔
        left.scatterCells bank index values.length left.live.active other position
          lane := by
    unfold scatterCells
    rw [Lanes.mem_active, Lanes.mem_active, mirrors.live lane target mapped, origin,
      mirrored lane target mapped, same]
  rw [get_cell_scattered insideLeft, get_cell_scattered insideRight]
  by_cases hit : left.scatterCells bank index values.length left.live.active other
      position lane
  · rw [if_pos hit, if_pos (addressed.mpr hit), origin, mirrored lane target mapped]
    exact run.getD _ lane target mapped
  · rw [if_neg hit, if_neg fun met => hit (addressed.mp met)]
    exact mirrors.cell known lane target mapped

theorem scatter_follows (fits : left.Fits) (mirrors : left.Mirrors image clean right)
    (covers : left.live.Covers image right.live) (bank : Bank) (count : Nat)
    (exposed : left.Exposes clean (count + 1)) :
    Follows image (Mirrors image clean) (left.scatter batch bank count)
      (right.scatter batch bank count) := by
  rw [scatter_eq fits, scatter_eq (mirrors.fits fits)]
  have topmost : left.Exposes clean 1 := by
    intro position above
    exact exposed position (by omega)
  refine Follows.bind (pop_follows fits mirrors topmost) ?_
  rintro _ _ ⟨present, rfl, rfl, mirrored⟩
  rw [limit_eq mirrors]
  refine Follows.bind
    (checkIndices_follows covers (.scatter bank) bank.space mirrored count _) ?_
  intro _ _ inside
  have belowExposed : (left.drop 1).Exposes clean count := by
    intro position above operand below
    change left.top - 1 - count ≤ position at above
    change position < left.top - 1 at below
    exact exposed position (by omega) operand (by omega)
  refine Follows.bind (peek_follows (fits.drop present) (mirrors.drop 1) belowExposed) ?_
  rintro _ _ ⟨_, rfl, rfl, run⟩
  refine Follows.of_related (Mirrors.drop ?_ count)
  apply (mirrors.drop 1).scattered (fits.drop present) bank mirrored run covers
  rw [length_topmost]
  exact inside

theorem clampIndex_follows (fits : left.Fits) (mirrors : left.Mirrors image clean right)
    (covers : left.live.Covers image right.live) (length : Nat)
    (exposed : left.Exposes clean 1) :
    Follows image (Mirrors image clean) (left.clampIndex length)
      (right.clampIndex length) := by
  refine Follows.bind (peek_follows fits mirrors exposed) ?_
  rintro _ _ ⟨_, rfl, rfl, run⟩
  have mirrored : Lanes.Mirrors image ((left.topmost 1).headD .zero)
      ((right.topmost 1).headD .zero) := by
    have first := run.getElem (by simp) (by simp : 0 < _)
    simpa [Machine.topmost, RegisterFile.run] using first
  have checks : Follows image (fun _ _ => True) _ _ :=
    @Follows.forM_lanes image left.live.active
      (fun lane =>
        let position := signedIndex (((left.topmost 1).headD .zero).get lane)
        if 0 ≤ position.toInt ∧ position.toInt < length then .ok ()
        else .error (.fault (.bounds (.index position lane length))))
      (fun lane =>
        let position := signedIndex (((right.topmost 1).headD .zero).get lane)
        if 0 ≤ position.toInt ∧ position.toInt < length then .ok ()
        else .error (.fault (.bounds (.index position lane length)))) (by
        intro lane _ failure failed
        dsimp only at failed
        split at failed
        · cases failed
        · cases failed
          rfl) (by
        intro lane target mapped
        dsimp only
        rw [mirrored lane target mapped]
        split
        · exact Follows.of_related trivial
        · simp only [Follows, Failure.lane?, mapped, Option.some.injEq]
          rintro _ rfl
          rfl)
  rw [covers]
  exact checks.bind fun _ _ _ => Follows.of_related mirrors

end Machine

end Lockstep
