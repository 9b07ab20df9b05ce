import Lockstep.Proofs.Invariant
import Lockstep.Proofs.Mirroring

/-!
# Steps of machines that mirror each other

An instruction that asks nothing of the host does the same under every host,
so its outcome is a matter of the machine alone: `Machine.carry`.  A batch
whose host is never asked is `Batch.silent`.

Machines that mirror each other carry out the same instruction in step.  Two
instructions look at all lanes at once, the conditional branch and the call:
for these, the machines have to agree on whether any lane is live.
-/

namespace Lockstep

variable {σ : Type} {image : Lane → Option Lane}

/-- Whether an instruction asks the host. -/
def Instruction.asksHost : Instruction → Bool
  | .callExternal _ _ _ => true
  | .readExternal _ _ => true
  | .writeExternal _ _ => true
  | _ => false

/-- Whether an instruction depends on whether any lane is live. -/
def Instruction.looksAround : Instruction → Bool
  | .branchIfAllFalse _ => true
  | .call _ => true
  | _ => false

/-- Whether an instruction goes on behind itself and chooses between no operands. -/
def Instruction.stays : Instruction → Bool
  | .branch _ => false
  | .branchIfAllFalse _ => false
  | .call _ => false
  | .ret _ => false
  | .maskBlend _ => false
  | .callExternal _ _ _ => false
  | .readExternal _ _ => false
  | .writeExternal _ _ => false
  | _ => true

/-- The batch without its host. -/
def Batch.silent (batch : Batch σ) : Batch Unit where
  program := batch.program
  externals := []
  uniforms := batch.uniforms
  firstElement := 0

/-- What corresponding steps lead to. -/
def Flow.Mirrors (image : Lane → Option Lane) (clean : Nat → Prop) : Flow → Flow → Prop
  | .next left, .next right => left.Mirrors image clean right
  | .done left returned, .done right answers =>
      left.Mirrors image clean right ∧ MirroredRun image returned answers
  | _, _ => False

namespace Machine

/-- The outcome of an instruction that does not ask the host. -/
def carry (batch : Batch σ) (instruction : Instruction) (machine : Machine) :
    Except Failure Flow :=
  ((machine.execute batch.silent instruction).at ()).1

theorem execute_at (batch : Batch σ) (host : σ) {instruction : Instruction}
    (quiet : instruction.asksHost = false) (machine : Machine) :
    (machine.execute batch instruction).at host =
      (machine.carry batch instruction, host) := by
  cases instruction with
  | callExternal arguments results external =>
      cases quiet
  | readExternal count external =>
      cases quiet
  | writeExternal count external =>
      cases quiet
  | shift operation amount =>
      unfold carry
      simp only [execute]
      cases checkShift operation amount <;> rfl
  | _ =>
      rfl

variable {clean : Nat → Prop} {left right : Machine} {batch : Batch σ}

/-! ## Predicates -/

theorem Follows.next {result answer : Except Failure Machine}
    (follows : Follows image (Mirrors image clean) result answer) :
    Follows image (Flow.Mirrors image clean) (result.map .next) (answer.map .next) :=
  Follows.bind follows fun _ _ mirrors => Follows.of_related mirrors

theorem withPredicates_follows (mirrors : left.Mirrors image clean right)
    {result answer : Except Failure Predicates}
    (follows : Follows image (Predicates.Mirrors image) result answer) :
    Follows image (Mirrors image clean) (left.withPredicates result)
      (right.withPredicates answer) :=
  Follows.bind follows fun _ _ replaced =>
    Follows.of_related (mirrors.withPredicates replaced)

theorem perform_follows (mirrors : left.Mirrors image clean right)
    (action : Predicates.Action) (same : action.Mirrors image action) :
    Follows image (Flow.Mirrors image clean)
      ((left.withPredicates (left.predicates.perform action)).map .next)
      ((right.withPredicates (right.predicates.perform action)).map .next) :=
  Follows.next (withPredicates_follows mirrors
    (Predicates.perform_follows mirrors.predicates same))

theorem openScope_follows (fits : left.Fits) (mirrors : left.Mirrors image clean right)
    (exposed : left.Exposes clean 1) :
    Follows image (Mirrors image clean) left.openScope right.openScope := by
  refine Follows.bind (pop_follows fits mirrors exposed) ?_
  rintro _ _ ⟨_, rfl, rfl, mirrored⟩
  have actions : Predicates.Action.Mirrors image
      (.maskPush (left.cell .local (left.top - 1)).truthy)
      (.maskPush (right.cell .local (right.top - 1)).truthy) := mirrored.truthy
  exact withPredicates_follows (mirrors.drop 1)
    (Predicates.perform_follows mirrors.predicates actions)

theorem narrowLoop_follows (fits : left.Fits) (mirrors : left.Mirrors image clean right)
    (agree : left.current.floor + 1 ≤ left.top →
      ∀ lane target, image lane = some target →
        left.predicates.running.get lane = true →
          (right.cell .local (left.top - 1)).get target =
            (left.cell .local (left.top - 1)).get lane) :
    Follows image (Mirrors image clean) left.narrowLoop right.narrowLoop := by
  refine Follows.bind (pop_shared fits mirrors) ?_
  rintro _ _ ⟨present, rfl, rfl⟩
  refine withPredicates_follows (mirrors.drop 1)
    (Predicates.loopMask_follows mirrors.predicates ?_)
  intro lane target mapped running
  rw [Lanes.get_truthy, Lanes.get_truthy, mirrors.top,
    agree present lane target mapped running]

/--
A blend reads one of two operands in each lane: the lower one where the
condition of the scope holds, and the upper one elsewhere.  The operands agree
where the result is to be clean.
-/
def BlendAgrees (image : Lane → Option Lane) (clean : Nat → Prop) (count : Nat)
    (left right : Machine) : Prop :=
  ∀ scope outer, left.predicates.scopes = scope :: outer →
    ∀ step, step < count → clean (left.top - 2 * count + step) →
      ∀ lane target, image lane = some target →
        let position := left.top - 2 * count + step +
          if scope.condition.get lane = true then 0 else count
        (right.cell .local position).get target = (left.cell .local position).get lane

theorem Mirrors.blendAgrees (mirrors : left.Mirrors image clean right) {count : Nat}
    (exposed : left.Exposes clean (2 * count))
    (present : left.current.floor + 2 * count ≤ left.top) :
    BlendAgrees image clean count left right := by
  intro scope outer _ step inRange _ lane target mapped
  have inside : left.top - 2 * count + step +
      (if scope.condition.get lane = true then 0 else count) < left.top := by
    split <;> omega
  refine mirrors.locals _ (exposed _ ?_ ?_ inside) inside lane target mapped
  · omega
  · omega

/-- The registers that a blend chooses. -/
theorem get_blended (machine : Machine) (condition : Mask) {count step : Nat}
    (inRange : step < (List.zipWith (Lanes.select condition)
      ((machine.topmost (2 * count)).take count)
      ((machine.topmost (2 * count)).drop count)).length) (lane : Lane) :
    ((List.zipWith (Lanes.select condition)
      ((machine.topmost (2 * count)).take count)
      ((machine.topmost (2 * count)).drop count))[step]).get lane =
      (machine.cell .local (machine.top - 2 * count + step +
        if condition.get lane = true then 0 else count)).get lane := by
  rw [List.getElem_zipWith, Lanes.get_select, List.getElem_take, List.getElem_drop,
    getElem_topmost, getElem_topmost]
  split
  · rfl
  · congr 2
    omega

theorem blend_follows {cleaner : Nat → Prop} (fits : left.Fits)
    (mirrors : left.Mirrors image clean right) {count : Nat}
    (below : ∀ position, position < left.top - 2 * count → cleaner position →
      clean position)
    (agrees : left.current.floor + 2 * count ≤ left.top →
      BlendAgrees image cleaner count left right) :
    Follows image (Mirrors image cleaner) (left.blend count) (right.blend count) := by
  refine Follows.bind (Predicates.maskBlend_follows mirrors.predicates) ?_
  rintro ⟨_, rest⟩ ⟨answerCondition, answerRest⟩
    ⟨conditions, predicates, scope, outer, nested, rfl⟩
  refine Follows.bind (peek_shared fits mirrors (2 * count)) ?_
  rintro _ _ ⟨present, rfl, rfl⟩
  refine push_shared (((mirrors.drop _).mono below).withPredicates predicates) (by simp) ?_
  intro step inLeft inRight isClean lane target mapped
  rw [get_blended, get_blended, conditions lane target mapped, mirrors.top]
  refine agrees present scope outer nested step ?_ isClean lane target mapped
  simp only [List.length_zipWith, List.length_take, length_topmost] at inLeft
  omega

/-! ## Branches, calls and returns -/

theorem Mirrors.jumped (mirrors : left.Mirrors image clean right) (target : Nat) :
    (left.jumped target).Mirrors image clean (right.jumped target) where
  top := mirrors.top
  current := by
    change { right.current with offset := target } = { left.current with offset := target }
    rw [mirrors.current]
  callers := mirrors.callers
  predicates := mirrors.predicates
  globals := mirrors.globals
  locals := mirrors.locals

theorem Mirrors.advanced (mirrors : left.Mirrors image clean right)
    (instruction : Instruction) :
    (left.advanced instruction).Mirrors image clean (right.advanced instruction) := by
  unfold Machine.advanced
  rw [mirrors.current]
  exact mirrors.jumped _

theorem jump_follows (mirrors : left.Mirrors image clean right) (target : Nat) :
    Follows image (Mirrors image clean) (left.jump target) (right.jump target) := by
  unfold jump
  rw [mirrors.current]
  dsimp only
  split
  · have moved := mirrors.jumped target
    unfold Machine.jumped at moved
    rw [mirrors.current] at moved
    exact Follows.of_related moved
  · exact Follows.of_shared rfl

theorem Mirrors.entered {function : Function} {base : Nat}
    (mirrors : left.Mirrors image clean right)
    (arguments : base + function.parameterCount ≤ left.top)
    (room : base + function.stackNeed ≤ stackCapacity) :
    (left.entered function base).Mirrors image clean (right.entered function base) := by
  have frame := Function.frame_of_fits (Nat.le_trans (Nat.le_add_left _ _) room)
  have need := Function.frameSize_le frame.2
  have inside : base + function.parameterCount +
      (List.replicate function.localCount (.zero : Register)).length ≤
        stackCapacity := by
    rw [List.length_replicate]
    omega
  refine ⟨rfl, rfl, mirrors.callers, mirrors.predicates, mirrors.globals, ?_⟩
  intro position isClean below
  change position < base + function.frameSize at below
  change Lanes.Mirrors image
    ((left.registers.overwrite (base + function.parameterCount)
      (List.replicate function.localCount .zero)).register position)
    ((right.registers.overwrite (base + function.parameterCount)
      (List.replicate function.localCount .zero)).register position)
  rw [RegisterFile.register_overwrite _ _ _ inside,
    RegisterFile.register_overwrite _ _ _ inside]
  split
  · apply MirroredRun.getD
    exact List.forall₂_same.mpr fun register member => by
      rw [List.eq_of_mem_replicate member]
      exact Lanes.Mirrors.splat 0
  · rename_i outside
    rw [List.length_replicate] at outside
    exact mirrors.locals position isClean (by omega)

theorem invoke_follows (mirrors : left.Mirrors image clean right)
    (functions : List Function) (position : Nat) :
    Follows image (Mirrors image clean) (left.invoke functions position)
      (right.invoke functions position) := by
  unfold invoke
  rw [mirrors.callers, mirrors.current, mirrors.top]
  by_cases full : left.callers.length ≥ callCapacity
  · rw [if_pos full, if_pos full]
    exact Follows.of_shared rfl
  · rw [if_neg full, if_neg full]
    cases functions[position]? with
    | none =>
        exact Follows.of_shared rfl
    | some callee =>
        refine Follows.bind (require_follows mirrors _) ?_
        intro _ _ present
        rw [enter_eq, enter_eq]
        split
        · rename_i room
          have opened := mirrors.entered (by omega) room
          exact Follows.of_related
            ⟨opened.top, opened.current, rfl, opened.predicates, opened.globals,
              opened.locals⟩
        · exact Follows.of_shared rfl

theorem Mirrors.resumed {caller : Activation} {earlier : List Activation}
    {returned answers : List Register} (mirrors : left.Mirrors image clean right)
    (run : MirroredRun image returned answers)
    (arguments : left.current.base + left.current.argumentCount ≤ left.top)
    (reserved : returned.length ≤ left.current.base)
    (inside : left.current.base ≤ stackCapacity) :
    (left.resumed caller earlier returned).Mirrors image clean
      (right.resumed caller earlier answers) := by
  have same := run.length_eq
  have insideLeft : left.current.base - returned.length + returned.length ≤
      stackCapacity := by
    omega
  refine ⟨?_, rfl, rfl, mirrors.predicates, mirrors.globals, ?_⟩
  · change right.current.base + right.current.argumentCount =
      left.current.base + left.current.argumentCount
    rw [mirrors.current]
  · intro position isClean below
    change position < left.current.base + left.current.argumentCount at below
    change Lanes.Mirrors image
      ((left.registers.overwrite (left.current.base - returned.length)
        returned).register position)
      ((right.registers.overwrite (right.current.base - answers.length)
        answers).register position)
    rw [mirrors.current, ← same, RegisterFile.register_overwrite _ _ _ insideLeft,
      RegisterFile.register_overwrite _ _ _ (same ▸ insideLeft), same]
    split
    · exact run.getD _
    · exact mirrors.locals position isClean (by omega)

theorem ret_follows (fits : left.Fits) (mirrors : left.Mirrors image clean right)
    (arguments : left.current.base + left.current.argumentCount ≤
      left.current.floor)
    (count : Nat) (exposed : left.Exposes clean count) :
    Follows image (Flow.Mirrors image clean) (left.ret count) (right.ret count) := by
  have frame := fits.frame
  have floor := fits.floor
  have capacity := fits.capacity
  unfold ret
  rw [mirrors.current, mirrors.callers]
  dsimp only
  by_cases declared : count ≠ left.current.function.returnCount
  · rw [if_pos declared, if_pos declared]
    exact Follows.of_shared rfl
  · rw [if_neg declared, if_neg declared]
    refine Follows.bind (peek_follows fits mirrors exposed) ?_
    rintro _ _ ⟨present, rfl, rfl, run⟩
    cases left.callers with
    | nil =>
        exact Follows.of_related ⟨mirrors, run⟩
    | cons caller earlier =>
        apply Follows.next
        unfold resume
        rw [mirrors.current, length_topmost, length_topmost]
        dsimp only
        split
        · have insideLeft : left.current.base - count + (left.topmost count).length ≤
              stackCapacity := by
            rw [length_topmost]
            omega
          have insideRight : left.current.base - count + (right.topmost count).length ≤
              stackCapacity := by
            rw [length_topmost]
            omega
          rw [RegisterFile.writeRun_of_le _ insideLeft,
            RegisterFile.writeRun_of_le _ insideRight]
          have handed := @Mirrors.resumed image clean left right caller earlier
            _ _ mirrors run (by omega) (by rw [length_topmost]; omega) (by omega)
          unfold Machine.resumed at handed
          rw [mirrors.current, length_topmost, length_topmost] at handed
          exact Follows.of_related handed
        · exact Follows.of_shared rfl

/-! ## Instructions -/

theorem shift_follows (fits : left.Fits) (mirrors : left.Mirrors image clean right)
    (operation : Shift) (amount : UInt8) (exposed : left.Exposes clean 1) :
    Follows image (Flow.Mirrors image clean) (left.carry batch (.shift operation amount))
      (right.carry batch (.shift operation amount)) := by
  unfold carry
  simp only [execute]
  cases checked : checkShift operation amount with
  | ok done =>
      exact Follows.next (compute_follows fits mirrors (operation.kernel amount) exposed)
  | error fault =>
      unfold checkShift at checked
      split at checked
      · cases checked
      · cases checked
        exact Follows.of_shared rfl

/-- An instruction that goes on behind itself. -/
theorem carry_follows (fits : left.Fits) (mirrors : left.Mirrors image clean right)
    (covers : left.live.Covers image right.live) (frame : left.CleanFrame clean)
    {instruction : Instruction} (stays : instruction.stays = true)
    (exposed : left.Exposes clean instruction.taken) :
    Follows image (Flow.Mirrors image clean) (left.carry batch instruction)
      (right.carry batch instruction) := by
  cases instruction with
  | compute computation =>
      exact Follows.next (compute_follows fits mirrors computation.kernel exposed)
  | divide operation count =>
      exact Follows.next (divide_follows fits mirrors covers operation _ exposed)
  | shift operation amount =>
      exact shift_follows fits mirrors operation amount exposed
  | load space count slot =>
      exact Follows.next (load_follows fits mirrors frame space _ _)
  | store bank count slot =>
      exact Follows.next (store_follows fits mirrors bank _ _ exposed)
  | gather space count =>
      exact Follows.next (gather_follows fits mirrors covers frame space _ exposed)
  | scatter bank count =>
      exact Follows.next (scatter_follows fits mirrors covers bank _ exposed)
  | clampIndex length =>
      exact Follows.next (clampIndex_follows fits mirrors covers _ exposed)
  | maskPush =>
      exact Follows.next (openScope_follows fits mirrors exposed)
  | loopMask =>
      refine Follows.next (narrowLoop_follows fits mirrors ?_)
      intro present lane target mapped _
      have below : left.top - 1 < left.top := by omega
      exact mirrors.locals _ (exposed _ (Nat.le_refl _) (Nat.le_sub_one_of_lt present)
        below) below lane target mapped
  | maskPop =>
      exact perform_follows mirrors .maskPop rfl
  | maskNegate =>
      exact perform_follows mirrors .maskNegate rfl
  | loopBegin =>
      exact perform_follows mirrors .loopBegin rfl
  | loopNext =>
      exact perform_follows mirrors .loopNext rfl
  | loopEnd =>
      exact perform_follows mirrors .loopEnd rfl
  | loopBreak =>
      exact perform_follows mirrors .loopBreak rfl
  | loopContinue =>
      exact perform_follows mirrors .loopContinue rfl
  | loadFragCoord =>
      exact Follows.of_shared rfl
  | sampleExplicit child =>
      exact Follows.of_shared rfl
  | sampleMatrix child =>
      exact Follows.of_shared rfl
  | branch target =>
      cases stays
  | branchIfAllFalse target =>
      cases stays
  | call function =>
      cases stays
  | ret count =>
      cases stays
  | maskBlend count =>
      cases stays
  | callExternal arguments results external =>
      cases stays
  | readExternal count external =>
      cases stays
  | writeExternal count external =>
      cases stays

/-- Every register is clean. -/
def spotless : Nat → Prop :=
  fun _ => True

/-- Any instruction that does not ask the host, on machines that agree throughout. -/
theorem carry_follows_spotless (fits : left.Fits)
    (mirrors : left.Mirrors image spotless right)
    (arguments : left.current.base + left.current.argumentCount ≤
      left.current.floor)
    (covers : left.live.Covers image right.live) {instruction : Instruction}
    (quiet : instruction.asksHost = false)
    (around : instruction.looksAround = true → right.live.any = left.live.any) :
    Follows image (Flow.Mirrors image spotless) (left.carry batch instruction)
      (right.carry batch instruction) := by
  have exposed : ∀ count, left.Exposes spotless count := fun _ _ _ _ _ => trivial
  have frame : left.CleanFrame spotless := fun _ _ _ => trivial
  by_cases stays : instruction.stays = true
  · exact carry_follows fits mirrors covers frame stays (exposed _)
  · cases instruction with
    | branch target =>
        exact Follows.next (jump_follows mirrors _)
    | branchIfAllFalse target =>
        apply Follows.next
        unfold jumpIfAllFalse
        rw [around rfl]
        split
        · exact Follows.of_related mirrors
        · exact jump_follows mirrors _
    | call function =>
        apply Follows.next
        unfold call
        rw [around rfl]
        split
        · exact invoke_follows mirrors _ _
        · exact Follows.of_related mirrors
    | ret count =>
        exact ret_follows fits mirrors arguments _ (exposed _)
    | maskBlend count =>
        refine Follows.next (blend_follows fits mirrors (fun _ _ held => held) ?_)
        exact fun present => mirrors.blendAgrees (exposed _) present
    | callExternal arguments results external =>
        cases quiet
    | readExternal count external =>
        cases quiet
    | writeExternal count external =>
        cases quiet
    | _ =>
        exact absurd rfl stays

/-! ## Steps -/

/-- The next instruction does not ask the host. -/
def Quiet (machine : Machine) : Prop :=
  ∀ instruction, machine.upcoming = .ok instruction → instruction.asksHost = false

/-- The outcome of a step that does not ask the host. -/
def outcome (batch : Batch σ) (machine : Machine) : Except Failure Flow := do
  let (instruction, advanced) ← machine.fetch
  advanced.carry batch instruction

/-- Without the host, batches differ in nothing. -/
theorem outcome_eq {other : Batch σ} (same : other.silent = batch.silent)
    (machine : Machine) : machine.outcome other = machine.outcome batch := by
  unfold outcome carry
  rw [same]

theorem stepAt_quiet {machine : Machine} (quiet : machine.Quiet) (host : σ) :
    machine.stepAt batch host = (machine.outcome batch, host) := by
  rw [stepAt_eq]
  unfold outcome
  cases fetched : machine.fetch with
  | error failure =>
      rfl
  | ok read =>
      rcases read with ⟨instruction, advanced⟩
      exact execute_at batch host (quiet instruction (fetch_eq_ok fetched).1) advanced

theorem fetch_follows (mirrors : left.Mirrors image clean right) :
    Follows image
      (fun value answer => ∃ instruction, left.upcoming = .ok instruction ∧
        value = (instruction, left.advanced instruction) ∧
        answer = (instruction, right.advanced instruction))
      left.fetch right.fetch := by
  unfold fetch advanced upcoming Instruction.decode
  rw [mirrors.current]
  dsimp only
  cases Opcode.decode left.current.offset
      (left.current.function.code.drop left.current.offset) with
  | error fault =>
      exact Follows.of_shared rfl
  | ok opcode =>
      dsimp only
      cases opcode.executable with
      | false =>
          exact Follows.of_shared rfl
      | true =>
          simp only [Bool.not_true, Bool.false_eq_true, if_false]
          cases opcode.complete left.current.offset
              (left.current.function.code.drop left.current.offset) with
          | error malformed =>
              exact (require_follows mirrors _).bind fun _ _ _ => Follows.of_shared rfl
          | ok instruction =>
              refine Follows.of_related ⟨instruction, rfl, rfl, ?_⟩
              unfold Machine.jumped
              rw [mirrors.current]

/-- A step of machines that agree throughout. -/
theorem outcome_follows (sound : left.Sound batch.program)
    (mirrors : left.Mirrors image spotless right)
    (covers : left.live.Covers image right.live) (quiet : left.Quiet)
    (around : ∀ instruction, left.upcoming = .ok instruction →
      instruction.looksAround = true → right.live.any = left.live.any) :
    Follows image (Flow.Mirrors image spotless) (left.outcome batch)
      (right.outcome batch) := by
  refine Follows.bind (fetch_follows mirrors) ?_
  rintro _ _ ⟨instruction, decoded, rfl, rfl⟩
  have moved := sound.advanced decoded
  exact carry_follows_spotless moved.fits (mirrors.advanced instruction)
    moved.running.arguments covers (quiet instruction decoded) (around instruction decoded)

end Machine

end Lockstep
