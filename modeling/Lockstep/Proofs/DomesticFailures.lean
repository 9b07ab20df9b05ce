import Lockstep.Proofs.MaskedSteps
import Lockstep.Proofs.MirroredSteps

/-!
# Failures that do not come from the host

A failure is domestic unless it reports that the host has refused a request.
The operations of a machine fail in domestic ways only, and so does every
instruction that does not ask the host: `Machine.carry_domestic`.  A refusal in
the outcome of a step therefore shows that the step has asked.
-/

namespace Lockstep

variable {σ α β : Type}

/-- Whether a failure is anything but a refusal of the host. -/
def Failure.domestic : Failure → Bool
  | .external _ => false
  | _ => true

/-- A result that does not fail because of the host. -/
def Domestic (result : Except Failure α) : Prop :=
  Yields (fun failure => failure.domestic = true) (fun _ => True) result

namespace Domestic

variable {result : Except Failure α}

theorem bind {next : α → Except Failure β} (begun : Domestic result)
    (continued : ∀ value, Domestic (next value)) : Domestic (result >>= next) :=
  Yields.bind begun fun value _ => continued value

theorem pure (value : α) : Domestic (.ok value : Except Failure α) :=
  trivial

theorem ite {condition : Prop} [Decidable condition] {failure : Failure} {value : α}
    (domestic : failure.domestic = true) :
    Domestic (if condition then .ok value else .error failure) := by
  split
  · exact trivial
  · exact domestic

theorem map {change : α → β} (domestic : Domestic result) :
    Domestic (result.map change) := by
  cases result with
  | ok value =>
      exact trivial
  | error failure =>
      exact domestic

theorem mapM {entries : List α} {step : α → Except Failure β}
    (each : ∀ entry, Domestic (step entry)) : Domestic (entries.mapM step) := by
  induction entries with
  | nil =>
      exact trivial
  | cons head tail induction =>
      rw [List.mapM_cons]
      exact .bind (each head) fun _ => .bind induction fun _ => .pure _

end Domestic

/-! ## Predicates -/

theorem Predicates.perform_domestic (predicates : Predicates) (action : Action) :
    Domestic (predicates.perform action) := by
  rcases predicates with ⟨occupied, scopes, loops⟩
  cases action with
  | maskPush | loopBegin =>
      exact .bind (.ite rfl) fun _ => .pure _
  | maskPop | maskNegate | maskBlend =>
      cases scopes with
      | nil => exact rfl
      | cons scope outer => exact trivial
  | loopNext | loopMask | loopEnd | loopBreak | loopContinue =>
      cases loops with
      | nil => exact rfl
      | cons loop outer => exact trivial

theorem Predicates.maskBlend_domestic (predicates : Predicates) :
    Domestic predicates.maskBlend := by
  rcases predicates with ⟨occupied, _ | ⟨scope, outer⟩, loops⟩
  · exact rfl
  · exact trivial

/-! ## Operations -/

namespace Machine

variable {batch : Batch σ} {machine : Machine}

theorem require_domestic (count : Nat) : Domestic (machine.require count) :=
  .ite rfl

theorem peek_domestic (count : Nat) : Domestic (machine.peek count) :=
  .bind (require_domestic count) fun _ => .ite rfl

theorem pop_domestic : Domestic machine.pop :=
  .bind (peek_domestic 1) fun _ => .pure _

theorem room_domestic (count : Nat) : Domestic (machine.room count) :=
  .ite rfl

theorem push_domestic (results : List Register) : Domestic (machine.push results) :=
  .bind (room_domestic _) fun _ => .bind (.ite rfl) fun _ => .pure _

theorem orTrap_domestic (value : Option α) : Domestic (orTrap value) := by
  cases value with
  | none => exact rfl
  | some value => exact trivial

theorem scratch_domestic (count : Nat) : Domestic (scratch count) :=
  .ite rfl

theorem compute_domestic (kernel : Kernel) : Domestic (machine.compute kernel) :=
  .bind (peek_domestic _) fun _ => .bind (orTrap_domestic _) fun _ => push_domestic _

theorem divide_domestic (operation : Division) (count : Nat) :
    Domestic (machine.divide operation count) := by
  refine .bind (peek_domestic _) fun _ => .bind ?_ fun _ => push_domestic _
  refine Yields.each fun divisor _ => Yields.each fun lane _ => ?_
  split
  · exact rfl
  · exact trivial

theorem slotRun_domestic (space : Space) (slot count : Nat) :
    Domestic (machine.slotRun batch space slot count) := by
  cases space <;> exact .ite rfl

theorem updateRun_domestic (bank : Bank) (slot : Nat)
    (update : Register → α → Register) (values : List α) :
    Domestic (machine.updateRun bank slot update values) := by
  cases bank <;> exact .bind (.ite rfl) fun _ => .bind (.ite rfl) fun _ => .pure _

theorem load_domestic (space : Space) (count slot : Nat) :
    Domestic (machine.load batch space count slot) := by
  unfold load
  split
  · exact .bind (room_domestic _) fun _ =>
      .bind (slotRun_domestic _ _ _) fun _ => push_domestic _
  · exact rfl

theorem store_domestic (bank : Bank) (count slot : Nat) :
    Domestic (machine.store batch bank count slot) := by
  unfold store
  split
  · exact .bind (peek_domestic _) fun _ =>
      .bind (updateRun_domestic _ _ _ _) fun _ => .pure _
  · exact rfl

theorem checkIndices_domestic (opcode : Opcode) (space : Space) (index : Register)
    (count limit : Nat) : Domestic (machine.checkIndices opcode space index count limit) :=
  Yields.each fun _ _ => Domestic.ite rfl

theorem gather_domestic (space : Space) (count : Nat) :
    Domestic (machine.gather batch space count) :=
  .bind pop_domestic fun _ => .bind (checkIndices_domestic _ _ _ _ _) fun _ =>
    .bind (scratch_domestic _) fun _ =>
      .bind (.mapM fun _ => .bind (slotRun_domestic _ _ _) fun _ => .pure _) fun _ =>
        push_domestic _

theorem scatter_domestic (bank : Bank) (count : Nat) :
    Domestic (machine.scatter batch bank count) :=
  .bind pop_domestic fun _ => .bind (checkIndices_domestic _ _ _ _ _) fun _ =>
    .bind (peek_domestic _) fun _ =>
      .bind (Yields.foldlM trivial fun _ _ _ _ => updateRun_domestic _ _ _ _) fun _ =>
        .pure _

theorem clampIndex_domestic (length : Nat) : Domestic (machine.clampIndex length) :=
  .bind (peek_domestic _) fun _ =>
    .bind (Yields.each fun _ _ => Domestic.ite rfl) fun _ => .pure _

theorem withPredicates_domestic {result : Except Failure Predicates}
    (domestic : Domestic result) : Domestic (machine.withPredicates result) :=
  .bind domestic fun _ => .pure _

theorem openScope_domestic : Domestic machine.openScope :=
  .bind pop_domestic fun _ =>
    withPredicates_domestic (Predicates.perform_domestic _ (.maskPush _))

theorem narrowLoop_domestic : Domestic machine.narrowLoop :=
  .bind pop_domestic fun _ =>
    withPredicates_domestic (Predicates.perform_domestic _ (.loopMask _))

theorem blend_domestic (count : Nat) : Domestic (machine.blend count) :=
  .bind (Predicates.maskBlend_domestic _) fun _ =>
    .bind (peek_domestic _) fun _ => push_domestic _

theorem jump_domestic (target : Nat) : Domestic (machine.jump target) :=
  .ite rfl

theorem jumpIfAllFalse_domestic (target : Nat) :
    Domestic (machine.jumpIfAllFalse target) := by
  unfold jumpIfAllFalse
  split
  · exact trivial
  · exact jump_domestic target

theorem call_domestic (functions : List Function) (position : Nat) :
    Domestic (machine.call functions position) := by
  unfold call
  split
  · unfold invoke
    by_cases full : machine.callers.length ≥ callCapacity
    · rw [if_pos full]
      exact rfl
    · rw [if_neg full]
      cases functions[position]? with
      | none =>
          exact rfl
      | some callee =>
          refine .bind (require_domestic _) fun _ => .bind ?_ fun _ => .pure _
          rw [enter_eq]
          exact .ite rfl
  · exact trivial

theorem ret_domestic (count : Nat) : Domestic (machine.ret count) := by
  unfold ret
  by_cases declared : count ≠ machine.current.function.returnCount
  · rw [if_pos declared]
    exact rfl
  · rw [if_neg declared]
    refine .bind (peek_domestic _) fun returned => ?_
    cases machine.callers with
    | nil =>
        exact trivial
    | cons caller earlier =>
        refine .bind ?_ fun _ => .pure _
        unfold resume
        dsimp only
        split
        · exact .bind (.ite rfl) fun _ => .pure _
        · exact rfl

/-! ## Steps -/

theorem fetch_domestic : Domestic machine.fetch := by
  unfold fetch
  dsimp only
  split
  · exact rfl
  · split
    · exact rfl
    · split
      · exact .bind (require_domestic _) fun _ => rfl
      · exact trivial

/-- An instruction that does not ask the host does not fail because of it. -/
theorem carry_domestic (instruction : Instruction) (quiet : instruction.asksHost = false) :
    Domestic (machine.carry batch instruction) := by
  cases instruction with
  | compute computation =>
      exact .map (compute_domestic _)
  | divide operation count =>
      exact .map (divide_domestic _ _)
  | shift operation amount =>
      unfold carry
      simp only [execute]
      cases checkShift operation amount with
      | ok done => exact .map (compute_domestic _)
      | error fault => exact rfl
  | load space count slot =>
      exact .map (load_domestic _ _ _)
  | store bank count slot =>
      exact .map (store_domestic _ _ _)
  | gather space count =>
      exact .map (gather_domestic _ _)
  | scatter bank count =>
      exact .map (scatter_domestic _ _)
  | clampIndex length =>
      exact .map (clampIndex_domestic _)
  | branch target =>
      exact .map (jump_domestic _)
  | branchIfAllFalse target =>
      exact .map (jumpIfAllFalse_domestic _)
  | call function =>
      exact .map (call_domestic _ _)
  | ret count =>
      exact ret_domestic _
  | maskPush =>
      exact .map openScope_domestic
  | maskPop =>
      exact .map (withPredicates_domestic (Predicates.perform_domestic _ .maskPop))
  | maskNegate =>
      exact .map (withPredicates_domestic (Predicates.perform_domestic _ .maskNegate))
  | maskBlend count =>
      exact .map (blend_domestic _)
  | loopBegin =>
      exact .map (withPredicates_domestic (Predicates.perform_domestic _ .loopBegin))
  | loopNext =>
      exact .map (withPredicates_domestic (Predicates.perform_domestic _ .loopNext))
  | loopMask =>
      exact .map narrowLoop_domestic
  | loopEnd =>
      exact .map (withPredicates_domestic (Predicates.perform_domestic _ .loopEnd))
  | loopBreak =>
      exact .map (withPredicates_domestic (Predicates.perform_domestic _ .loopBreak))
  | loopContinue =>
      exact .map (withPredicates_domestic (Predicates.perform_domestic _ .loopContinue))
  | callExternal | readExternal | writeExternal =>
      cases quiet
  | loadFragCoord | sampleExplicit | sampleMatrix =>
      exact rfl

end Machine

end Lockstep
