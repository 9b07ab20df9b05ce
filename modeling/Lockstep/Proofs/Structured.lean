import Lockstep.Proofs.MirroredSteps

/-!
# Structured code

Code that keeps to a discipline is described by a `Block`: instructions and
calls in sequence, conditionals that run both of their sides under a mask, and
loops that lanes leave one by one.  `Block.listing` spells a block out as
instructions, and a function is structured if its code is a block followed by
a single return.

The discipline of the operand stack is static.  `Block.effect` follows the
height of the stack above the place where a block was entered; it is undefined
as soon as the block would reach below that place.  The parts of a conditional
or of a loop have to leave the stack as the instructions around them expect.

`Block.exec` carries out a block without looking at its code.  It is bounded
twice, in the rounds of each loop and, through `run`, in the depth of calls, so
that a computation that goes on forever is one that exhausts every bound.
-/

namespace Lockstep

variable {σ : Type}

/-! ## Blocks -/

/-- A piece of structured code. -/
inductive Block where
  | skip
  /-- An instruction that neither branches nor touches the predicates or the host. -/
  | plain (instruction : Instruction)
  | call (function : UInt8)
  | seq (first second : Block)
  /-- A part that is passed over if no lane is live. -/
  | guarded (body : Block)
  /-- A part that runs where a condition holds. -/
  | when (body : Block)
  /-- Two parts of which each lane runs one. -/
  | choose (body otherwise : Block)
  /-- Two parts of which each lane runs one and keeps the results. -/
  | blend (count : UInt8) (body otherwise : Block)
  /-- A loop that tests a condition before its body and steps after it. -/
  | loop (condition body step : Block)
  /-- Leave the innermost loop. -/
  | leave
  /-- Go on with the next round of the innermost loop. -/
  | again
deriving DecidableEq

/-- Where a block stands in the loops of its function. -/
inductive Place where
  /-- In no loop. -/
  | outside
  /-- In the condition or the step of the innermost loop. -/
  | edge
  /-- In the body of the innermost loop. -/
  | body
deriving DecidableEq

/-- Whether an instruction neither branches nor touches the predicates or the host. -/
def Instruction.plain : Instruction → Bool
  | .compute _ => true
  | .divide _ _ => true
  | .shift _ _ => true
  | .load _ _ _ => true
  | .store _ _ _ => true
  | .gather _ _ => true
  | .scatter _ _ => true
  | .clampIndex _ => true
  | .loadFragCoord => true
  | .sampleExplicit _ => true
  | .sampleMatrix _ => true
  | _ => false

namespace Block

/-- The number of bytes of a round of a loop, its branches included. -/
def span (condition body step : Nat) : Nat :=
  condition + 1 + 3 + body + 1 + step + 3

/-- The number of bytes of a block. -/
def size : Block → Nat
  | skip => 0
  | plain instruction => instruction.width
  | call _ => 2
  | seq first second => first.size + second.size
  | guarded body => 3 + body.size
  | when body => 1 + body.size + 1
  | choose body otherwise => 1 + body.size + 1 + otherwise.size + 1
  | blend _ body otherwise => 1 + body.size + 1 + otherwise.size + 2
  | loop condition body step => 1 + span condition.size body.size step.size + 1
  | leave => 1
  | again => 1

/-- The instructions of a block that starts at an offset. -/
def listing : Block → Nat → List Placed
  | skip, _ => []
  | plain instruction, start => [⟨start, instruction⟩]
  | call function, start => [⟨start, .call function⟩]
  | seq first second, start => first.listing start ++ second.listing (start + first.size)
  | guarded body, start =>
      ⟨start, .branchIfAllFalse (.ofNat (start + 3 + body.size))⟩ ::
        body.listing (start + 3)
  | when body, start =>
      ⟨start, .maskPush⟩ :: body.listing (start + 1) ++
        [⟨start + 1 + body.size, .maskPop⟩]
  | choose body otherwise, start =>
      ⟨start, .maskPush⟩ :: body.listing (start + 1) ++
        ⟨start + 1 + body.size, .maskNegate⟩ ::
          otherwise.listing (start + 1 + body.size + 1) ++
        [⟨start + 1 + body.size + 1 + otherwise.size, .maskPop⟩]
  | blend count body otherwise, start =>
      ⟨start, .maskPush⟩ :: body.listing (start + 1) ++
        ⟨start + 1 + body.size, .maskNegate⟩ ::
          otherwise.listing (start + 1 + body.size + 1) ++
        [⟨start + 1 + body.size + 1 + otherwise.size, .maskBlend count⟩]
  | loop condition body step, start =>
      let first := start + 1
      let last := first + span condition.size body.size step.size
      let test := first + condition.size
      let next := test + 1 + 3 + body.size
      ⟨start, .loopBegin⟩ :: condition.listing first ++
        ⟨test, .loopMask⟩ :: ⟨test + 1, .branchIfAllFalse (.ofNat last)⟩ ::
          body.listing (test + 1 + 3) ++
        ⟨next, .loopNext⟩ :: step.listing (next + 1) ++
        [⟨next + 1 + step.size, .branch (.ofNat first)⟩, ⟨last, .loopEnd⟩]
  | leave, start => [⟨start, .loopBreak⟩]
  | again, start => [⟨start, .loopContinue⟩]

/-- The targets of all branches of a block that starts at an offset can be spelled. -/
def Addressable : Block → Nat → Prop
  | seq first second, start =>
      first.Addressable start ∧ second.Addressable (start + first.size)
  | guarded body, start =>
      start + 3 + body.size < 2 ^ 16 ∧ body.Addressable (start + 3)
  | when body, start => body.Addressable (start + 1)
  | choose body otherwise, start =>
      body.Addressable (start + 1) ∧ otherwise.Addressable (start + 1 + body.size + 1)
  | blend _ body otherwise, start =>
      body.Addressable (start + 1) ∧ otherwise.Addressable (start + 1 + body.size + 1)
  | loop condition body step, start =>
      start + 1 + span condition.size body.size step.size < 2 ^ 16 ∧
        condition.Addressable (start + 1) ∧
        body.Addressable (start + 1 + condition.size + 1 + 3) ∧
        step.Addressable (start + 1 + condition.size + 1 + 3 + body.size + 1)
  | _, _ => True

instance instDecidableAddressable : (block : Block) → (start : Nat) →
    Decidable (block.Addressable start)
  | seq first second, start =>
      have := instDecidableAddressable first start
      have := instDecidableAddressable second (start + first.size)
      inferInstanceAs (Decidable (_ ∧ _))
  | guarded body, start =>
      have := instDecidableAddressable body (start + 3)
      inferInstanceAs (Decidable (_ ∧ _))
  | when body, start => instDecidableAddressable body (start + 1)
  | choose body otherwise, start =>
      have := instDecidableAddressable body (start + 1)
      have := instDecidableAddressable otherwise (start + 1 + body.size + 1)
      inferInstanceAs (Decidable (_ ∧ _))
  | blend _ body otherwise, start =>
      have := instDecidableAddressable body (start + 1)
      have := instDecidableAddressable otherwise (start + 1 + body.size + 1)
      inferInstanceAs (Decidable (_ ∧ _))
  | loop condition body step, start =>
      have := instDecidableAddressable condition (start + 1)
      have := instDecidableAddressable body (start + 1 + condition.size + 1 + 3)
      have := instDecidableAddressable step
        (start + 1 + condition.size + 1 + 3 + body.size + 1)
      inferInstanceAs (Decidable (_ ∧ _ ∧ _ ∧ _))
  | skip, _ => .isTrue trivial
  | plain _, _ => .isTrue trivial
  | call _, _ => .isTrue trivial
  | leave, _ => .isTrue trivial
  | again, _ => .isTrue trivial

/--
The height of the operand stack behind a block from the height before it,
both counted from a place below which the block does not reach.
-/
def effect (functions : List Function) : Block → Nat → Option Nat
  | skip, height => some height
  | plain instruction, height =>
      if instruction.taken ≤ height then
        some (height - instruction.taken + instruction.given)
      else none
  | call function, height =>
      match functions[function.toNat]? with
      | some callee =>
          if callee.parameterCount + callee.returnCount ≤ height then some height
          else none
      | none => none
  | seq first second, height => first.effect functions height >>= second.effect functions
  | guarded _, height => some height
  | when _, height => if 1 ≤ height then some (height - 1) else none
  | choose _ _, height => if 1 ≤ height then some (height - 1) else none
  | blend count _ _, height =>
      if 1 ≤ height then some (height - 1 + count.toNat) else none
  | loop _ _ _, height => some height
  | leave, height => some height
  | again, height => some height

/-- A part of a block gives a fixed number of operands and reaches below none. -/
def Gives (functions : List Function) (block : Block) (count : Nat) : Prop :=
  block.effect functions 0 = some count

/--
The parts of a block keep to the discipline of the operand stack, and loops are
left only from inside.  A lane goes on with the next round only in the body of
a loop, not in its condition or step.
-/
def WellFormed (functions : List Function) (place : Place) : Block → Prop
  | skip => True
  | plain instruction => instruction.plain = true
  | call _ => True
  | seq first second =>
      first.WellFormed functions place ∧ second.WellFormed functions place
  | guarded body => body.WellFormed functions place ∧ body.Gives functions 0
  | when body => body.WellFormed functions place ∧ body.Gives functions 0
  | choose body otherwise =>
      (body.WellFormed functions place ∧ body.Gives functions 0) ∧
        otherwise.WellFormed functions place ∧ otherwise.Gives functions 0
  | blend count body otherwise =>
      (body.WellFormed functions place ∧ body.Gives functions count.toNat) ∧
        otherwise.WellFormed functions place ∧ otherwise.Gives functions count.toNat
  | loop condition body step =>
      (condition.WellFormed functions .edge ∧ condition.Gives functions 1) ∧
        (body.WellFormed functions .body ∧ body.Gives functions 0) ∧
          step.WellFormed functions .edge ∧ step.Gives functions 0
  | leave => place ≠ .outside
  | again => place = .body

/-- Whether a block calls no functions. -/
def callFree : Block → Bool
  | call _ => false
  | seq first second => first.callFree && second.callFree
  | guarded body => body.callFree
  | when body => body.callFree
  | choose body otherwise => body.callFree && otherwise.callFree
  | blend _ body otherwise => body.callFree && otherwise.callFree
  | loop condition body step => condition.callFree && body.callFree && step.callFree
  | _ => true

instance (functions : List Function) (block : Block) (count : Nat) :
    Decidable (block.Gives functions count) :=
  inferInstanceAs (Decidable (_ = _))

instance instDecidableWellFormed (functions : List Function) : (place : Place) →
    (block : Block) → Decidable (block.WellFormed functions place)
  | _, skip => .isTrue trivial
  | _, plain _ => inferInstanceAs (Decidable (_ = _))
  | _, call _ => .isTrue trivial
  | place, seq first second =>
      have := instDecidableWellFormed functions place first
      have := instDecidableWellFormed functions place second
      inferInstanceAs (Decidable (_ ∧ _))
  | place, guarded body =>
      have := instDecidableWellFormed functions place body
      inferInstanceAs (Decidable (_ ∧ _))
  | place, when body =>
      have := instDecidableWellFormed functions place body
      inferInstanceAs (Decidable (_ ∧ _))
  | place, choose body otherwise =>
      have := instDecidableWellFormed functions place body
      have := instDecidableWellFormed functions place otherwise
      inferInstanceAs (Decidable ((_ ∧ _) ∧ _ ∧ _))
  | place, blend _ body otherwise =>
      have := instDecidableWellFormed functions place body
      have := instDecidableWellFormed functions place otherwise
      inferInstanceAs (Decidable ((_ ∧ _) ∧ _ ∧ _))
  | _, loop condition body step =>
      have := instDecidableWellFormed functions .edge condition
      have := instDecidableWellFormed functions .body body
      have := instDecidableWellFormed functions .edge step
      inferInstanceAs (Decidable ((_ ∧ _) ∧ (_ ∧ _) ∧ _ ∧ _))
  | place, leave => inferInstanceAs (Decidable (place ≠ .outside))
  | place, again => inferInstanceAs (Decidable (place = .body))

end Block

/-- The code of a function is a block followed by a return. -/
structure Function.StructuredBy (functions : List Function) (function : Function)
    (body : Block) (count : UInt8) : Prop where
  code : Listing.ofCode function.code =
    ⟨body.listing 0 ++ [⟨body.size, .ret count⟩], none⟩
  addressable : body.Addressable 0
  wellFormed : body.WellFormed functions .outside

namespace Function.StructuredBy

variable {functions : List Function} {function : Function} {body : Block} {count : UInt8}

/-- The instructions of the block and the return are what is read in their places. -/
theorem reads (structured : function.StructuredBy functions body count) {placed : Placed}
    (listed : placed ∈ body.listing 0 ++ [⟨body.size, .ret count⟩]) :
    Instruction.decode placed.offset (function.code.drop placed.offset) =
      .ok placed.instruction := by
  have read : placed ∈ (Listing.ofCode function.code).instructions := by
    rw [structured.code]
    exact listed
  obtain ⟨distance, offset, decoded⟩ := Listing.decode_of_mem_read read
  rw [Nat.zero_add] at offset
  rw [← offset] at decoded
  exact decoded

theorem room (structured : function.StructuredBy functions body count) :
    body.size + 2 ≤ function.code.length := by
  have decoded : Instruction.decode body.size (function.code.drop body.size) =
      .ok (.ret count) :=
    structured.reads (List.mem_append_right _ (List.mem_singleton.mpr rfl))
  have inside := Instruction.width_le decoded
  have width : (Instruction.ret count).width = 2 := rfl
  rw [width, List.length_drop] at inside
  omega

end Function.StructuredBy

/-- All functions of a program are structured. -/
def Program.Structured (program : Program) : Prop :=
  ∀ function ∈ program.functions, ∃ body count,
    function.StructuredBy program.functions body count

/-! ## Carrying out blocks -/

/-- Why carrying out a block did not come to its end. -/
inductive Stop where
  /-- A bound on the rounds of a loop or on the depth of calls was reached. -/
  | exhausted
  /-- An instruction failed. -/
  | failed (failure : Failure)

/-- Two stops of the same kind. -/
def Stop.Alike : Stop → Stop → Prop
  | exhausted, exhausted => True
  | failed first, failed second => first.report.kind = second.report.kind
  | _, _ => False

/-- What a machine becomes by some code. -/
abbrev Conduct := Machine → Except Stop Machine

/-- Do something where some lane is live, and pass over it elsewhere. -/
def Conduct.unlessIdle (conduct : Conduct) (skip : Machine → Machine) : Conduct :=
  fun machine => if machine.live.any then conduct machine else .ok (skip machine)

theorem Conduct.unlessIdle_live {conduct : Conduct} {skip : Machine → Machine}
    {machine : Machine} (live : machine.live.any = true) :
    conduct.unlessIdle skip machine = conduct machine :=
  if_pos live

theorem Conduct.unlessIdle_idle {conduct : Conduct} {skip : Machine → Machine}
    {machine : Machine} (idle : machine.live.any = false) :
    conduct.unlessIdle skip machine = .ok (skip machine) :=
  if_neg (by rw [idle]; decide)

/-- Carry out an instruction that stays in its activation or resumes a caller. -/
def Machine.act (batch : Batch σ) (instruction : Instruction) : Conduct := fun machine =>
  match (machine.advanced instruction).carry batch instruction with
  | .ok flow => .ok flow.machine
  | .error failure => .error (.failed failure)

theorem Machine.act_eq_ok {batch : Batch σ} {instruction : Instruction}
    {machine after : Machine} :
    machine.act batch instruction = .ok after ↔
      ∃ flow, (machine.advanced instruction).carry batch instruction = .ok flow ∧
        flow.machine = after := by
  unfold act
  cases (machine.advanced instruction).carry batch instruction <;> simp

theorem Machine.act_eq_error {batch : Batch σ} {instruction : Instruction}
    {machine : Machine} {stop : Stop} :
    machine.act batch instruction = .error stop ↔
      ∃ failure, (machine.advanced instruction).carry batch instruction =
        .error failure ∧ .failed failure = stop := by
  unfold act
  cases (machine.advanced instruction).carry batch instruction <;> simp

namespace Block

/-- Open a scope and carry out its first part. -/
def side (batch : Batch σ) (body : Conduct) : Conduct := fun machine =>
  machine.act batch .maskPush >>= body

/-- Carry out the first part of a conditional and turn to the second. -/
def half (batch : Batch σ) (body : Conduct) : Conduct := fun machine =>
  side batch body machine >>= Machine.act batch .maskNegate

/-- Carry out the two parts of a conditional, up to the end of its scope. -/
def sides (batch : Batch σ) (body otherwise : Conduct) : Conduct := fun machine =>
  half batch body machine >>= otherwise

/-- Carry out the rest of a round, from the test that some lane passes. -/
def turn (batch : Batch σ) (body step next : Conduct) (start : Nat) : Conduct :=
  fun machine => do
    let done ← body (machine.jumped (machine.current.offset + 3))
    let resumed ← done.act batch .loopNext
    let stepped ← step resumed
    next (stepped.jumped start)

/-- Carry out the rounds of a loop until no lane is left, from the start of a round. -/
def rounds (batch : Batch σ) (bytes : Nat) (condition body step : Conduct) :
    Nat → Conduct
  | 0, _ => .error .exhausted
  | limit + 1, machine => do
      let tested ← condition machine
      let narrowed ← tested.act batch .loopMask
      (turn batch body step (rounds batch bytes condition body step limit)
        machine.current.offset).unlessIdle
          (·.jumped (machine.current.offset + bytes)) narrowed

/--
Carry out a block.  Calls are left to `run`, which is to carry out the running
function up to its return.
-/
def exec (batch : Batch σ) (run : Conduct) (limit : Nat) : Block → Conduct
  | skip => fun machine => .ok machine
  | plain instruction => Machine.act batch instruction
  | call function =>
      Conduct.unlessIdle (fun machine => machine.act batch (.call function) >>= run)
        (·.advanced (.call function))
  | seq first second => fun machine =>
      first.exec batch run limit machine >>= second.exec batch run limit
  | guarded body =>
      Conduct.unlessIdle
        (fun machine =>
          body.exec batch run limit (machine.jumped (machine.current.offset + 3)))
        fun machine => machine.jumped (machine.current.offset + 3 + body.size)
  | when body => fun machine =>
      side batch (body.exec batch run limit) machine >>= Machine.act batch .maskPop
  | choose body otherwise => fun machine =>
      sides batch (body.exec batch run limit) (otherwise.exec batch run limit) machine >>=
        Machine.act batch .maskPop
  | blend count body otherwise => fun machine =>
      sides batch (body.exec batch run limit) (otherwise.exec batch run limit) machine >>=
        Machine.act batch (.maskBlend count)
  | loop condition body step => fun machine => do
      let begun ← machine.act batch .loopBegin
      let done ← rounds batch (span condition.size body.size step.size)
        (condition.exec batch run limit) (body.exec batch run limit)
        (step.exec batch run limit) limit begun
      done.act batch .loopEnd
  | leave => Machine.act batch .loopBreak
  | again => Machine.act batch .loopContinue

end Block

/-- The block and the return that the code of each function is made of. -/
abbrev Plan := Function → Block × UInt8

/-- Carry out the running function, up to and including its return. -/
def Plan.serve (plan : Plan) (batch : Batch σ) : Nat → Conduct
  | 0, _ => .error .exhausted
  | bound + 1, machine => do
      let outline := plan machine.current.function
      let done ← outline.1.exec batch (plan.serve batch bound) (bound + 1) machine
      done.act batch (.ret outline.2)

/-- Carry out the code of the running function, up to its return. -/
def Plan.perform (plan : Plan) (batch : Batch σ) (bound : Nat) : Conduct := fun machine =>
  (plan machine.current.function).1.exec batch (plan.serve batch bound) (bound + 1) machine

end Lockstep
