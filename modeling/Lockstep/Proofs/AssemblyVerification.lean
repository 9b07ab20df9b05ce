import Lockstep.Proofs.Assembly
import Lockstep.Proofs.WellFormedness

/-!
# Verification of assembled code

An assembler does not know the program that its code will be part of.  It
checks the operands that it can judge by themselves, and verification checks
the others: slots against the sizes of the spaces, callees, returns and
externals against their numbers.  Two things are left to verification although
they could be judged before: the amount of a shift, and a branch to the end of
the code.

`Assembler.Finished.passes_iff` compares what a statement asks for with what
verification asks of its instruction.  The code of a whole assembly follows
statement by statement, and nothing else that the assembler takes is ever
objected to.
-/

namespace Lockstep

/-! ## Requests within limits -/

/-- A request whose operands stay within the limits of a program. -/
def Request.Respects (limits : Bounds) : Request → Prop
  | .byte (.shift _) amount => amount.toNat < 32
  | .load space count slot => slot.toNat + count.toNat ≤ limits.slots space
  | .store bank count slot => slot.toNat + count.toNat ≤ limits.slots bank.space
  | .call function => function.toNat < limits.functions
  | .ret count => count.toNat = limits.returns
  | .callExternal _ _ external => external.toNat < limits.externals
  | .readExternal _ external => external.toNat < limits.externals
  | .writeExternal _ external => external.toNat < limits.externals
  | _ => True

section Requests

variable {limits : Bounds} {opcode : Opcode} {instruction : Instruction}

theorem Opcode.bare?_free (bare : opcode.bare? = some instruction) :
    instruction.Respects limits ∧ instruction.target? = none := by
  cases opcode <;> cases bare <;> exact ⟨trivial, rfl⟩

theorem Opcode.counted?_free {count maximum : UInt8}
    (counted : opcode.counted? count = some (maximum, instruction)) :
    instruction.Respects limits ∧ instruction.target? = none := by
  cases opcode <;> cases counted <;> exact ⟨trivial, rfl⟩

theorem Opcode.indexed?_free {count : UInt8}
    (indexed : opcode.indexed? count = some instruction) :
    instruction.Respects limits ∧ instruction.target? = none := by
  cases opcode <;> cases indexed <;> exact ⟨trivial, rfl⟩

theorem Opcode.withByte?_respects {operand : UInt8}
    (found : opcode.withByte? operand = some instruction) :
    (instruction.Respects limits ↔ (Request.byte opcode operand).Respects limits) ∧
      instruction.target? = none := by
  cases opcode <;> cases found <;> exact ⟨Iff.rfl, rfl⟩

/-- The instruction of a granted request keeps to the limits that the request keeps to. -/
theorem Request.respects_iff {request : Request}
    (granted : request.instruction = .ok instruction) :
    (instruction.Respects limits ↔ request.Respects limits) ∧
      instruction.target? = none := by
  cases request with
  | bare opcode =>
      simp only [Request.instruction] at granted
      split at granted
      · rename_i found bare
        rcases granted with ⟨⟩
        have free := @Opcode.bare?_free limits _ _ bare
        exact ⟨iff_of_true free.1 trivial, free.2⟩
      · cases granted
  | counted opcode count =>
      simp only [Request.instruction] at granted
      split at granted
      · rename_i maximum found counted
        obtain ⟨_, ⟨⟩⟩ := check_bind_eq_ok.mp granted
        have free := @Opcode.counted?_free limits _ _ _ _ counted
        exact ⟨iff_of_true free.1 trivial, free.2⟩
      · cases granted
  | indexed opcode count =>
      simp only [Request.instruction] at granted
      split at granted
      · rename_i found indexed
        obtain ⟨_, ⟨⟩⟩ := check_bind_eq_ok.mp granted
        have free := @Opcode.indexed?_free limits _ _ _ indexed
        exact ⟨iff_of_true free.1 trivial, free.2⟩
      · cases granted
  | byte opcode operand =>
      simp only [Request.instruction] at granted
      split at granted
      · rename_i found plain
        rcases granted with ⟨⟩
        exact Opcode.withByte?_respects plain
      · cases granted
  | push | call | ret =>
      rcases granted with ⟨⟩
      exact ⟨Iff.rfl, rfl⟩
  | load | store | swizzle | resizeMatrix | multiplyMatrix | readExternal
  | writeExternal =>
      obtain ⟨_, ⟨⟩⟩ := check_bind_eq_ok.mp granted
      exact ⟨Iff.rfl, rfl⟩
  | diagonalMatrix | callExternal =>
      obtain ⟨_, granted⟩ := check_bind_eq_ok.mp granted
      obtain ⟨_, ⟨⟩⟩ := check_bind_eq_ok.mp granted
      exact ⟨Iff.rfl, rfl⟩

theorem BranchKind.respects (kind : BranchKind) (target : UInt16) :
    (kind.instruction target).Respects limits ∧
      (kind.instruction target).target? = some target.toNat := by
  cases kind <;> exact ⟨trivial, rfl⟩

end Requests

/-! ## Instructions that pass -/

/-- An instruction within limits that leads, if it branches, to one of some instructions. -/
def Instruction.Passes (limits : Bounds) (instructions : List Instruction)
    (instruction : Instruction) : Prop :=
  instruction.Respects limits ∧
    ∀ target, instruction.target? = some target → StartsAt instructions target

/-- A place between two instructions starts one, unless it is behind the last. -/
theorem startsAt_iff_ne {earlier later : List Instruction} :
    StartsAt (earlier ++ later) (earlier.flatMap Instruction.encode).length ↔
      (earlier.flatMap Instruction.encode).length ≠
        ((earlier ++ later).flatMap Instruction.encode).length := by
  constructor
  · rintro ⟨front, instruction, back, split, place⟩
    have positive := instruction.width_pos
    rw [place, split]
    simp only [List.flatMap_append, List.flatMap_cons, List.length_append]
    unfold Instruction.width at positive
    omega
  · intro inside
    cases later with
    | nil =>
        rw [List.append_nil] at inside
        exact absurd rfl inside
    | cons instruction later =>
        exact ⟨earlier, instruction, later, rfl, rfl⟩

/-- Encodings of admitted instructions pass as a code if each instruction passes. -/
theorem Function.checkCode_encodings {limits : Bounds} {function : Function}
    {instructions : List Instruction}
    (encoded : function.code = instructions.flatMap Instruction.encode)
    (admitted : ∀ instruction ∈ instructions, instruction.Admitted) :
    function.checkCode limits = .ok () ↔
      ∀ instruction ∈ instructions, instruction.Passes limits instructions := by
  rw [Function.checkCode_eq_ok, Function.codeVerified_iff]
  constructor
  · rintro ⟨others, composes⟩ instruction member
    obtain rfl : instructions = others :=
      encodings_injective admitted composes.admitted (encoded ▸ composes.encoded)
    exact ⟨composes.respected instruction member, composes.branches instruction member⟩
  · intro passes
    exact ⟨instructions, encoded, admitted, fun _ member => (passes _ member).1,
      fun _ member => (passes _ member).2⟩

/-! ## Statements that pass -/

/-- What holds of all entries of one list holds of all entries of a related one. -/
theorem forall_mem_iff_of_forall₂ {α β : Type} {related : α → β → Prop} {left : List α}
    {right : List β} {first : α → Prop} {second : β → Prop}
    (matched : List.Forall₂ related left right)
    (agree : ∀ entry other, related entry other → (first entry ↔ second other)) :
    (∀ entry ∈ left, first entry) ↔ ∀ other ∈ right, second other := by
  induction matched with
  | nil =>
      simp
  | cons paired _ induction =>
      rw [List.forall_mem_cons, List.forall_mem_cons, agree _ _ paired, induction]

/-- A statement to which verification of a code of some length does not object. -/
def Statement.Passes (limits : Bounds) (history : List Taken) (length : Nat) :
    Statement → Prop
  | .emit request => request.Respects limits
  | .branch _ label => ⟨length, .bind label⟩ ∉ history
  | _ => True

namespace Assembler

theorem map_statement_history (assembler : Assembler) (statements : List Statement) :
    (assembler.history statements).map Taken.statement = statements := by
  induction statements generalizing assembler with
  | nil =>
      rfl
  | cons statement later induction =>
      rw [history, List.map_cons, induction]

/-- Statements that emit nothing are not objected to. -/
theorem forall_passes_iff {assembler : Assembler} {statements : List Statement}
    {limits : Bounds} {history : List Taken} {length : Nat} :
    (∀ taken ∈ (assembler.history statements).filter (·.statement.emits),
        taken.statement.Passes limits history length) ↔
      ∀ statement ∈ statements, statement.Passes limits history length := by
  have silent : ∀ {statement : Statement}, ¬ statement.emits = true →
      statement.Passes limits history length := by
    intro statement still
    cases statement with
    | newLabel | bind => trivial
    | branch | emit => exact absurd rfl still
  constructor
  · intro passes statement member
    by_cases loud : statement.emits = true
    · rw [← map_statement_history assembler statements] at member
      obtain ⟨taken, listed, rfl⟩ := List.mem_map.mp member
      exact passes taken (List.mem_filter.mpr ⟨listed, loud⟩)
    · exact silent loud
  · intro passes taken member
    apply passes
    rw [← map_statement_history assembler statements]
    exact List.mem_map_of_mem (List.mem_of_mem_filter member)

/-- What a finished assembly has come to. -/
structure Finished (statements : List Statement) (code : List UInt8)
    (instructions : List Instruction) : Prop where
  encoded : code = instructions.flatMap Instruction.encode
  unfolded : Unfolds (empty.takeAll statements).labels empty statements instructions
  /-- A label has the place at which it was bound. -/
  bound : ∀ label place,
    (empty.takeAll statements).labels[label]? = some (some place) ↔
      ⟨place, .bind label⟩ ∈ empty.history statements

theorem finished_of_finish {statements : List Statement} {code : List UInt8}
    (finished : (empty.takeAll statements).finish = .ok code) :
    ∃ instructions, Finished statements code instructions := by
  obtain ⟨unrefused, instructions, encoded, resolved⟩ := finish_eq_ok finished
  rw [emitted_takeAll unrefused] at resolved
  refine ⟨instructions, encoded, unfolds instructions unrefused resolved, ?_⟩
  intro label place
  have unallocated : empty.labels[label]? = none := rfl
  simp [bound_iff unrefused, unallocated]

namespace Finished

variable {statements : List Statement} {code : List UInt8} {instructions : List Instruction}

/-- A bound label leads to an instruction, unless it was bound at the end. -/
theorem startsAt_iff (finished : Finished statements code instructions) {label place : Nat}
    (known : (empty.takeAll statements).labels[label]? = some (some place)) :
    StartsAt instructions place ↔
      ⟨code.length, .bind label⟩ ∉ empty.history statements := by
  obtain ⟨earlier, later, split, here⟩ :=
    finished.unfolded.places _ ((finished.bound label place).mp known)
  have place_eq : place = (earlier.flatMap Instruction.encode).length :=
    here.trans (Nat.zero_add _)
  rw [← finished.bound, known, finished.encoded, split, place_eq, startsAt_iff_ne]
  simp

/-- A statement passes exactly if the instruction that it stands for does. -/
theorem passes_iff (finished : Finished statements code instructions) {limits : Bounds}
    {taken : Taken} {placed : Placed}
    (fulfils : Fulfils (empty.takeAll statements).labels taken placed) :
    taken.statement.Passes limits (empty.history statements) code.length ↔
      placed.instruction.Passes limits instructions := by
  rcases fulfils.stands with
    ⟨request, asked, granted⟩ | ⟨kind, label, place, asked, known, small, same⟩
  · obtain ⟨respects, straight⟩ := @Request.respects_iff limits _ _ granted
    rw [asked, Instruction.Passes, respects, straight]
    simp [Statement.Passes]
  · obtain ⟨respects, leads⟩ := @BranchKind.respects limits kind (UInt16.ofNat place)
    have exact : (UInt16.ofNat place).toNat = place := by
      rw [UInt16.toNat_ofNat']
      omega
    rw [asked, same, Instruction.Passes, leads, exact]
    change _ ∉ _ ↔ _
    rw [← finished.startsAt_iff known]
    simp [respects]

/-- The code of an assembly passes exactly if all its statements do. -/
theorem checkCode_iff (finished : Finished statements code instructions)
    {limits : Bounds} {function : Function} (carries : function.code = code) :
    function.checkCode limits = .ok () ↔
      ∀ statement ∈ statements,
        statement.Passes limits (empty.history statements) code.length := by
  have listed : (∀ instruction ∈ instructions, instruction.Passes limits instructions) ↔
      ∀ placed ∈ placeFrom 0 instructions,
        placed.instruction.Passes limits instructions := by
    rw [← List.forall_mem_map (f := Placed.instruction), map_instruction_placeFrom]
  rw [Function.checkCode_encodings (carries.trans finished.encoded)
    finished.unfolded.admitted, listed, ← @forall_passes_iff empty]
  exact (forall_mem_iff_of_forall₂ finished.unfolded.fulfilled
    fun _ _ fulfils => finished.passes_iff fulfils).symm

end Finished

/--
The code of an assembly that finishes passes verification in a function of a
program exactly if the slots, callees, returns, externals and shift amounts of
its requests stay within the limits of the program, and no branch leads to a
label that was bound at the end of the code.
-/
theorem assembler_and_verifier_agree (statements : List Statement) (code : List UInt8)
    (finished : (empty.takeAll statements).finish = .ok code) (program : Program)
    (externals : Nat) (function : Function) (carries : function.code = code) :
    function.checkCode (program.bounds externals function) = .ok () ↔
      (∀ request, .emit request ∈ statements →
        request.Respects (program.bounds externals function)) ∧
      ∀ kind label, .branch kind label ∈ statements →
        ⟨code.length, .bind label⟩ ∉ empty.history statements := by
  obtain ⟨instructions, done⟩ := finished_of_finish finished
  rw [done.checkCode_iff carries]
  constructor
  · intro passes
    exact ⟨fun _ member => passes _ member, fun _ _ member => passes _ member⟩
  · rintro ⟨requests, branches⟩ statement member
    cases statement with
    | newLabel | bind => trivial
    | branch kind label => exact branches kind label member
    | emit request => exact requests request member

/-- A loop around a call that a branch forward leaves, in front of the last return. -/
def crossing : List Statement :=
  [.newLabel, .newLabel, .bind 0, .emit (.load .global 2 1),
    .emit (.byte (.shift .left) 31), .emit (.store .local 2 0), .branch .ifAllFalse 1,
    .emit (.call 0), .emit (.readExternal 1 0), .branch .always 0, .bind 1,
    .emit (.ret 0)]

/-- A function with two locals. -/
def ferry (code : List UInt8) : Function where
  name := "ferry"
  parameterCount := 0
  localCount := 2
  stackCount := 3
  code := code

/--
With three globals and one external the code of `crossing` passes, with two
globals it does not, and neither does it without the return at its end.
-/
theorem assembler_and_verifier_agree_crossing :
    ∃ code shorter, (empty.takeAll crossing).finish = .ok code ∧
      (empty.takeAll crossing.dropLast).finish = .ok shorter ∧
      (ferry code).checkCode
        (Program.bounds { functions := [ferry code], globalCount := 3 } 1 (ferry code)) =
          .ok () ∧
      (ferry code).checkCode
        (Program.bounds { functions := [ferry code], globalCount := 2 } 1 (ferry code)) ≠
          .ok () ∧
      (ferry shorter).checkCode
        (Program.bounds { functions := [ferry shorter], globalCount := 3 } 1
          (ferry shorter)) ≠ .ok () := by
  refine ⟨_, _, rfl, rfl, ?_, ?_, ?_⟩
  · refine (assembler_and_verifier_agree crossing _ rfl _ 1 _ rfl).mpr ⟨?_, ?_⟩
    · simp [crossing, Request.Respects, Program.bounds, Bounds.slots, Bank.space, ferry,
        Function.frameSize, saturatingAdd, largestSize]
    · intro kind label member
      simp only [crossing, List.mem_cons, reduceCtorEq, Statement.branch.injEq,
        List.not_mem_nil, or_false, false_or] at member
      rcases member with ⟨rfl, rfl⟩ | ⟨rfl, rfl⟩ <;> decide
  · intro passed
    have inside := ((assembler_and_verifier_agree crossing _ rfl _ 1 _ rfl).mp passed).1
      (.load .global 2 1) (by decide)
    exact absurd inside (by decide : ¬ 1 + 2 ≤ 2)
  · intro passed
    have ahead := ((assembler_and_verifier_agree crossing.dropLast _ rfl _ 1 _ rfl).mp
      passed).2 .ifAllFalse 1 (by decide)
    exact ahead (by decide)

end Assembler

end Lockstep
