import Lockstep.Draft
import Lockstep.Proofs.Encoding
import Lockstep.Proofs.Results
import Mathlib.Data.List.Forall2

/-!
# Assembled code

Code that was assembled reads back as what was asked for.  A request names an
opcode and spells out operands; `Request.spells` says that the instruction of
a granted request has that opcode and those operands, and that its layout
admits them.

While nothing is refused, the assembler is a record of the statements it has
taken: `Assembler.Unfolds` says for any part of an assembly which instructions
its statements emit and where each statement stood among them, and
`Assembler.bound_iff` says that a label has the place at which it was bound.
The listing of the finished code follows, statement by statement.
-/

namespace Lockstep

/-! ## Requests -/

/-- An instruction with a given opcode and given operands, which its layout admits. -/
structure Instruction.Spells (instruction : Instruction) (opcode : Opcode)
    (operands : List UInt8) : Prop where
  opcode_eq : instruction.opcode = opcode
  operands_eq : instruction.operands = operands
  admitted : instruction.Admitted

theorem checkOperand_eq_ok {opcode : Opcode} {role : OperandRole}
    {low high value : UInt8} :
    checkOperand opcode role low high value = .ok () ↔ Within low high value :=
  ite_ok_iff

theorem checkSlotRun_within {opcode : Opcode} {count slot : UInt8}
    (passed : checkSlotRun opcode count slot = .ok ()) : Within 1 widestVector count :=
  checkOperand_eq_ok.mp (check_bind_eq_ok.mp passed).1

theorem checkSwizzle_admits {source : UInt8} {picks : List UInt8}
    (passed : checkSwizzle source picks = .ok ()) :
    Layout.swizzle.Admits (source :: UInt8.ofNat picks.length :: picks) := by
  obtain ⟨sources, passed⟩ := check_bind_eq_ok.mp passed
  obtain ⟨short, passed⟩ := guard_eq_ok.mp passed
  obtain ⟨counts, inside⟩ := check_bind_eq_ok.mp passed
  have positive := (checkOperand_eq_ok.mp sources).1
  refine ⟨checkOperand_eq_ok.mp sources, checkOperand_eq_ok.mp counts, ?_, ?_⟩
  · rw [UInt8.toNat_ofNat']
    omega
  · intro pick member
    have bounded := checkOperand_eq_ok.mp (forM_eq_ok.mp inside pick member)
    exact (UInt8.le_sub_one_iff positive).mp bounded.2

theorem Opcode.bare?_spells {opcode : Opcode} {instruction : Instruction}
    (bare : opcode.bare? = some instruction) : instruction.Spells opcode [] := by
  cases opcode <;> cases bare <;> exact ⟨rfl, rfl, trivial⟩

theorem Opcode.counted?_spells {opcode : Opcode} {count maximum : UInt8}
    {instruction : Instruction}
    (counted : opcode.counted? count = some (maximum, instruction))
    (range : Within 1 maximum count) : instruction.Spells opcode [count] := by
  cases opcode <;> cases counted <;> exact ⟨rfl, rfl, range⟩

theorem Opcode.indexed?_spells {opcode : Opcode} {count : UInt8}
    {instruction : Instruction} (indexed : opcode.indexed? count = some instruction)
    (range : Within 1 widestVector count) : instruction.Spells opcode [count] := by
  cases opcode <;> cases indexed <;> exact ⟨rfl, rfl, range⟩

theorem Opcode.withByte?_spells {opcode : Opcode} {operand : UInt8}
    {instruction : Instruction} (found : opcode.withByte? operand = some instruction) :
    instruction.Spells opcode [operand] := by
  cases opcode <;> cases found <;> exact ⟨rfl, rfl, trivial⟩

/-- The instruction of a granted request is the one that was asked for. -/
theorem Request.spells {request : Request} {instruction : Instruction}
    (granted : request.instruction = .ok instruction) :
    instruction.Spells request.opcode request.operands := by
  cases request with
  | bare opcode =>
      simp only [Request.instruction] at granted
      split at granted
      · rename_i found bare
        rcases granted with ⟨⟩
        exact Opcode.bare?_spells bare
      · cases granted
  | counted opcode count =>
      simp only [Request.instruction] at granted
      split at granted
      · rename_i maximum found counted
        obtain ⟨range, ⟨⟩⟩ := check_bind_eq_ok.mp granted
        exact Opcode.counted?_spells counted (checkOperand_eq_ok.mp range)
      · cases granted
  | indexed opcode count =>
      simp only [Request.instruction] at granted
      split at granted
      · rename_i found indexed
        obtain ⟨range, ⟨⟩⟩ := check_bind_eq_ok.mp granted
        exact Opcode.indexed?_spells indexed (checkOperand_eq_ok.mp range)
      · cases granted
  | byte opcode operand =>
      simp only [Request.instruction] at granted
      split at granted
      · rename_i found plain
        rcases granted with ⟨⟩
        exact Opcode.withByte?_spells plain
      · cases granted
  | push bits =>
      rcases granted with ⟨⟩
      exact ⟨rfl, rfl, trivial⟩
  | load space count slot =>
      obtain ⟨run, ⟨⟩⟩ := check_bind_eq_ok.mp granted
      exact ⟨rfl, rfl, checkSlotRun_within run⟩
  | store bank count slot =>
      obtain ⟨run, ⟨⟩⟩ := check_bind_eq_ok.mp granted
      exact ⟨rfl, rfl, checkSlotRun_within run⟩
  | call function =>
      rcases granted with ⟨⟩
      exact ⟨rfl, rfl, trivial⟩
  | ret count =>
      rcases granted with ⟨⟩
      exact ⟨rfl, rfl, trivial⟩
  | swizzle source picks =>
      obtain ⟨passed, ⟨⟩⟩ := check_bind_eq_ok.mp granted
      exact ⟨rfl, rfl, checkSwizzle_admits passed⟩
  | resizeMatrix fromColumns fromRows toColumns toRows =>
      obtain ⟨passed, ⟨⟩⟩ := check_bind_eq_ok.mp granted
      simp only [forM_eq_ok, checkOperand_eq_ok, List.forall_mem_cons] at passed
      obtain ⟨first, second, third, fourth, _⟩ := passed
      exact ⟨rfl, rfl, first, second, third, fourth⟩
  | multiplyMatrix leftColumns leftRows rightColumns =>
      obtain ⟨passed, ⟨⟩⟩ := check_bind_eq_ok.mp granted
      simp only [forM_eq_ok, checkOperand_eq_ok, List.forall_mem_cons] at passed
      obtain ⟨first, second, third, _⟩ := passed
      exact ⟨rfl, rfl, first, second, third⟩
  | diagonalMatrix columns rows =>
      obtain ⟨first, granted⟩ := check_bind_eq_ok.mp granted
      obtain ⟨second, ⟨⟩⟩ := check_bind_eq_ok.mp granted
      exact ⟨rfl, rfl, checkOperand_eq_ok.mp first, checkOperand_eq_ok.mp second⟩
  | callExternal arguments results external =>
      obtain ⟨first, granted⟩ := check_bind_eq_ok.mp granted
      obtain ⟨second, ⟨⟩⟩ := check_bind_eq_ok.mp granted
      exact ⟨rfl, rfl, checkOperand_eq_ok.mp first, checkOperand_eq_ok.mp second⟩
  | readExternal count external =>
      obtain ⟨range, ⟨⟩⟩ := check_bind_eq_ok.mp granted
      exact ⟨rfl, rfl, checkOperand_eq_ok.mp range⟩
  | writeExternal count external =>
      obtain ⟨range, ⟨⟩⟩ := check_bind_eq_ok.mp granted
      exact ⟨rfl, rfl, checkOperand_eq_ok.mp range⟩

theorem BranchKind.spells (kind : BranchKind) (target : UInt16) :
    (kind.instruction target).Spells kind.opcode (bytes16 target) := by
  cases kind <;> exact ⟨rfl, rfl, trivial⟩

/-! ## Statements -/

/-- A statement and the number of bytes that had been emitted before it. -/
structure Taken where
  here : Nat
  statement : Statement
deriving DecidableEq

/-- Whether a statement emits an instruction. -/
def Statement.emits : Statement → Bool
  | .branch _ _ => true
  | .emit _ => true
  | _ => false

/-- What a statement emits, if it emits anything and is not refused. -/
def Statement.emission? : Statement → Option Emission
  | .branch kind label => some (.branch kind label)
  | .emit request => request.instruction.toOption.map .plain
  | _ => none

namespace Assembler

/-- The statements of a list, each with the offset at which it is taken. -/
def history (assembler : Assembler) : List Statement → List Taken
  | [] => []
  | statement :: later =>
      ⟨assembler.size, statement⟩ :: (assembler.take statement).history later

/-- The ways in which a statement is taken without being refused. -/
inductive Accepts (assembler : Assembler) : Statement → Assembler → Prop where
  | allocated : Accepts assembler .newLabel
      { assembler with labels := assembler.labels.push none }
  | bound {label : Nat} (free : assembler.labels[label]? = some none) :
      Accepts assembler (.bind label)
        { assembler with
          labels := assembler.labels.setIfInBounds label (some assembler.size) }
  | emitted {statement : Statement} {emission : Emission}
      (emits : statement.emission? = some emission) :
      Accepts assembler statement (assembler.append emission)

theorem refuse_refusal (assembler : Assembler) (fault : BytecodeFault) :
    (assembler.refuse fault).refusal ≠ none := by
  unfold refuse
  cases assembler.refusal <;> simp

/-- A statement after which nothing has been refused was accepted. -/
theorem take_accepts {assembler : Assembler} {statement : Statement}
    (unrefused : (assembler.take statement).refusal = none) :
    assembler.refusal = none ∧
      assembler.Accepts statement (assembler.take statement) := by
  cases statement with
  | newLabel =>
      exact ⟨unrefused, .allocated⟩
  | bind label =>
      simp only [take] at unrefused ⊢
      split at unrefused
      · exact absurd unrefused (refuse_refusal _ _)
      · exact absurd unrefused (refuse_refusal _ _)
      · rename_i free
        exact ⟨unrefused, .bound free⟩
  | branch kind label =>
      exact ⟨unrefused, .emitted rfl⟩
  | emit request =>
      simp only [take] at unrefused ⊢
      split at unrefused
      · rename_i instruction granted
        refine ⟨unrefused, .emitted ?_⟩
        rw [Statement.emission?, granted]
        rfl
      · exact absurd unrefused (refuse_refusal _ _)

/-- A refusal is never forgotten. -/
theorem takeAll_unrefused {assembler : Assembler} {statements : List Statement}
    (unrefused : (assembler.takeAll statements).refusal = none) :
    assembler.refusal = none := by
  induction statements generalizing assembler with
  | nil =>
      exact unrefused
  | cons statement later induction =>
      exact (take_accepts (induction unrefused)).1

/-- Induction along statements of which none is refused. -/
@[elab_as_elim]
theorem unrefused_induction {motive : Assembler → List Statement → Prop}
    (finished : ∀ assembler, motive assembler [])
    (accepted : ∀ assembler statement later,
      assembler.Accepts statement (assembler.take statement) →
        motive (assembler.take statement) later → motive assembler (statement :: later))
    (assembler : Assembler) (statements : List Statement)
    (unrefused : (assembler.takeAll statements).refusal = none) :
    motive assembler statements := by
  induction statements generalizing assembler with
  | nil =>
      exact finished assembler
  | cons statement later induction =>
      have passed : (assembler.take statement).refusal = none :=
        @takeAll_unrefused _ later unrefused
      exact accepted assembler statement later (take_accepts passed).2
        (induction _ unrefused)

/-! ## Labels -/

theorem Accepts.bound_iff {assembler after : Assembler} {statement : Statement}
    (accepts : assembler.Accepts statement after) {label place : Nat} :
    after.labels[label]? = some (some place) ↔
      assembler.labels[label]? = some (some place) ∨
        statement = .bind label ∧ place = assembler.size := by
  cases accepts with
  | allocated =>
      simp only [Array.getElem?_push, reduceCtorEq, false_and, or_false]
      by_cases fresh : label = assembler.labels.size
      · simp [fresh]
      · rw [if_neg fresh]
  | @bound other free =>
      rw [Array.getElem?_setIfInBounds]
      by_cases same : other = label
      · subst same
        obtain ⟨inside, _⟩ := Array.getElem?_eq_some_iff.mp free
        rw [if_pos rfl, if_pos inside, free]
        simp [eq_comm]
      · simp [same]
  | emitted emits =>
      have other : statement ≠ .bind label := by
        rintro rfl
        cases emits
      simp [append, other]

/-- A label has a place exactly if it was bound there. -/
theorem bound_iff {assembler : Assembler} {statements : List Statement}
    (unrefused : (assembler.takeAll statements).refusal = none) {label place : Nat} :
    (assembler.takeAll statements).labels[label]? = some (some place) ↔
      assembler.labels[label]? = some (some place) ∨
        ⟨place, .bind label⟩ ∈ assembler.history statements := by
  refine unrefused_induction ?_ ?_ assembler statements unrefused
  · intro assembler
    simp [history, takeAll]
  · intro assembler statement later accepts induction
    change ((assembler.take statement).takeAll later).labels[label]? = _ ↔ _
    rw [induction, accepts.bound_iff, history, List.mem_cons, or_assoc, Taken.mk.injEq]
    tauto

/-! ## Emissions -/

/-- The instruction that a statement stands for once labels have their places. -/
def Fulfils (labels : Array (Option Nat)) (taken : Taken) (placed : Placed) : Prop :=
  placed.offset = taken.here ∧ ∃ emission, taken.statement.emission? = some emission ∧
    emission.resolve labels = .ok placed.instruction

/-- A statement stands for the instruction that it requests, or for a branch. -/
theorem Fulfils.stands {labels : Array (Option Nat)} {taken : Taken} {placed : Placed}
    (fulfils : Fulfils labels taken placed) :
    (∃ request, taken.statement = .emit request ∧
      request.instruction = .ok placed.instruction) ∨
    ∃ kind label place, taken.statement = .branch kind label ∧
      labels[label]? = some (some place) ∧ place < 65536 ∧
        placed.instruction = kind.instruction (UInt16.ofNat place) := by
  rcases taken with ⟨here, statement⟩
  rcases placed with ⟨offset, instruction⟩
  obtain ⟨_, emission, emits, resolved⟩ := fulfils
  cases statement with
  | newLabel => cases emits
  | bind label => cases emits
  | branch kind label =>
      rcases emits with ⟨⟩
      simp only [Emission.resolve] at resolved
      split at resolved
      · rename_i place known
        split at resolved
        · rename_i small
          rcases resolved with ⟨⟩
          exact Or.inr ⟨kind, label, place, rfl, known, small, rfl⟩
        · cases resolved
      · cases resolved
  | emit request =>
      simp only [Statement.emission?] at emits
      cases granted : request.instruction with
      | error fault =>
          rw [granted] at emits
          cases emits
      | ok instruction =>
          rw [granted] at emits
          rcases emits with ⟨⟩
          rcases resolved with ⟨⟩
          exact Or.inl ⟨request, rfl, granted⟩

/-- What a statement stands for is what it asks for. -/
theorem Fulfils.spells {labels : Array (Option Nat)} {taken : Taken} {placed : Placed}
    (fulfils : Fulfils labels taken placed) :
    (∃ request, taken.statement = .emit request ∧
      placed.instruction.Spells request.opcode request.operands) ∨
    ∃ kind label place, taken.statement = .branch kind label ∧
      labels[label]? = some (some place) ∧ place < 65536 ∧
        placed.instruction.Spells kind.opcode (bytes16 (UInt16.ofNat place)) := by
  rcases fulfils.stands with
    ⟨request, asked, granted⟩ | ⟨kind, label, place, asked, known, small, same⟩
  · exact Or.inl ⟨request, asked, Request.spells granted⟩
  · rw [same]
    exact Or.inr ⟨kind, label, place, asked, known, small, kind.spells _⟩

theorem Fulfils.admitted {labels : Array (Option Nat)} {taken : Taken} {placed : Placed}
    (fulfils : Fulfils labels taken placed) : placed.instruction.Admitted := by
  rcases fulfils.spells with ⟨_, _, spells⟩ | ⟨_, _, _, _, _, _, spells⟩
  · exact spells.admitted
  · exact spells.admitted

/-- The instructions that the rest of an assembly emits. -/
structure Unfolds (labels : Array (Option Nat)) (assembler : Assembler)
    (statements : List Statement) (instructions : List Instruction) : Prop where
  /-- Each statement that emits has its instruction, at the offset where it was taken. -/
  fulfilled : List.Forall₂ (Fulfils labels)
    ((assembler.history statements).filter (·.statement.emits))
    (placeFrom assembler.size instructions)
  /-- The instructions make up what is emitted. -/
  size : (assembler.takeAll statements).size =
    assembler.size + (instructions.flatMap Instruction.encode).length
  /-- Each statement is taken between two of the instructions. -/
  places : ∀ taken ∈ assembler.history statements,
    ∃ earlier later, instructions = earlier ++ later ∧
      taken.here = assembler.size + (earlier.flatMap Instruction.encode).length
  /-- The layouts admit all operands. -/
  admitted : ∀ instruction ∈ instructions, instruction.Admitted

theorem width_of_resolve {labels : Array (Option Nat)} {emission : Emission}
    {instruction : Instruction}
    (resolved : emission.resolve labels = .ok instruction) :
    instruction.width = emission.width := by
  cases emission with
  | plain instruction =>
      rcases resolved with ⟨⟩
      rfl
  | branch kind label =>
      simp only [Emission.resolve] at resolved
      split at resolved
      · split at resolved
        · rcases resolved with ⟨⟩
          cases kind <;> rfl
        · cases resolved
      · cases resolved

/-- A statement that emits nothing leaves what follows as it is. -/
theorem Unfolds.silent {labels : Array (Option Nat)} {assembler : Assembler}
    {statement : Statement} {later : List Statement} {instructions : List Instruction}
    (unfolds : Unfolds labels (assembler.take statement) later instructions)
    (silent : statement.emits = false)
    (still : (assembler.take statement).size = assembler.size) :
    Unfolds labels assembler (statement :: later) instructions := by
  rcases unfolds with ⟨fulfilled, size, places, admitted⟩
  rw [still] at fulfilled size places
  refine ⟨?_, size, ?_, admitted⟩
  · rw [history, List.filter_cons_of_neg (by simp [silent])]
    exact fulfilled
  · exact List.forall_mem_cons.mpr ⟨⟨[], instructions, rfl, rfl⟩, places⟩

/-- A statement that emits puts its instruction in front of what follows. -/
theorem Unfolds.emitting {labels : Array (Option Nat)} {assembler : Assembler}
    {statement : Statement} {later : List Statement} {emission : Emission}
    {instruction : Instruction} {instructions : List Instruction}
    (unfolds : Unfolds labels (assembler.take statement) later instructions)
    (emits : statement.emission? = some emission)
    (grown : (assembler.take statement).size = assembler.size + emission.width)
    (resolved : emission.resolve labels = .ok instruction) :
    Unfolds labels assembler (statement :: later) (instruction :: instructions) := by
  rcases unfolds with ⟨fulfilled, size, places, admitted⟩
  have loud : statement.emits = true := by
    cases statement <;> first | rfl | cases emits
  have fulfils : Fulfils labels ⟨assembler.size, statement⟩ ⟨assembler.size, instruction⟩ :=
    ⟨rfl, emission, emits, resolved⟩
  have total : ∀ others : List Instruction,
      assembler.size + instruction.width + (others.flatMap Instruction.encode).length =
        assembler.size + ((instruction :: others).flatMap Instruction.encode).length := by
    intro others
    rw [List.flatMap_cons, List.length_append, Nat.add_assoc]
    rfl
  rw [← width_of_resolve resolved] at grown
  rw [grown] at fulfilled size places
  refine ⟨?_, size.trans (total instructions), ?_,
    List.forall_mem_cons.mpr ⟨fulfils.admitted, admitted⟩⟩
  · rw [history, List.filter_cons_of_pos (by simpa using loud)]
    exact .cons fulfils fulfilled
  · refine List.forall_mem_cons.mpr ⟨⟨[], instruction :: instructions, rfl, rfl⟩, ?_⟩
    intro taken member
    obtain ⟨earlier, rest, rfl, place⟩ := places taken member
    exact ⟨instruction :: earlier, rest, rfl, place.trans (total earlier)⟩

/-- What is emitted is kept in order. -/
theorem emitted_takeAll {assembler : Assembler} {statements : List Statement}
    (unrefused : (assembler.takeAll statements).refusal = none) :
    (assembler.takeAll statements).emitted.toList =
      assembler.emitted.toList ++ statements.filterMap Statement.emission? := by
  refine unrefused_induction ?_ ?_ assembler statements unrefused
  · intro assembler
    simp [takeAll]
  · intro assembler statement later accepts induction
    change ((assembler.take statement).takeAll later).emitted.toList = _
    rw [induction]
    generalize assembler.take statement = after at accepts
    cases accepts with
    | allocated => rfl
    | bound free => rfl
    | emitted emits => simp [append, emits]

/-- Statements of which none is refused emit what their emissions resolve to. -/
theorem unfolds {labels : Array (Option Nat)} {assembler : Assembler}
    {statements : List Statement} (instructions : List Instruction)
    (unrefused : (assembler.takeAll statements).refusal = none)
    (resolved : List.Forall₂ (fun emission instruction =>
        emission.resolve labels = .ok instruction)
      (statements.filterMap Statement.emission?) instructions) :
    Unfolds labels assembler statements instructions := by
  revert instructions
  refine unrefused_induction ?_ ?_ assembler statements unrefused
  · rintro assembler _ ⟨⟩
    exact ⟨.nil, rfl, fun _ member => absurd member List.not_mem_nil,
      fun _ member => absurd member List.not_mem_nil⟩
  · intro assembler statement later accepts induction instructions resolved
    generalize reached : assembler.take statement = after at accepts
    cases accepts with
    | allocated =>
        exact (induction _ resolved).silent rfl (by rw [reached])
    | bound free =>
        exact (induction _ resolved).silent rfl (by rw [reached])
    | emitted emits =>
        rw [List.filterMap_cons_some emits] at resolved
        obtain _ | ⟨first, others⟩ := resolved
        exact (induction _ others).emitting emits (by rw [reached]; rfl) first

end Assembler

/-! ## Codes -/

theorem forall₂_of_mapM_eq_ok {ε α β : Type} {step : α → Except ε β} {entries : List α}
    {values : List β} (passed : entries.mapM step = .ok values) :
    List.Forall₂ (fun entry value => step entry = .ok value) entries values := by
  induction entries generalizing values with
  | nil =>
      rcases passed with ⟨⟩
      exact .nil
  | cons entry entries induction =>
      rw [List.mapM_cons] at passed
      obtain ⟨value, first, passed⟩ := bind_eq_ok.mp passed
      obtain ⟨others, rest, ⟨⟩⟩ := bind_eq_ok.mp passed
      exact .cons first (induction rest)

/-- The instruction of a code that a statement asked for. -/
inductive Carries (history : List Taken) (code : List UInt8) : Taken → Placed → Prop where
  /-- The opcode and the operands of the request. -/
  | plain {here : Nat} {request : Request} {instruction : Instruction}
      (opcode : instruction.opcode = request.opcode)
      (operands : instruction.operands = request.operands) :
      Carries history code ⟨here, .emit request⟩ ⟨here, instruction⟩
  /-- A branch to the only place where its label was bound, which is a boundary. -/
  | branch {here label : Nat} {kind : BranchKind} {instruction : Instruction}
      {target : UInt16} (opcode : instruction.opcode = kind.opcode)
      (operands : instruction.operands = bytes16 target)
      (bound : ∀ place, ⟨place, .bind label⟩ ∈ history ↔ place = target.toNat)
      (boundary : (Listing.ofCode code).Boundary code.length target.toNat) :
      Carries history code ⟨here, .branch kind label⟩ ⟨here, instruction⟩

/-- A code that reads back as what a history of statements asked for. -/
structure Assembled (history : List Taken) (code : List UInt8) : Prop where
  /-- The code is read to its end. -/
  whole : (Listing.ofCode code).stopped = none
  /-- The bytes are those of the instructions that are read. -/
  spelled : (Listing.ofCode code).instructions.flatMap
    (fun placed => placed.instruction.encode) = code
  /-- The statements that emit have their instructions, in order and where they stood. -/
  carried : List.Forall₂ (Carries history code)
    (history.filter (·.statement.emits)) (Listing.ofCode code).instructions

namespace Assembler

theorem finish_eq_ok {assembler : Assembler} {code : List UInt8}
    (finished : assembler.finish = .ok code) :
    assembler.refusal = none ∧ ∃ instructions : List Instruction,
      code = instructions.flatMap Instruction.encode ∧
        List.Forall₂ (fun emission instruction =>
            emission.resolve assembler.labels = .ok instruction)
          assembler.emitted.toList instructions := by
  unfold finish at finished
  split at finished
  · rename_i instructions assembled
    rcases finished with ⟨⟩
    unfold Assembler.instructions at assembled
    split at assembled
    · cases assembled
    · rename_i unrefused
      exact ⟨unrefused, instructions, rfl, forall₂_of_mapM_eq_ok assembled⟩
  · cases finished

theorem Fulfils.carries {labels : Array (Option Nat)} {taken : Taken} {placed : Placed}
    (fulfils : Fulfils labels taken placed) {history : List Taken} {code : List UInt8}
    (bound : ∀ label place, labels[label]? = some (some place) ↔
      ⟨place, .bind label⟩ ∈ history)
    (boundary : ∀ taken ∈ history,
      (Listing.ofCode code).Boundary code.length taken.here) :
    Carries history code taken placed := by
  rcases taken with ⟨here, statement⟩
  rcases placed with ⟨offset, instruction⟩
  have same : offset = here := fulfils.1
  subst same
  rcases fulfils.spells with
    ⟨request, rfl, spells⟩ | ⟨kind, label, place, rfl, known, small, spells⟩
  · exact .plain spells.opcode_eq spells.operands_eq
  · have exact : (UInt16.ofNat place).toNat = place := by
      rw [UInt16.toNat_ofNat']
      omega
    refine .branch spells.opcode_eq spells.operands_eq ?_ ?_
    · intro other
      rw [exact, ← bound, known]
      simp [eq_comm]
    · rw [exact]
      exact boundary _ ((bound label place).mp known)

/-- A place between two instructions of a code is a boundary of it. -/
theorem boundary_of_split {earlier later : List Instruction}
    (admitted : ∀ instruction ∈ earlier ++ later, instruction.Admitted) :
    (Listing.ofCode ((earlier ++ later).flatMap Instruction.encode)).Boundary
      ((earlier ++ later).flatMap Instruction.encode).length
      (earlier.flatMap Instruction.encode).length := by
  cases later with
  | nil =>
      rw [List.append_nil]
      exact Or.inl rfl
  | cons instruction later =>
      right
      rw [Listing.ofCode, Listing.read_encodings admitted]
      exact ⟨⟨_, instruction⟩,
        mem_placeFrom.mpr ⟨earlier, later, rfl, (Nat.zero_add _).symm⟩, rfl⟩

/--
Code that an assembly finishes with reads back as the instructions of the
statements that emit, and it ends where the assembly ended.
-/
theorem assembled_of_finish (statements : List Statement) (code : List UInt8)
    (finished : (empty.takeAll statements).finish = .ok code) :
    Assembled (empty.history statements) code ∧
      (empty.takeAll statements).size = code.length := by
  obtain ⟨unrefused, instructions, rfl, resolved⟩ := finish_eq_ok finished
  rw [emitted_takeAll unrefused] at resolved
  have unfolded := unfolds instructions unrefused resolved
  have reads := Listing.read_encodings unfolded.admitted 0
  have bound : ∀ label place,
      (empty.takeAll statements).labels[label]? = some (some place) ↔
        ⟨place, .bind label⟩ ∈ empty.history statements := by
    intro label place
    have unallocated : empty.labels[label]? = none := rfl
    simp [bound_iff unrefused, unallocated]
  have boundary : ∀ taken ∈ empty.history statements,
      (Listing.ofCode (instructions.flatMap Instruction.encode)).Boundary
        (instructions.flatMap Instruction.encode).length taken.here := by
    intro taken member
    obtain ⟨earlier, later, split, place⟩ := unfolded.places taken member
    have admitted := unfolded.admitted
    rw [split] at admitted ⊢
    rw [place, show empty.size = 0 from rfl, Nat.zero_add]
    exact boundary_of_split admitted
  refine ⟨⟨?_, ?_, ?_⟩, ?_⟩
  · rw [Listing.ofCode, reads]
  · have spelled := congrArg (List.flatMap Instruction.encode)
      (map_instruction_placeFrom 0 instructions)
    rw [List.flatMap_map] at spelled
    rw [Listing.ofCode, reads]
    exact spelled
  · have carried := unfolded.fulfilled.imp fun _ _ fulfils => fulfils.carries bound boundary
    rw [Listing.ofCode, reads]
    exact carried
  · exact unfolded.size.trans (Nat.zero_add _)

end Assembler

end Lockstep
