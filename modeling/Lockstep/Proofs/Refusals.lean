import Lockstep.Proofs.Assembly
import Mathlib.Data.List.Induction

/-!
# Assembly that fails

Assembly fails for the first statement that is refused, and if there is none,
for the first branch whose label has no place or one that is too far.  What is
refused can be said without an assembler.  A request is refused for the first
of its demands that is not met, and a label cannot be bound before it has been
allocated or after it has been bound: `Statement.Refused` speaks of the
statements before alone.

`Assembler.Reflects` ties an assembler to the statements that it has taken,
refused or not.  By it, what an assembler remembers as its refusal is the first
one of its statements, and what it resolves a branch to is the place at which
the statements bind its label.  A refused statement leaves nothing else behind.
-/

namespace Lockstep

/-! ## The first fault of a list -/

section FirstFault

variable {α β ε : Type} {faulty : α → ε → Prop} {fault : ε}

/-- The fault of an entry of a list, before which no entry has one. -/
def FirstFault (faulty : α → ε → Prop) (entries : List α) (fault : ε) : Prop :=
  ∃ earlier entry later, entries = earlier ++ entry :: later ∧
    (∀ other ∈ earlier, ∀ reason, ¬ faulty other reason) ∧ faulty entry fault

theorem not_firstFault_nil : ¬ FirstFault faulty [] fault := by
  rintro ⟨earlier, entry, later, split, _⟩
  cases earlier <;> cases split

theorem firstFault_cons {entry : α} {rest : List α} :
    FirstFault faulty (entry :: rest) fault ↔
      faulty entry fault ∨
        (∀ reason, ¬ faulty entry reason) ∧ FirstFault faulty rest fault := by
  constructor
  · rintro ⟨earlier, other, later, split, clear, found⟩
    cases earlier with
    | nil =>
        cases split
        exact Or.inl found
    | cons head earlier =>
        cases split
        obtain ⟨first, others⟩ := List.forall_mem_cons.mp clear
        exact Or.inr ⟨first, earlier, other, later, rfl, others, found⟩
  · rintro (found | ⟨first, earlier, other, later, rfl, others, found⟩)
    · exact ⟨[], entry, rest, rfl, by simp, found⟩
    · exact ⟨entry :: earlier, other, later, rfl,
        List.forall_mem_cons.mpr ⟨first, others⟩, found⟩

/-- If some entry has a fault, then one is the first. -/
theorem exists_firstFault {entries : List α} :
    (∃ fault, FirstFault faulty entries fault) ↔
      ∃ entry ∈ entries, ∃ fault, faulty entry fault := by
  constructor
  · rintro ⟨fault, earlier, entry, later, rfl, _, found⟩
    exact ⟨entry, by simp, fault, found⟩
  · rintro ⟨entry, member, found⟩
    induction entries with
    | nil => cases member
    | cons head rest induction =>
        by_cases first : ∃ fault, faulty head fault
        · obtain ⟨fault, first⟩ := first
          exact ⟨fault, firstFault_cons.mpr (Or.inl first)⟩
        · rcases List.mem_cons.mp member with rfl | later
          · exact absurd found first
          · obtain ⟨fault, rest⟩ := induction later
            exact ⟨fault, firstFault_cons.mpr (Or.inr ⟨not_exists.mp first, rest⟩)⟩

/-- A sequence of steps fails for the first entry at which a step fails. -/
theorem mapM_eq_error {step : α → Except ε β} {entries : List α} :
    entries.mapM step = .error fault ↔
      FirstFault (fun entry reason => step entry = .error reason) entries fault := by
  induction entries with
  | nil => simp [not_firstFault_nil, pure, Except.pure]
  | cons entry rest induction =>
      rw [List.mapM_cons, firstFault_cons, ← induction]
      cases step entry with
      | error reason => simp [bind, Except.bind]
      | ok value => cases rest.mapM step <;> simp [bind, Except.bind, pure, Except.pure]

theorem firstFault_congr {other : α → ε → Prop} {entries : List α}
    (same : ∀ entry reason, faulty entry reason ↔ other entry reason) :
    FirstFault faulty entries fault ↔ FirstFault other entries fault := by
  simp only [FirstFault, same]

/-- Entries that are not looked at have no fault. -/
theorem firstFault_filterMap {view : β → Option α} {entries : List β} :
    FirstFault faulty (entries.filterMap view) fault ↔
      FirstFault (fun entry reason => ∃ seen, view entry = some seen ∧ faulty seen reason)
        entries fault := by
  induction entries with
  | nil => simp [not_firstFault_nil]
  | cons entry rest induction =>
      rw [firstFault_cons, ← induction]
      cases seen : view entry with
      | none => simp [List.filterMap_cons_none seen]
      | some value => simp [List.filterMap_cons_some seen, firstFault_cons]

end FirstFault

/-! ## Demands of requests -/

/-- Something that a request has to meet. -/
inductive Demand where
  /-- The opcode has the operands that the emitter supplies. -/
  | layout (opcode : Opcode) (emitter : Emitter)
  /-- An operand lies in its range. -/
  | operand (opcode : Opcode) (role : OperandRole) (low high value : UInt8)
  /-- A byte can name the last slot of a run. -/
  | slots (opcode : Opcode) (slot count : UInt8)
  /-- A byte can count the component positions. -/
  | positions (count : Nat)

/-- The layouts for which an emitter supplies the operands. -/
def Emitter.Suits : Emitter → Layout → Prop
  | .bare, .bare => True
  | .counted, .count _ => True
  | .indexed, .extended _ => True
  | .byte, .byte => True
  | _, _ => False

/-- Whether a demand is met. -/
def Demand.Met : Demand → Prop
  | .layout opcode emitter => emitter.Suits opcode.layout
  | .operand _ _ low high value => Within low high value
  | .slots _ slot count => slot.toNat + count.toNat - 1 ≤ 255
  | .positions count => count ≤ 255

/-- What is reported if a demand is not met. -/
def Demand.fault : Demand → BytecodeFault
  | .layout opcode emitter => .layout opcode emitter
  | .operand opcode role low high value => .operand opcode role value low high
  | .slots opcode slot count => .slotOverflow opcode slot count
  | .positions _ => .tooManyIndices

/-- A demand that is not met, and what is reported for it. -/
def Demand.Unmet (demand : Demand) (fault : BytecodeFault) : Prop :=
  ¬ demand.Met ∧ fault = demand.fault

/-- The range of the count of an opcode that takes one. -/
def Opcode.countDemands (opcode : Opcode) (count : UInt8) : List Demand :=
  match opcode.layout with
  | .count maximum => [.operand opcode .count 1 maximum count]
  | _ => []

/-- What a request has to meet, in the order in which it is looked at. -/
def Request.demands : Request → List Demand
  | .bare opcode => [.layout opcode .bare]
  | .counted opcode count => .layout opcode .counted :: opcode.countDemands count
  | .indexed opcode count =>
      [.layout opcode .indexed, .operand opcode .count 1 widestVector count]
  | .byte opcode _ => [.layout opcode .byte]
  | .push _ => []
  | .load space count slot =>
      [.operand (.load space) .count 1 widestVector count, .slots (.load space) slot count]
  | .store bank count slot =>
      [.operand (.store bank) .count 1 widestVector count, .slots (.store bank) slot count]
  | .call _ => []
  | .ret _ => []
  | .swizzle source picks =>
      .operand .swizzle .sourceCount 1 widestVector source :: .positions picks.length ::
        .operand .swizzle .count 1 widestVector (UInt8.ofNat picks.length) ::
          picks.map (.operand .swizzle .index 0 (source - 1))
  | .resizeMatrix fromColumns fromRows toColumns toRows =>
      [fromColumns, fromRows, toColumns, toRows].map
        (.operand .resizeMatrix .dimension 2 4)
  | .multiplyMatrix leftColumns leftRows rightColumns =>
      [leftColumns, leftRows, rightColumns].map (.operand .multiplyMatrix .dimension 1 4)
  | .diagonalMatrix columns rows =>
      [.operand .diagonalMatrix .columns 2 4 columns,
        .operand .diagonalMatrix .rows 2 4 rows]
  | .callExternal arguments results _ =>
      [.operand .callExternal .argumentCount 0 4 arguments,
        .operand .callExternal .returnCount 0 4 results]
  | .readExternal count _ => [.operand .readExternal .count 1 widestVector count]
  | .writeExternal count _ => [.operand .writeExternal .count 1 widestVector count]

/-- A request is refused for the first of its demands that is not met. -/
def Request.Refused (request : Request) (fault : BytecodeFault) : Prop :=
  FirstFault Demand.Unmet request.demands fault

/-- A result that fails exactly for the first of some demands that is not met. -/
def Enforces {α : Type} (result : Except BytecodeFault α) (demands : List Demand) : Prop :=
  ∀ fault, result = .error fault ↔ FirstFault Demand.Unmet demands fault

theorem firstUnmet_cons {demand : Demand} {rest : List Demand} {fault : BytecodeFault} :
    FirstFault Demand.Unmet (demand :: rest) fault ↔
      ¬ demand.Met ∧ fault = demand.fault ∨
        demand.Met ∧ FirstFault Demand.Unmet rest fault := by
  have met : (∀ reason, ¬ demand.Unmet reason) ↔ demand.Met := by
    simp [Demand.Unmet]
  rw [firstFault_cons, met]
  rfl

namespace Enforces

variable {α : Type} {demands others : List Demand}

theorem ok (value : α) : Enforces (.ok value) [] :=
  fun _ => iff_of_false (by rintro ⟨⟩) not_firstFault_nil

/-- A demand that is not met, whatever would have been asked next. -/
theorem error (demand : Demand) (unmet : ¬ demand.Met) :
    Enforces (.error demand.fault : Except BytecodeFault α) (demand :: demands) := by
  intro fault
  rw [firstUnmet_cons]
  simp [unmet, eq_comm]

/-- A demand that is met makes no difference. -/
theorem met {result : Except BytecodeFault α} {demand : Demand}
    (enforces : Enforces result demands) (holds : demand.Met) :
    Enforces result (demand :: demands) := by
  intro fault
  rw [enforces fault, firstUnmet_cons]
  simp [holds]

theorem operand (opcode : Opcode) (role : OperandRole) (low high value : UInt8) :
    Enforces (checkOperand opcode role low high value)
      [.operand opcode role low high value] := by
  unfold checkOperand
  split
  · rename_i within
    exact (ok ()).met within
  · rename_i outside
    exact error (.operand opcode role low high value) outside

/-- Checks that are made one after the other. -/
theorem bind {check : Except BytecodeFault Unit} {next : Unit → Except BytecodeFault α}
    (begun : Enforces check demands) (continued : Enforces (next ()) others) :
    Enforces (check >>= next) (demands ++ others) := by
  intro fault
  induction demands generalizing check with
  | nil =>
      cases check with
      | ok done => exact continued fault
      | error reason => exact absurd ((begun reason).mp rfl) not_firstFault_nil
  | cons demand rest induction =>
      rw [List.cons_append, firstUnmet_cons]
      by_cases holds : demand.Met
      · have rest : Enforces check rest := by
          intro reason
          rw [begun reason, firstUnmet_cons]
          simp [holds]
        rw [induction rest]
        simp [holds]
      · have failed : check = .error demand.fault :=
          (begun _).mpr (firstUnmet_cons.mpr (Or.inl ⟨holds, rfl⟩))
        rw [failed]
        simp [holds, Bind.bind, Except.bind, eq_comm]

/-- A result is given once a check has passed. -/
theorem andReturn {check : Except BytecodeFault Unit} (begun : Enforces check demands)
    (value : α) : Enforces (check >>= fun _ => pure value) demands := by
  have enforced : Enforces (check >>= fun _ => .ok value) (demands ++ []) :=
    begun.bind (ok value)
  rw [List.append_nil] at enforced
  exact enforced

/-- The same check of each entry of a list. -/
theorem forM {entries : List UInt8} {check : UInt8 → Except BytecodeFault Unit}
    {wanted : UInt8 → Demand} (each : ∀ entry, Enforces (check entry) [wanted entry]) :
    Enforces (entries.forM check) (entries.map wanted) := by
  induction entries with
  | nil => exact ok ()
  | cons entry rest induction => exact (each entry).bind induction

theorem slotRun (opcode : Opcode) (count slot : UInt8) :
    Enforces (checkSlotRun opcode count slot)
      [.operand opcode .count 1 widestVector count, .slots opcode slot count] := by
  refine (operand opcode .count 1 widestVector count).bind ?_
  split
  · rename_i beyond
    refine error (.slots opcode slot count) ?_
    simp only [Demand.Met]
    omega
  · rename_i inside
    refine (ok ()).met ?_
    simp only [Demand.Met]
    omega

theorem swizzle (source : UInt8) (picks : List UInt8) :
    Enforces (checkSwizzle source picks) (Request.swizzle source picks).demands := by
  refine (operand _ _ _ _ source).bind ?_
  split
  · rename_i beyond
    exact error (.positions picks.length) (Nat.not_le.mpr beyond)
  · rename_i inside
    exact ((operand _ _ _ _ _).bind (forM fun _ => operand _ _ _ _ _)).met
      (Nat.not_lt.mp inside)

end Enforces

/-! ## Requests that are refused -/

theorem Opcode.bare?_eq_none {opcode : Opcode} :
    opcode.bare? = none ↔ ¬ Emitter.bare.Suits opcode.layout := by
  cases opcode <;>
    first
    | exact iff_of_true rfl not_false
    | exact iff_of_false (Option.some_ne_none _) (not_not_intro trivial)

theorem Opcode.withByte?_eq_none {opcode : Opcode} {operand : UInt8} :
    opcode.withByte? operand = none ↔ ¬ Emitter.byte.Suits opcode.layout := by
  cases opcode <;>
    first
    | exact iff_of_true rfl not_false
    | exact iff_of_false (Option.some_ne_none _) (not_not_intro trivial)

theorem Opcode.indexed?_eq_none {opcode : Opcode} {count : UInt8} :
    opcode.indexed? count = none ↔ ¬ Emitter.indexed.Suits opcode.layout := by
  cases opcode <;>
    first
    | exact iff_of_true rfl not_false
    | exact iff_of_false (Option.some_ne_none _) (not_not_intro trivial)

theorem Opcode.counted?_eq_none {opcode : Opcode} {count : UInt8} :
    opcode.counted? count = none ↔ ¬ Emitter.counted.Suits opcode.layout := by
  cases opcode <;>
    first
    | exact iff_of_true rfl not_false
    | exact iff_of_false (Option.some_ne_none _) (not_not_intro trivial)

/-- The greatest count of an opcode is the one of its layout. -/
theorem Opcode.layout_of_counted? {opcode : Opcode} {count maximum : UInt8}
    {instruction : Instruction}
    (counted : opcode.counted? count = some (maximum, instruction)) :
    opcode.layout = .count maximum := by
  cases opcode <;> cases counted <;> rfl

/-- An opcode that is found for an emitter has a layout that suits the emitter. -/
theorem suits_of_found {α : Type} {opcode : Opcode} {emitter : Emitter} {found : Option α}
    {value : α} (known : found = none ↔ ¬ emitter.Suits opcode.layout)
    (present : found = some value) : (Demand.layout opcode emitter).Met := by
  by_contra unsuited
  rw [known.mpr unsuited] at present
  cases present

/-- A request is refused exactly for the first of its demands that is not met. -/
theorem Request.enforces (request : Request) :
    Enforces request.instruction request.demands := by
  cases request with
  | bare opcode =>
      simp only [Request.instruction]
      split
      · rename_i found
        exact (Enforces.ok _).met (suits_of_found Opcode.bare?_eq_none found)
      · rename_i missing
        exact .error (.layout opcode .bare) (Opcode.bare?_eq_none.mp missing)
  | counted opcode count =>
      simp only [Request.instruction, Request.demands]
      split
      · rename_i found
        rw [Opcode.countDemands, Opcode.layout_of_counted? found]
        exact ((Enforces.operand _ _ _ _ _).andReturn _).met
          (suits_of_found Opcode.counted?_eq_none found)
      · rename_i missing
        exact .error (.layout opcode .counted) (Opcode.counted?_eq_none.mp missing)
  | indexed opcode count =>
      simp only [Request.instruction]
      split
      · rename_i found
        exact ((Enforces.operand _ _ _ _ _).andReturn _).met
          (suits_of_found Opcode.indexed?_eq_none found)
      · rename_i missing
        exact .error (.layout opcode .indexed) (Opcode.indexed?_eq_none.mp missing)
  | byte opcode operand =>
      simp only [Request.instruction]
      split
      · rename_i found
        exact (Enforces.ok _).met (suits_of_found Opcode.withByte?_eq_none found)
      · rename_i missing
        exact .error (.layout opcode .byte) (Opcode.withByte?_eq_none.mp missing)
  | push | call | ret =>
      exact .ok _
  | load | store =>
      exact (Enforces.slotRun _ _ _).andReturn _
  | swizzle source picks =>
      exact (Enforces.swizzle source picks).andReturn _
  | resizeMatrix | multiplyMatrix =>
      exact (Enforces.forM fun _ => .operand _ _ _ _ _).andReturn _
  | diagonalMatrix | callExternal =>
      exact (Enforces.operand _ _ _ _ _).bind ((Enforces.operand _ _ _ _ _).andReturn _)
  | readExternal | writeExternal =>
      exact (Enforces.operand _ _ _ _ _).andReturn _

/-! ## Statements that are refused -/

/-- The number of labels that statements allocate. -/
def allocations (statements : List Statement) : Nat :=
  statements.count .newLabel

/-- The number of bytes that statements emit. -/
def bytesEmitted (statements : List Statement) : Nat :=
  (statements.filterMap Statement.emission?).foldl
    (fun total emission => total + emission.width) 0

/--
Statements bind a label at a place: it is where they bind it for the first time
after it has been allocated.
-/
def Binds (statements : List Statement) (label place : Nat) : Prop :=
  ∃ earlier later, statements = earlier ++ .bind label :: later ∧
    label < allocations earlier ∧
    (∀ before after, earlier = before ++ .bind label :: after →
      allocations before ≤ label) ∧
    place = bytesEmitted earlier

/-- Why a statement is refused after some other statements. -/
inductive Statement.Refused (earlier : List Statement) : Statement → BytecodeFault → Prop
  /-- The request has a demand that is not met. -/
  | request {request : Request} {fault : BytecodeFault} (refused : request.Refused fault) :
      Refused earlier (.emit request) fault
  /-- The label has not been allocated. -/
  | unallocated {label : Nat} (beyond : allocations earlier ≤ label) :
      Refused earlier (.bind label) (.unknownLabel label)
  /-- The label has been bound. -/
  | bound {label place : Nat} (binds : Binds earlier label place) :
      Refused earlier (.bind label) (.labelBoundTwice label place (bytesEmitted earlier))

/-- No statement of a list is refused after the ones before it. -/
def Unrefused (statements : List Statement) : Prop :=
  ∀ earlier statement later, statements = earlier ++ statement :: later →
    ∀ fault, ¬ statement.Refused earlier fault

/-- The first statement of a list that is refused. -/
def FirstRefusal (statements : List Statement) (fault : BytecodeFault) : Prop :=
  ∃ earlier statement later, statements = earlier ++ statement :: later ∧
    Unrefused earlier ∧ statement.Refused earlier fault

/-- Why a branch among some statements leads nowhere. -/
inductive Statement.Strays (statements : List Statement) :
    Statement → BytecodeFault → Prop
  /-- Its label is not bound. -/
  | unbound {kind : BranchKind} {label : Nat}
      (nowhere : ∀ place, ¬ Binds statements label place) :
      Strays statements (.branch kind label) (.labelUnbound label)
  /-- Its label is bound at a place that two bytes cannot name. -/
  | far {kind : BranchKind} {label place : Nat} (binds : Binds statements label place)
      (beyond : 65535 < place) :
      Strays statements (.branch kind label) (.branchTooFar place)

section Histories

variable {statements : List Statement} {statement : Statement} {label place : Nat}
variable {fault : BytecodeFault}

/-- A list with one more statement is split at that statement or before it. -/
theorem snoc_eq_split {earlier later : List Statement} {entry : Statement} :
    statements ++ [statement] = earlier ++ entry :: later ↔
      earlier = statements ∧ entry = statement ∧ later = [] ∨
        ∃ rest, later = rest ++ [statement] ∧ statements = earlier ++ entry :: rest := by
  constructor
  · intro split
    rcases List.eq_nil_or_concat later with rfl | ⟨rest, last, rfl⟩
    · obtain ⟨rfl, same⟩ := List.append_inj' split rfl
      cases same
      exact Or.inl ⟨rfl, rfl, rfl⟩
    · rw [List.concat_eq_append, ← List.cons_append, ← List.append_assoc] at split
      obtain ⟨rfl, same⟩ := List.append_inj' split rfl
      cases same
      exact Or.inr ⟨rest, List.concat_eq_append, rfl⟩
  · rintro (⟨rfl, rfl, rfl⟩ | ⟨rest, rfl, rfl⟩)
    · rfl
    · simp

theorem allocations_snoc :
    allocations (statements ++ [statement]) =
      allocations statements + if statement = .newLabel then 1 else 0 := by
  simp [allocations, List.count_append, List.count_singleton, beq_iff_eq]

theorem bytesEmitted_snoc_of_emission? {emission : Emission}
    (emits : statement.emission? = some emission) :
    bytesEmitted (statements ++ [statement]) =
      bytesEmitted statements + emission.width := by
  simp [bytesEmitted, emits]

theorem bytesEmitted_snoc_of_silent (silent : statement.emission? = none) :
    bytesEmitted (statements ++ [statement]) = bytesEmitted statements := by
  simp [bytesEmitted, silent]

/-- A label that is bound after it was allocated is bound for a first time. -/
theorem exists_binds {earlier later : List Statement}
    (split : statements = earlier ++ .bind label :: later)
    (allocated : label < allocations earlier) : ∃ place, Binds statements label place := by
  -- The induction goes down to the shortest front that ends before such a binding.
  induction shorter : earlier.length using Nat.strongRecOn generalizing earlier later with
  | ind length induction =>
      by_cases first : ∃ before after, earlier = before ++ .bind label :: after ∧
          label < allocations before
      · obtain ⟨before, after, rfl, allocatedBefore⟩ := first
        rw [List.append_assoc, List.cons_append] at split
        exact induction before.length (by simp [← shorter]) split allocatedBefore rfl
      · refine ⟨bytesEmitted earlier, earlier, later, split, allocated, ?_, rfl⟩
        intro before after front
        by_contra allocatedBefore
        exact first ⟨before, after, front, Nat.lt_of_not_le allocatedBefore⟩

/-- One more statement binds a label that is allocated and not yet bound. -/
theorem binds_snoc :
    Binds (statements ++ [statement]) label place ↔
      Binds statements label place ∨
        statement = .bind label ∧ label < allocations statements ∧
          (∀ other, ¬ Binds statements label other) ∧ place = bytesEmitted statements := by
  constructor
  · rintro ⟨earlier, later, split, allocated, first, rfl⟩
    rcases snoc_eq_split.mp split with ⟨rfl, same, rfl⟩ | ⟨rest, rfl, rfl⟩
    · refine Or.inr ⟨same.symm, allocated, ?_, rfl⟩
      rintro _ ⟨before, after, front, allocatedBefore, _⟩
      exact absurd (first before after front) (Nat.not_le.mpr allocatedBefore)
    · exact Or.inl ⟨earlier, rest, rfl, allocated, first, rfl⟩
  · rintro (⟨earlier, later, rfl, allocated, first, rfl⟩ |
      ⟨rfl, allocated, unbound, rfl⟩)
    · exact ⟨earlier, later ++ [statement], by simp, allocated, first, rfl⟩
    · refine ⟨statements, [], rfl, allocated, ?_, rfl⟩
      intro before after front
      by_contra allocatedBefore
      obtain ⟨other, binds⟩ := exists_binds front (Nat.lt_of_not_le allocatedBefore)
      exact unbound other binds

/-- A refused statement binds nothing. -/
theorem Statement.Refused.binds_snoc (refused : statement.Refused statements fault) :
    Binds (statements ++ [statement]) label place ↔ Binds statements label place := by
  rw [Lockstep.binds_snoc, or_iff_left]
  rintro ⟨rfl, allocated, unbound, _⟩
  cases refused with
  | unallocated beyond => exact absurd allocated (Nat.not_lt.mpr beyond)
  | bound binds => exact unbound _ binds

/-- A statement that is not refused binds the label that it names. -/
theorem binds_snoc_of_unrefused (fine : ∀ fault, ¬ statement.Refused statements fault) :
    Binds (statements ++ [statement]) label place ↔
      Binds statements label place ∨
        statement = .bind label ∧ place = bytesEmitted statements := by
  rw [binds_snoc]
  refine or_congr_right ⟨fun ⟨same, _, _, here⟩ => ⟨same, here⟩, ?_⟩
  rintro ⟨rfl, here⟩
  refine ⟨rfl, ?_, fun other binds => fine _ (.bound binds), here⟩
  by_contra beyond
  exact fine _ (.unallocated (Nat.le_of_not_lt beyond))

theorem unrefused_nil : Unrefused [] := by
  intro earlier statement later split
  cases earlier <;> cases split

theorem unrefused_snoc :
    Unrefused (statements ++ [statement]) ↔
      Unrefused statements ∧ ∀ fault, ¬ statement.Refused statements fault := by
  constructor
  · intro unrefused
    refine ⟨?_, unrefused statements statement [] rfl⟩
    rintro earlier other later rfl
    exact unrefused earlier other (later ++ [statement]) (by simp)
  · rintro ⟨unrefused, fine⟩ earlier other later split
    rcases snoc_eq_split.mp split with ⟨rfl, rfl, rfl⟩ | ⟨rest, rfl, rfl⟩
    · exact fine
    · exact unrefused earlier other rest rfl

theorem firstRefusal_snoc :
    FirstRefusal (statements ++ [statement]) fault ↔
      FirstRefusal statements fault ∨
        Unrefused statements ∧ statement.Refused statements fault := by
  constructor
  · rintro ⟨earlier, other, later, split, unrefused, refused⟩
    rcases snoc_eq_split.mp split with ⟨rfl, rfl, rfl⟩ | ⟨rest, rfl, rfl⟩
    · exact Or.inr ⟨unrefused, refused⟩
    · exact Or.inl ⟨earlier, other, rest, rfl, unrefused, refused⟩
  · rintro (⟨earlier, other, later, rfl, unrefused, refused⟩ | ⟨unrefused, refused⟩)
    · exact ⟨earlier, other, later ++ [statement], by simp, unrefused, refused⟩
    · exact ⟨statements, statement, [], rfl, unrefused, refused⟩

end Histories

/-! ## Assemblers and what they have taken -/

namespace Assembler

variable {assembler : Assembler} {statements : List Statement} {statement : Statement}
variable {fault : BytecodeFault}

/-- Why an assembler refuses a statement. -/
inductive Refuses (assembler : Assembler) : Statement → BytecodeFault → Prop
  | request {request : Request} {fault : BytecodeFault}
      (failed : request.instruction = .error fault) :
      Refuses assembler (.emit request) fault
  | unallocated {label : Nat} (missing : assembler.labels[label]? = none) :
      Refuses assembler (.bind label) (.unknownLabel label)
  | bound {label place : Nat} (known : assembler.labels[label]? = some (some place)) :
      Refuses assembler (.bind label) (.labelBoundTwice label place assembler.size)

/-- A refused statement is remembered at most. -/
theorem Refuses.take_eq (refuses : assembler.Refuses statement fault) :
    assembler.take statement = assembler.refuse fault := by
  cases refuses with
  | request failed => simp only [take, failed]
  | unallocated missing => simp only [take, missing]
  | bound known => simp only [take, known]

/-- A statement is refused for one reason only. -/
theorem Refuses.unique {other : BytecodeFault} (refuses : assembler.Refuses statement fault)
    (again : assembler.Refuses statement other) : other = fault := by
  cases refuses with
  | request failed =>
      cases again with
      | request failedAgain => exact Except.error.inj (failedAgain.symm.trans failed)
  | unallocated missing =>
      cases again with
      | unallocated _ => rfl
      | bound known => cases missing.symm.trans known
  | bound known =>
      cases again with
      | unallocated missing => cases missing.symm.trans known
      | bound knownAgain =>
          cases known.symm.trans knownAgain
          rfl

/-- A statement that is not refused is accepted. -/
theorem accepts_of_fine (fine : ∀ fault, ¬ assembler.Refuses statement fault) :
    assembler.Accepts statement (assembler.take statement) := by
  cases statement with
  | newLabel => exact .allocated
  | bind label =>
      simp only [take]
      split
      · rename_i missing
        exact absurd (.unallocated missing) (fine _)
      · rename_i known
        exact absurd (.bound known) (fine _)
      · rename_i free
        exact .bound free
  | branch kind label => exact .emitted rfl
  | emit request =>
      simp only [take]
      split
      · rename_i granted
        refine .emitted ?_
        rw [Statement.emission?, granted]
        rfl
      · rename_i failed
        exact absurd (.request failed) (fine _)

theorem Refuses.silent (refuses : assembler.Refuses statement fault) :
    statement.emission? = none := by
  cases refuses with
  | request failed =>
      rw [Statement.emission?, failed]
      rfl
  | unallocated _ => rfl
  | bound _ => rfl

/-- An assembler holds what the statements that it has taken say. -/
structure Reflects (statements : List Statement) (assembler : Assembler) : Prop where
  labels : assembler.labels.size = allocations statements
  bound : ∀ label place,
    assembler.labels[label]? = some (some place) ↔ Binds statements label place
  size : assembler.size = bytesEmitted statements
  emitted : assembler.emitted.toList = statements.filterMap Statement.emission?

namespace Reflects

/-- An assembler refuses what is to be refused after the statements that it has taken. -/
theorem refuses_iff (reflects : Reflects statements assembler) :
    assembler.Refuses statement fault ↔ statement.Refused statements fault := by
  constructor
  · intro refuses
    cases refuses with
    | request failed => exact .request ((Request.enforces _ _).mp failed)
    | unallocated missing =>
        rw [Array.getElem?_eq_none_iff, reflects.labels] at missing
        exact .unallocated missing
    | bound known =>
        rw [reflects.size]
        exact .bound ((reflects.bound _ _).mp known)
  · intro refused
    cases refused with
    | request refused => exact .request ((Request.enforces _ _).mpr refused)
    | unallocated beyond =>
        rw [← reflects.labels] at beyond
        exact .unallocated (Array.getElem?_eq_none_iff.mpr beyond)
    | bound binds =>
        rw [← reflects.size]
        exact .bound ((reflects.bound _ _).mpr binds)

theorem refused (reflects : Reflects statements assembler)
    (refuses : assembler.Refuses statement fault) :
    Reflects (statements ++ [statement]) (assembler.refuse fault) where
  labels := by
    have other : statement ≠ .newLabel := by
      rintro rfl
      cases refuses
    rw [allocations_snoc, if_neg other]
    exact reflects.labels
  bound := fun label place => by
    rw [(reflects.refuses_iff.mp refuses).binds_snoc]
    exact reflects.bound label place
  size := by
    rw [bytesEmitted_snoc_of_silent refuses.silent]
    exact reflects.size
  emitted := by
    rw [List.filterMap_append, List.filterMap_cons_none refuses.silent,
      List.filterMap_nil, List.append_nil]
    exact reflects.emitted

theorem accepted (reflects : Reflects statements assembler)
    (fine : ∀ fault, ¬ assembler.Refuses statement fault) :
    Reflects (statements ++ [statement]) (assembler.take statement) := by
  have accepts := accepts_of_fine fine
  have unrefused : ∀ fault, ¬ statement.Refused statements fault :=
    fun fault refused => fine fault (reflects.refuses_iff.mpr refused)
  have bound : ∀ label place,
      (assembler.take statement).labels[label]? = some (some place) ↔
        Binds (statements ++ [statement]) label place := by
    intro label place
    rw [accepts.bound_iff, binds_snoc_of_unrefused unrefused, reflects.bound,
      reflects.size]
  generalize assembler.take statement = after at accepts bound
  cases accepts with
  | allocated =>
      refine ⟨?_, bound, ?_, ?_⟩
      · rw [allocations_snoc, if_pos rfl, ← reflects.labels]
        exact Array.size_push _
      · rw [bytesEmitted_snoc_of_silent rfl]
        exact reflects.size
      · rw [List.filterMap_append]
        exact reflects.emitted.trans (List.append_nil _).symm
  | bound free =>
      refine ⟨?_, bound, ?_, ?_⟩
      · rw [allocations_snoc, if_neg (by rintro ⟨⟩), ← reflects.labels]
        exact Array.size_setIfInBounds
      · rw [bytesEmitted_snoc_of_silent rfl]
        exact reflects.size
      · rw [List.filterMap_append]
        exact reflects.emitted.trans (List.append_nil _).symm
  | emitted emits =>
      have other : statement ≠ .newLabel := by
        rintro rfl
        cases emits
      refine ⟨?_, bound, ?_, ?_⟩
      · rw [allocations_snoc, if_neg other]
        exact reflects.labels
      · rw [bytesEmitted_snoc_of_emission? emits, ← reflects.size]
        rfl
      · rw [List.filterMap_append, List.filterMap_cons_some emits, ← reflects.emitted]
        exact Array.toList_push

end Reflects

theorem takeAll_snoc (assembler : Assembler) (statements : List Statement)
    (statement : Statement) :
    assembler.takeAll (statements ++ [statement]) =
      (assembler.takeAll statements).take statement := by
  simp [takeAll]

/-- An assembler reflects the statements that it has taken. -/
theorem reflects (statements : List Statement) :
    Reflects statements (empty.takeAll statements) := by
  induction statements using List.reverseRecOn with
  | nil =>
      refine ⟨rfl, ?_, rfl, rfl⟩
      intro label place
      refine iff_of_false (by rintro ⟨⟩) ?_
      rintro ⟨earlier, later, split, _⟩
      cases earlier <;> cases split
  | append_singleton statements statement induction =>
      rw [takeAll_snoc]
      by_cases refused : ∃ fault, (empty.takeAll statements).Refuses statement fault
      · obtain ⟨fault, refuses⟩ := refused
        rw [refuses.take_eq]
        exact induction.refused refuses
      · exact induction.accepted (not_exists.mp refused)

theorem Accepts.refusal_eq {after : Assembler}
    (accepts : assembler.Accepts statement after) : after.refusal = assembler.refusal := by
  cases accepts <;> rfl

/-- The refusal that is remembered is the first one. -/
theorem refusal_takeAll (statements : List Statement) :
    ((empty.takeAll statements).refusal = none ↔ Unrefused statements) ∧
      ∀ fault, (empty.takeAll statements).refusal = some fault ↔
        FirstRefusal statements fault := by
  induction statements using List.reverseRecOn with
  | nil =>
      refine ⟨iff_of_true rfl unrefused_nil, fun fault => iff_of_false (by rintro ⟨⟩) ?_⟩
      rintro ⟨earlier, statement, later, split, _⟩
      cases earlier <;> cases split
  | append_singleton statements statement induction =>
      have reflected := reflects statements
      rw [takeAll_snoc]
      simp only [unrefused_snoc, firstRefusal_snoc, ← induction.1, ← induction.2,
        ← reflected.refuses_iff]
      by_cases refused : ∃ fault, (empty.takeAll statements).Refuses statement fault
      · obtain ⟨fault, refuses⟩ := refused
        have only : ∀ other, (empty.takeAll statements).Refuses statement other ↔
            other = fault :=
          fun other => ⟨refuses.unique, fun same => same ▸ refuses⟩
        rw [refuses.take_eq, refuse]
        cases (empty.takeAll statements).refusal with
        | none => simp [only, eq_comm]
        | some earlier => simp
      · rw [(accepts_of_fine (not_exists.mp refused)).refusal_eq]
        simp [not_exists.mp refused]

/-! ## The end of assembly -/

theorem finish_eq_error {failure : Failure} :
    assembler.finish = .error failure ↔
      ∃ fault, failure = .fault (.bytecode fault) ∧
        (assembler.refusal = some fault ∨ assembler.refusal = none ∧
          FirstFault (fun emission reason =>
              emission.resolve assembler.labels = .error reason)
            assembler.emitted.toList fault) := by
  simp only [finish, Assembler.instructions, ← mapM_eq_error]
  cases assembler.refusal with
  | some fault => simp [eq_comm]
  | none =>
      cases assembler.emitted.toList.mapM (Emission.resolve assembler.labels) with
      | ok instructions => simp
      | error fault => simp [eq_comm]

/-- An emission cannot be resolved if it is of a branch that strays. -/
theorem Reflects.strays_iff {statements : List Statement} {assembler : Assembler}
    (reflects : Reflects statements assembler) :
    (∃ emission, statement.emission? = some emission ∧
        emission.resolve assembler.labels = .error fault) ↔
      statement.Strays statements fault := by
  constructor
  · rintro ⟨emission, emits, failed⟩
    cases emission with
    | plain instruction => cases failed
    | branch kind label =>
        have same : statement = .branch kind label := by
          cases statement with
          | newLabel | bind => cases emits
          | branch => cases emits; rfl
          | emit request =>
              rw [Statement.emission?] at emits
              cases granted : request.instruction <;> rw [granted] at emits <;> cases emits
        subst same
        simp only [Emission.resolve] at failed
        split at failed
        · rename_i known
          split at failed
          · cases failed
          · rename_i beyond
            cases failed
            exact .far ((reflects.bound _ _).mp known) (Nat.not_lt.mp beyond)
        · rename_i unknown
          cases failed
          exact .unbound fun place binds =>
            unknown place ((reflects.bound _ _).mpr binds)
  · intro strays
    cases strays with
    | @unbound kind label nowhere =>
        refine ⟨.branch kind label, rfl, ?_⟩
        simp only [Emission.resolve]
        split
        · rename_i known
          exact absurd ((reflects.bound _ _).mp known) (nowhere _)
        · rfl
    | @far kind label place binds beyond =>
        refine ⟨.branch kind label, rfl, ?_⟩
        rw [Emission.resolve, (reflects.bound _ _).mpr binds]
        exact if_neg (Nat.not_lt.mpr beyond)

/-- Assembly fails for the first refusal, or else for the first branch that strays. -/
theorem finish_takeAll_eq_error (statements : List Statement) (failure : Failure) :
    (empty.takeAll statements).finish = .error failure ↔
      ∃ fault, failure = .fault (.bytecode fault) ∧
        (FirstRefusal statements fault ∨
          Unrefused statements ∧
            FirstFault (Statement.Strays statements) statements fault) := by
  have reflected := reflects statements
  rw [finish_eq_error, (refusal_takeAll statements).1, reflected.emitted]
  simp only [(refusal_takeAll statements).2, firstFault_filterMap,
    firstFault_congr fun _ _ => reflected.strays_iff]

/-! ## What a refused statement leaves behind -/

/-- Two assemblers that differ in what they have refused at most. -/
structure SameStream (left right : Assembler) : Prop where
  emitted : left.emitted = right.emitted
  size : left.size = right.size
  labels : left.labels = right.labels

theorem SameStream.take {left right : Assembler} (same : SameStream left right)
    (statement : Statement) : SameStream (left.take statement) (right.take statement) := by
  rcases left with ⟨emitted, size, labels, before⟩
  rcases right with ⟨_, _, _, after⟩
  obtain ⟨rfl, rfl, rfl⟩ := same
  cases statement with
  | newLabel | branch => exact ⟨rfl, rfl, rfl⟩
  | bind label =>
      simp only [Assembler.take]
      split <;> exact ⟨rfl, rfl, rfl⟩
  | emit request =>
      simp only [Assembler.take]
      split <;> exact ⟨rfl, rfl, rfl⟩

theorem SameStream.takeAll {left right : Assembler} (same : SameStream left right)
    (statements : List Statement) :
    SameStream (left.takeAll statements) (right.takeAll statements) := by
  induction statements generalizing left right with
  | nil => exact same
  | cons statement rest induction => exact induction (same.take statement)

/-- A refused statement might as well not have been made. -/
theorem Refuses.sameStream (refuses : assembler.Refuses statement fault) :
    SameStream (assembler.take statement) assembler := by
  rw [refuses.take_eq]
  exact ⟨rfl, rfl, rfl⟩

theorem exists_firstRefusal_of_not_unrefused (refused : ¬ Unrefused statements) :
    ∃ fault, FirstRefusal statements fault := by
  rw [← (refusal_takeAll statements).1] at refused
  obtain ⟨fault, remembered⟩ := Option.ne_none_iff_exists'.mp refused
  exact ⟨fault, ((refusal_takeAll statements).2 fault).mp remembered⟩

/-- If a statement is refused, then one is the first to be. -/
theorem exists_firstRefusal :
    (∃ fault, FirstRefusal statements fault) ↔
      ∃ earlier statement later fault, statements = earlier ++ statement :: later ∧
        statement.Refused earlier fault := by
  constructor
  · rintro ⟨fault, earlier, statement, later, split, _, refused⟩
    exact ⟨earlier, statement, later, fault, split, refused⟩
  · rintro ⟨earlier, statement, later, fault, split, refused⟩
    exact exists_firstRefusal_of_not_unrefused fun unrefused =>
      unrefused earlier statement later split fault refused

/--
Assembly fails if some statement is refused or some branch strays.  It reports
the first refusal, or else the first branch that strays.  A statement that is
refused emits nothing and leaves the rest of the stream as it is without it.
-/
theorem assembly_fails_at_the_first_fault (statements : List Statement) :
    ((∃ failure, (empty.takeAll statements).finish = .error failure) ↔
      (∃ earlier statement later fault, statements = earlier ++ statement :: later ∧
          statement.Refused earlier fault) ∨
        ∃ statement ∈ statements, ∃ fault, statement.Strays statements fault) ∧
    (∀ failure, (empty.takeAll statements).finish = .error failure ↔
      ∃ fault, failure = .fault (.bytecode fault) ∧
        (FirstRefusal statements fault ∨
          Unrefused statements ∧
            FirstFault (Statement.Strays statements) statements fault)) ∧
    ∀ earlier statement later fault, statements = earlier ++ statement :: later →
      statement.Refused earlier fault →
        ((empty.takeAll earlier).take statement).size = (empty.takeAll earlier).size ∧
        ((empty.takeAll earlier).take statement).emitted =
          (empty.takeAll earlier).emitted ∧
        SameStream (empty.takeAll statements) (empty.takeAll (earlier ++ later)) := by
  refine ⟨?_, finish_takeAll_eq_error statements, ?_⟩
  · rw [← exists_firstRefusal, ← exists_firstFault]
    simp only [finish_takeAll_eq_error]
    constructor
    · rintro ⟨_, fault, _, first | ⟨_, first⟩⟩
      · exact Or.inl ⟨fault, first⟩
      · exact Or.inr ⟨fault, first⟩
    · rintro (⟨fault, first⟩ | ⟨fault, first⟩)
      · exact ⟨_, fault, rfl, Or.inl first⟩
      · by_cases unrefused : Unrefused statements
        · exact ⟨_, fault, rfl, Or.inr ⟨unrefused, first⟩⟩
        · obtain ⟨refusal, first⟩ := exists_firstRefusal_of_not_unrefused unrefused
          exact ⟨_, refusal, rfl, Or.inl first⟩
  · rintro earlier statement later fault rfl refused
    have same := ((reflects earlier).refuses_iff.mpr refused).sameStream
    refine ⟨same.size, same.emitted, ?_⟩
    have taken := same.takeAll later
    simpa only [takeAll, List.foldl_append, List.foldl_cons] using taken

/-- A branch that strays, and after it a label that is bound without being allocated. -/
def stumble : List Statement :=
  [.branch .always 0, .bind 7, .newLabel]

/-- Of the two faults of `stumble` the refusal is reported, and it leaves nothing. -/
theorem assembly_fails_at_the_first_fault_stumble :
    (empty.takeAll stumble).finish = .error (.fault (.bytecode (.unknownLabel 7))) ∧
      SameStream (empty.takeAll stumble) (empty.takeAll [.branch .always 0, .newLabel]) ∧
      (empty.takeAll [.branch .always 0, .newLabel]).finish =
        .error (.fault (.bytecode (.labelUnbound 0))) := by
  have law := assembly_fails_at_the_first_fault stumble
  have refused : (Statement.bind 7).Refused [.branch .always 0] (.unknownLabel 7) :=
    .unallocated (by decide)
  have unrefused : Unrefused [.branch .always 0] := (refusal_takeAll _).1.mp rfl
  refine ⟨(law.2.1 _).mpr ⟨_, rfl, Or.inl ⟨_, _, _, rfl, unrefused, refused⟩⟩, ?_, rfl⟩
  exact (law.2.2 [.branch .always 0] (.bind 7) [.newLabel] _ rfl refused).2.2

end Assembler

end Lockstep
