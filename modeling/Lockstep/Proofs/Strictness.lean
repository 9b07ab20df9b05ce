import Lockstep.Proofs.Encoding
import Lockstep.Proofs.Verification

/-!
# A step is as strict as the verifier

The verifier reads the operands of an instruction as the layout of its opcode
says and compares them with the limits of the program.  `Layout.inspect` writes
this down layout by layout, apart from how the machine reads instructions, and
`Function.inspectAt` is the verdict on the bytes at one offset: where the next
instruction starts, or an objection.  `Function.checkCode_eq` says that the
verification of a code consists of these verdicts, one after the other, and of
a look at its branches.

The machine meets the same bytes one instruction at a time, whether or not its
program was verified.  `Machine.Strict` says that a step fails wherever the
verdict is an objection, except at a call that no lane takes, and that a step
which goes straight on moves to where the verifier would have gone on.
-/

namespace Lockstep

variable {σ α β : Type}

/-! ## Inspections -/

/-- What the verifier reads: bytes in order, up to the first objection. -/
abbrev Inspection (α : Type) : Type := StateT Cursor (Except Fault) α

namespace Inspection

/-- Read as a reader does, with the objection of the verifier in place of a fault. -/
def ofReader (reader : Reader α) : Inspection α := fun cursor =>
  match reader cursor with
  | .ok reached => .ok reached
  | .error malformed => .error malformed.objection

/-- Object to what does not pass a check. -/
def require (checked : Except Fault Unit) : Inspection Unit := fun cursor =>
  checked.map fun _ => ((), cursor)

/-- Read one byte that has to lie in a range. -/
def ranged (opcode : Opcode) (role : OperandRole) (low high : UInt8) :
    Inspection UInt8 := do
  let value ← ofReader Reader.byte
  match checkOperand opcode role low high value with
  | .ok () => return value
  | .error fault => throw (.bytecode fault)

/-- Do the same a number of times. -/
def times : Nat → Inspection α → Inspection Unit
  | 0, _ => return ()
  | count + 1, inspection => do
      let _ ← inspection
      times count inspection

end Inspection

open Inspection in
/-- Read the operands that a layout asks for and compare them with the limits. -/
def Layout.inspect (bounds : Bounds) (opcode : Opcode) : Layout → Inspection Unit
  | .bare => return ()
  | .count maximum => times 1 (ranged opcode .count 1 maximum)
  | .slot space => do
      let count ← ranged opcode .count 1 widestVector
      let slot ← ofReader Reader.byte
      require (checkSlots opcode space slot.toNat count.toNat (bounds.slots space))
  | .extended _ => times 1 (ranged opcode .count 1 widestVector)
  | .byte => do
      let operand ← ofReader Reader.byte
      match opcode with
      | .shift operation => require (checkShift operation operand)
      | _ => return ()
  | .immediate => times 1 (ofReader Reader.word)
  | .target => times 1 (ofReader Reader.half)
  | .function => do
      let function ← ofReader Reader.byte
      require (if function.toNat < bounds.functions then .ok ()
        else .error (.bytecode (.calleeOutside function.toNat bounds.functions)))
  | .swizzle => do
      let source ← ranged opcode .sourceCount 1 widestVector
      let count ← ranged opcode .count 1 widestVector
      times count.toNat (ranged opcode .index 0 (source - 1))
  | .matrixResize => times 4 (ranged opcode .dimension 2 4)
  | .matrixMultiply => times 3 (ranged opcode .dimension 1 4)
  | .matrixShape => times 2 (ranged opcode .dimension 2 4)
  | .ret => do
      let count ← ofReader Reader.byte
      require (if count.toNat = bounds.returns then .ok ()
        else .error (.shape (.returns count.toNat bounds.returns)))
  | .externalCall => do
      let _ ← ranged opcode .argumentCount 0 widestVector
      let _ ← ranged opcode .returnCount 0 widestVector
      let external ← ofReader Reader.byte
      require (checkExternal external bounds.externals)
  | .externalAccess => do
      let _ ← ranged opcode .count 1 widestVector
      let external ← ofReader Reader.byte
      require (checkExternal external bounds.externals)

namespace Inspection

@[simp]
theorem ofReader_pure (value : α) : ofReader (pure value) = pure value :=
  rfl

@[simp]
theorem ofReader_bind (reader : Reader α) (next : α → Reader β) :
    ofReader (reader >>= next) = ofReader reader >>= fun value => ofReader (next value) := by
  funext cursor
  change ofReader (fun cursor => reader cursor >>= fun reached => next reached.1 reached.2)
    cursor = (ofReader reader cursor >>= fun reached => ofReader (next reached.1) reached.2)
  unfold ofReader
  dsimp only
  cases reader cursor with
  | ok reached => rfl
  | error malformed => rfl

@[simp]
theorem require_ok : require (.ok ()) = pure () :=
  rfl

/-- A byte outside its range is objected to under the name that the verifier uses. -/
theorem ofReader_within {opcode : Opcode} {role name : OperandRole} {low high : UInt8}
    (named : ∀ value, Malformed.objection { fault := .operand opcode role value low high } =
      .bytecode (.operand opcode name value low high)) :
    ofReader (Reader.within opcode role low high) = ranged opcode name low high := by
  unfold Reader.within ranged
  rw [ofReader_bind]
  congr
  funext value
  unfold checkOperand
  by_cases range : low ≤ value ∧ value ≤ high
  · rw [if_pos range, if_pos range]
    rfl
  · rw [if_neg range, if_neg range]
    funext cursor
    exact congrArg Except.error (named value)

/-- What an operand is asked for first makes no difference to the verifier. -/
theorem ofReader_demanding (demand : Nat) (reader : Reader α) :
    ofReader (Reader.demanding demand reader) = ofReader reader := by
  funext cursor
  unfold ofReader Reader.demanding
  cases reader cursor with
  | ok reached => rfl
  | error malformed => rfl

theorem ofReader_picks (source : UInt8) (count : Nat) (after : Inspection β) :
    (ofReader (Reader.picks source count) >>= fun _ => after) =
      times count (ranged .swizzle .index 0 (source - 1)) >>= fun _ => after := by
  induction count with
  | zero =>
      rfl
  | succ count induction =>
      unfold Reader.picks times
      simp only [ofReader_bind, ofReader_pure, bind_assoc, pure_bind, induction]
      rw [ofReader_within fun _ => rfl]

/-- The layout of an opcode says how its operands are read and checked. -/
theorem inspect_eq (bounds : Bounds) (opcode : Opcode) :
    opcode.layout.inspect bounds opcode =
      ofReader (Reader.operands opcode) >>= fun instruction =>
        require (instruction.check bounds) := by
  have counted : ∀ maximum, ofReader (Reader.count opcode maximum) =
      ranged opcode .count 1 maximum := fun _ => ofReader_within fun _ => rfl
  -- The verifier calls columns and rows alike dimensions.
  have extents : ∀ role, role = .dimension ∨ role = .columns ∨ role = .rows →
      ofReader (Reader.extent opcode role) = ranged opcode .dimension 2 4 := by
    rintro role (rfl | rfl | rfl) <;> exact ofReader_within fun _ => rfl
  have dimensions := extents .dimension (.inl rfl)
  have columns := extents .columns (.inr (.inl rfl))
  have rows := extents .rows (.inr (.inr rfl))
  have factors : ofReader (Reader.factorExtent opcode) = ranged opcode .dimension 1 4 :=
    ofReader_within fun _ => rfl
  cases opcode with
  | swizzle =>
      simp only [Opcode.layout, Layout.inspect, Reader.operands, Reader.swizzle,
        ofReader_bind, ofReader_pure, bind_assoc, pure_bind, Instruction.check, require_ok,
        ofReader_demanding, ofReader_picks, bind_pure_unit]
      rw [ofReader_within fun _ => rfl, ofReader_within fun _ => rfl]
  | callExternal =>
      simp only [Opcode.layout, Layout.inspect, Reader.operands, ofReader_bind,
        ofReader_pure, bind_assoc, pure_bind, Instruction.check]
      rw [ofReader_within fun _ => rfl, ofReader_within fun _ => rfl]
      rfl
  | _ =>
      simp only [Opcode.layout, Layout.inspect, Reader.operands, ofReader_bind,
        ofReader_pure, bind_assoc, pure_bind, Instruction.check, times, require_ok,
        counted, dimensions, columns, rows, factors]

end Inspection

/-! ## Verdicts -/

/-- A reader of operands moves past the operands that it gives. -/
theorem Reader.offset_of_operands {opcode : Opcode} {cursor later : Cursor}
    {instruction : Instruction}
    (read : Reader.operands opcode cursor = .ok (instruction, later)) :
    later.offset = cursor.offset + instruction.operands.length := by
  obtain ⟨consumed, split, rfl, rfl, admitted⟩ := reads_operands opcode _ _ _ read
  obtain ⟨offset, bytes⟩ := cursor
  dsimp only at split
  rw [split, gives_operands admitted offset later.bytes] at read
  exact (congrArg Cursor.offset (Prod.ext_iff.mp (Except.ok.inj read)).2).symm

namespace Function

variable {function : Function} {bounds : Bounds} {offset : Nat}

/-- The verdict on the bytes at an offset: where the verifier goes on, or an objection. -/
def inspectAt (function : Function) (bounds : Bounds) (offset : Nat) : Except Fault Nat :=
  match Opcode.decode offset (function.code.drop offset) with
  | .error fault => .error (.bytecode fault)
  | .ok opcode =>
      (opcode.layout.inspect bounds opcode ⟨offset + 1, function.code.drop (offset + 1)⟩).map
        fun (_, later) => later.offset

/-- A missing or unknown opcode is objected to as it is. -/
theorem objection_of_opcode {bytes : List UInt8} {fault : BytecodeFault}
    (failed : Opcode.decode offset bytes = .error fault) :
    Malformed.objection { fault := fault } = .bytecode fault := by
  cases bytes with
  | nil =>
      cases failed
      rfl
  | cons byte rest =>
      simp only [Opcode.decode] at failed
      split at failed
      · cases failed
      · cases failed
        rfl

/-- The verdict in terms of the instruction that is read at the offset. -/
theorem inspectAt_eq (function : Function) (bounds : Bounds) (offset : Nat) :
    function.inspectAt bounds offset =
      match Instruction.decode offset (function.code.drop offset) with
      | .error malformed => .error malformed.objection
      | .ok instruction =>
          (instruction.check bounds).map fun _ => offset + instruction.width := by
  unfold inspectAt Instruction.decode
  cases opened : Opcode.decode offset (function.code.drop offset) with
  | error fault =>
      exact congrArg Except.error (objection_of_opcode opened).symm
  | ok opcode =>
      dsimp only
      rw [Inspection.inspect_eq]
      unfold Opcode.complete
      rw [List.drop_drop]
      change ((Inspection.ofReader (Reader.operands opcode) _ >>= fun reached =>
        Inspection.require (reached.1.check bounds) reached.2) : Except Fault _).map _ = _
      unfold Inspection.ofReader
      cases read : Reader.operands opcode ⟨offset + 1, function.code.drop (offset + 1)⟩ with
      | error malformed =>
          rfl
      | ok reached =>
          obtain ⟨instruction, later⟩ := reached
          have place : later.offset = offset + instruction.width := by
            rw [Reader.offset_of_operands read, instruction.width_eq]
            exact Nat.add_right_comm offset 1 _
          change (Inspection.require (instruction.check bounds) later).map _ =
            (instruction.check bounds).map _
          unfold Inspection.require
          cases instruction.check bounds with
          | error fault => rfl
          | ok done => exact congrArg Except.ok place

theorem inspectAt_of_malformed {malformed : Malformed} (bounds : Bounds)
    (failed : Instruction.decode offset (function.code.drop offset) = .error malformed) :
    function.inspectAt bounds offset = .error malformed.objection := by
  rw [inspectAt_eq, failed]

theorem inspectAt_of_decoded {instruction : Instruction} (bounds : Bounds)
    (decoded : Instruction.decode offset (function.code.drop offset) = .ok instruction) :
    function.inspectAt bounds offset =
      (instruction.check bounds).map fun _ => offset + instruction.width := by
  rw [inspectAt_eq, decoded]

/-- A verdict that is no objection is about an instruction within the limits. -/
theorem decoded_of_inspectAt {next : Nat}
    (inspected : function.inspectAt bounds offset = .ok next) :
    ∃ instruction,
      Instruction.decode offset (function.code.drop offset) = .ok instruction ∧
        next = offset + instruction.width := by
  cases decoded : Instruction.decode offset (function.code.drop offset) with
  | error malformed =>
      rw [inspectAt_of_malformed bounds decoded] at inspected
      cases inspected
  | ok instruction =>
      refine ⟨instruction, rfl, ?_⟩
      rw [inspectAt_of_decoded bounds decoded] at inspected
      cases checked : instruction.check bounds with
      | error fault =>
          rw [checked] at inspected
          cases inspected
      | ok done =>
          rw [checked] at inspected
          exact (Except.ok.inj inspected).symm

theorem lt_of_inspectAt {next : Nat} (inspected : function.inspectAt bounds offset = .ok next) :
    offset < next := by
  obtain ⟨instruction, _, rfl⟩ := decoded_of_inspectAt inspected
  exact Nat.lt_add_of_pos_right instruction.width_pos

/-- The verdicts from an offset to the end of the code, up to the first objection. -/
def inspectFrom (function : Function) (bounds : Bounds) (offset : Nat) :
    Except Invalidity Unit :=
  if offset < function.code.length then
    match _ : function.inspectAt bounds offset with
    | .error fault => .error (.code function.name offset fault)
    | .ok next => function.inspectFrom bounds next
  else .ok ()
termination_by function.code.length - offset
decreasing_by exact Nat.sub_lt_sub_left ‹_› (lt_of_inspectAt ‹_›)

theorem inspectFrom_of_error {fault : Fault} (inside : offset < function.code.length)
    (objected : function.inspectAt bounds offset = .error fault) :
    function.inspectFrom bounds offset = .error (.code function.name offset fault) := by
  rw [inspectFrom, if_pos inside]
  split
  · rename_i found same
    rw [objected] at same
    cases same
    rfl
  · rename_i next passed
    rw [objected] at passed
    cases passed

theorem inspectFrom_of_ok {next : Nat} (inside : offset < function.code.length)
    (passed : function.inspectAt bounds offset = .ok next) :
    function.inspectFrom bounds offset = function.inspectFrom bounds next := by
  rw [inspectFrom, if_pos inside]
  split
  · rename_i fault objected
    rw [passed] at objected
    cases objected
  · rename_i found same
    rw [passed] at same
    cases same
    rfl

/-- What the verifier finds in the instructions of a listing, branches apart. -/
def checkListing (function : Function) (bounds : Bounds) (listing : Listing) :
    Except Invalidity Unit := do
  listing.instructions.forM fun placed =>
    locate function placed.offset (placed.instruction.check bounds)
  if let some (offset, malformed) := listing.stopped then
    throw (.code function.name offset malformed.objection)

theorem inspectFrom_eq (function : Function) (bounds : Bounds) {offset : Nat}
    {bytes : List UInt8} (remaining : function.code.drop offset = bytes) :
    function.inspectFrom bounds offset =
      function.checkListing bounds (Listing.read offset 0 bytes) := by
  induction offset, bytes using Listing.read_induction with
  | finished offset =>
      have ended : ¬ offset < function.code.length :=
        Nat.not_lt_of_le (List.drop_eq_nil_iff.mp remaining)
      rw [inspectFrom, if_neg ended]
      rfl
  | stopped offset byte rest malformed failed =>
      have inside : offset < function.code.length := by
        by_contra beyond
        rw [List.drop_of_length_le (Nat.le_of_not_lt beyond)] at remaining
        cases remaining
      rw [Listing.read_malformed failed]
      rw [← remaining] at failed
      exact inspectFrom_of_error inside (inspectAt_of_malformed bounds failed)
  | listed offset bytes instruction decoded induction =>
      have width := Instruction.width_le decoded
      have positive := instruction.width_pos
      have inside : offset < function.code.length := by
        rw [← remaining, List.length_drop] at width
        omega
      rw [Listing.read_decoded decoded]
      rw [← remaining] at decoded
      have verdict := inspectAt_of_decoded bounds decoded
      unfold checkListing
      change _ = ((locate function offset (instruction.check bounds) >>= fun _ =>
        List.forM _ _) >>= fun _ => _ : Except Invalidity Unit)
      cases checked : instruction.check bounds with
      | error fault =>
          rw [checked] at verdict
          exact inspectFrom_of_error inside verdict
      | ok done =>
          rw [checked] at verdict
          rw [inspectFrom_of_ok inside verdict,
            induction (by rw [← remaining, List.drop_drop])]
          rfl

/-- The verification of a code consists of the verdicts and of a look at its branches. -/
theorem checkCode_eq (function : Function) (bounds : Bounds) :
    function.checkCode bounds = (do
      function.inspectFrom bounds 0
      (Listing.ofCode function.code).instructions.forM fun placed =>
        locate function placed.offset
          ((Listing.ofCode function.code).checkBranch placed)) := by
  rw [inspectFrom_eq function bounds (List.drop_zero)]
  unfold checkCode checkListing Listing.ofCode
  rw [bind_assoc]
  refine bind_congr fun _ => ?_
  cases (Listing.read 0 0 function.code).stopped <;> rfl

end Function

/-! ## Steps -/

namespace Machine

variable {machine : Machine} {batch : Batch σ}

/-- An instruction that leads elsewhere than past itself: a branch, call or return taken. -/
def Diverts (machine : Machine) : Instruction → Prop
  | .branch _ => True
  | .branchIfAllFalse _ => machine.live.any = false
  | .call _ => machine.live.any = true
  | .ret _ => True
  | _ => False

/-- A machine stands at a call to a missing function that no lane takes. -/
def SkipsMissing (program : Program) (machine : Machine) : Prop :=
  ∃ position, machine.upcoming = .ok (.call position) ∧
    program.functions.length ≤ position.toNat ∧ machine.live.any = false

theorem external_of_objection {position : UInt8} {fault : Fault}
    (objected : checkExternal position batch.externals.length = .error fault) :
    ∃ failure, batch.external position.toNat = .error failure := by
  unfold checkExternal at objected
  split at objected
  · cases objected
  · rename_i missing
    unfold Batch.external
    rw [List.getElem?_eq_none_iff.mpr (Nat.le_of_not_lt missing)]
    exact ⟨_, rfl⟩

/-- An instruction whose operands leave the limits fails, unless it is a call not taken. -/
theorem execute_of_objection (fits : machine.Fits) {instruction : Instruction}
    {fault : Fault}
    (objected : instruction.check (batch.bounds machine.current.function) = .error fault)
    (taken : ∀ position, instruction = .call position → machine.live.any = true)
    (host : σ) :
    ∃ failure, ((machine.execute batch instruction).at host).1 = .error failure := by
  cases instruction with
  | shift operation amount =>
      change checkShift operation amount = .error fault at objected
      simp only [execute, objected]
      exact ⟨_, rfl⟩
  | load space count slot =>
      change checkSlots _ _ _ _ _ = .error fault at objected
      rw [← limit_eq_slots fits] at objected
      simp only [execute, load, objected]
      exact ⟨_, rfl⟩
  | store bank count slot =>
      change checkSlots _ _ _ _ _ = .error fault at objected
      rw [← limit_eq_slots fits] at objected
      simp only [execute, store, objected]
      exact ⟨_, rfl⟩
  | call position =>
      change (if _ then _ else _) = Except.error fault at objected
      split at objected
      · cases objected
      · rename_i missing
        have unknown : batch.program.functions[position.toNat]? = none :=
          List.getElem?_eq_none_iff.mpr (Nat.le_of_not_lt missing)
        simp only [execute, call, taken position rfl, if_true, invoke, unknown]
        split <;> exact ⟨_, rfl⟩
  | ret count =>
      change (if _ then _ else _) = Except.error fault at objected
      split at objected
      · cases objected
      · rename_i differs
        have undeclared : count.toNat ≠ machine.current.function.returnCount := differs
        simp only [execute, ret]
        rw [if_pos undeclared]
        exact ⟨_, rfl⟩
  | callExternal arguments results position =>
      obtain ⟨failure, missing⟩ := external_of_objection objected
      simp only [execute, callExternal, missing]
      exact ⟨_, rfl⟩
  | readExternal count position =>
      obtain ⟨failure, missing⟩ := external_of_objection objected
      simp only [execute, readExternal, missing]
      exact ⟨_, rfl⟩
  | writeExternal count position =>
      obtain ⟨failure, missing⟩ := external_of_objection objected
      simp only [execute, writeExternal, missing]
      exact ⟨_, rfl⟩
  | _ => cases objected

/-- An instruction that does not divert leaves the machine where it is, past itself. -/
theorem current_of_execute {instruction : Instruction} {flow : Flow} {host : σ}
    (sound : machine.Sound batch.program) (straight : ¬ machine.Diverts instruction)
    (executed : ((machine.execute batch instruction).at host).1 = .ok flow) :
    ∃ after, flow = .next after ∧ after.current = machine.current := by
  have effect := (execute_ensures sound.fits sound.predicates instruction host).of_ok executed
  cases effect with
  | operated operated =>
      exact ⟨_, rfl, operated.stack.current⟩
  | jumped leads inside =>
      cases instruction with
      | branch target =>
          exact absurd trivial straight
      | branchIfAllFalse target =>
          -- With a live lane the branch is passed over, so it has led nowhere else.
          have live : machine.live.any = true := eq_true_of_ne_false straight
          simp only [execute, jumpIfAllFalse, live, if_true] at executed
          exact ⟨_, rfl, congrArg current (Flow.next.inj (Except.ok.inj executed)).symm⟩
      | _ => cases leads
  | called calls =>
      exact absurd calls.live straight
  | returned hands =>
      exact absurd trivial straight

/-- A step next to the verdict on the bytes that it meets. -/
structure Strict (bounds : Bounds) (batch : Batch σ) (host : σ) (machine : Machine) :
    Prop where
  /-- Where the verifier objects, the step fails, except at a call not taken. -/
  refused : ∀ fault,
    machine.current.function.inspectAt bounds machine.current.offset = .error fault →
      ¬ machine.SkipsMissing batch.program →
        ∃ failure, (machine.stepAt batch host).1 = .error failure
  /-- The exception is needed: such a call is objected to, and the step goes past it. -/
  excused : machine.SkipsMissing batch.program →
    (∃ fault,
      machine.current.function.inspectAt bounds machine.current.offset = .error fault) ∧
      ∃ after, machine.stepAt batch host = (.ok (.next after), host)
  /-- A step that goes straight on goes to where the verifier would. -/
  moved : ∀ instruction next flow,
    machine.current.function.inspectAt bounds machine.current.offset = .ok next →
      machine.upcoming = .ok instruction → ¬ machine.Diverts instruction →
        (machine.stepAt batch host).1 = .ok flow →
          ∃ after, flow = .next after ∧
            after.current = { machine.current with offset := next }

theorem stepAt_of_malformed {malformed : Malformed}
    (failed : machine.upcoming = .error malformed) (host : σ) :
    ∃ failure, (machine.stepAt batch host).1 = .error failure := by
  rw [stepAt_eq]
  cases outcome : machine.fetch with
  | ok reached =>
      exact ((fetch_of_malformed failed).of_ok outcome).elim
  | error failure =>
      exact ⟨failure, rfl⟩

theorem stepAt_of_unsupported {instruction : Instruction}
    (decoded : machine.upcoming = .ok instruction)
    (unsupported : instruction.opcode.executable = false) (host : σ) :
    ∃ failure, (machine.stepAt batch host).1 = .error failure := by
  rw [stepAt_eq, fetch_of_decoded decoded, unsupported]
  exact ⟨_, rfl⟩

/-- Operands that leave the limits make a step fail, except at a call not taken. -/
theorem stepAt_of_objection (sound : machine.Sound batch.program)
    {instruction : Instruction} {fault : Fault}
    (decoded : machine.upcoming = .ok instruction)
    (objected : instruction.check (batch.bounds machine.current.function) = .error fault)
    (taken : ¬ machine.SkipsMissing batch.program) (host : σ) :
    ∃ failure, (machine.stepAt batch host).1 = .error failure := by
  cases executable : instruction.opcode.executable with
  | false =>
      exact stepAt_of_unsupported decoded executable host
  | true =>
      rw [stepAt_of_decoded decoded executable]
      refine @execute_of_objection _ (machine.advanced instruction) batch
        (sound.advanced decoded).fits _ fault objected ?_ host
      rintro position rfl
      by_contra idle
      refine taken ⟨position, decoded, ?_, eq_false_of_ne_true idle⟩
      by_contra known
      have passed : (Instruction.call position).check
          (batch.bounds machine.current.function) = .ok () :=
        if_pos (Nat.lt_of_not_le known)
      rw [passed] at objected
      cases objected

theorem Sound.strict (sound : machine.Sound batch.program) (host : σ) :
    Strict (batch.bounds machine.current.function) batch host machine := by
  refine ⟨?_, ?_, ?_⟩
  · intro fault inspected taken
    cases decoded : machine.upcoming with
    | error malformed =>
        exact stepAt_of_malformed decoded host
    | ok instruction =>
        rw [Function.inspectAt_of_decoded _ decoded] at inspected
        cases checked : instruction.check (batch.bounds machine.current.function) with
        | error objection =>
            exact stepAt_of_objection sound decoded checked taken host
        | ok done =>
            rw [checked] at inspected
            cases inspected
  · rintro ⟨position, decoded, missing, idle⟩
    constructor
    · have objected : (Instruction.call position).check
          (batch.bounds machine.current.function) =
            .error (.bytecode (.calleeOutside position.toNat
              batch.program.functions.length)) :=
        if_neg (Nat.not_lt_of_le missing)
      rw [Function.inspectAt_of_decoded _ decoded, objected]
      exact ⟨_, rfl⟩
    · rw [stepAt_of_decoded decoded rfl]
      have passed : (machine.advanced (.call position)).call batch.program.functions
          position.toNat = .ok (machine.advanced (.call position)) := by
        unfold call
        rw [if_neg]
        exact ne_true_of_eq_false idle
      simp only [execute, passed]
      exact ⟨_, rfl⟩
  · intro instruction next flow inspected decoded straight stepped
    obtain ⟨read, again, rfl⟩ := Function.decoded_of_inspectAt inspected
    obtain rfl := Except.ok.inj (again.symm.trans decoded)
    cases executable : read.opcode.executable with
    | false =>
        obtain ⟨failure, failed⟩ := @stepAt_of_unsupported _ machine batch _ decoded
          executable host
        rw [failed] at stepped
        cases stepped
    | true =>
        rw [stepAt_of_decoded decoded executable] at stepped
        exact current_of_execute (sound.advanced decoded) straight stepped

end Machine

namespace Linked

/-- A call that is accepted runs within the limits that the verifier compares with. -/
theorem Occurs.bounds_eq {linked : Linked σ} {invocation : Invocation}
    {function : Function} {firstElement lanes : Nat} {machine : Machine}
    (occurs : linked.Occurs invocation function firstElement lanes machine)
    (running : Function) :
    (linked.batch invocation firstElement).bounds running =
      linked.program.bounds linked.externals.length running := by
  obtain ⟨returns, arguments, start, prepared, _, _⟩ := occurs
  obtain ⟨_, accepts⟩ := Program.prepare_eq_ok.mp prepared
  exact Batch.bounds_eq accepts.globals accepts.uniforms

/--
A step is as strict as the verifier, in every machine that occurs, whether or
not the program was verified.  It fails wherever the verifier would object to
the instruction, except at a call to a missing function that no lane takes, and
where it goes straight on it moves by as many bytes as the verifier reads.  The
verifier itself goes through a code by these verdicts.
-/
theorem steps_are_as_strict_as_verification (linked : Linked σ) (invocation : Invocation)
    (function : Function) (firstElement lanes : Nat) (machine : Machine)
    (occurs : linked.Occurs invocation function firstElement lanes machine) (host : σ) :
    Machine.Strict
        (linked.program.bounds linked.externals.length machine.current.function)
        (linked.batch invocation firstElement) host machine ∧
      ∀ (any : Function) (bounds : Bounds),
        any.checkCode bounds = (do
          any.inspectFrom bounds 0
          (Listing.ofCode any.code).instructions.forM fun placed =>
            locate any placed.offset ((Listing.ofCode any.code).checkBranch placed)) := by
  refine ⟨?_, Function.checkCode_eq⟩
  rw [← occurs.bounds_eq]
  exact occurs.serves.sound.strict host

/-- A function that is accepted although its second load leaves its frame. -/
def overreach : Function where
  name := "overreach"
  parameterCount := 1
  stackCount := 2
  parameters := [{ slotCount := 1 }]
  code := (Instruction.load .local 1 0).encode ++ (Instruction.load .local 1 9).encode ++
    (Instruction.ret 0).encode

def overreaching : Linked Unit :=
  ⟨{ functions := [overreach] }, []⟩

/-- The first load goes on where the verifier does; the second is objected to and fails. -/
theorem steps_are_as_strict_as_verification_overreach :
    ∃ first machine, overreaching.Occurs ⟨0, [], none⟩ overreach 0 1 first ∧
      Machine.Steps (overreaching.batch ⟨0, [], none⟩ 0) first machine ∧
      machine.current.offset = 3 ∧
      overreaching.Occurs ⟨0, [], none⟩ overreach 0 1 machine ∧
      machine.current.function.inspectAt
          (overreaching.program.bounds 0 machine.current.function) machine.current.offset =
        .error (.bounds (.slots (.load .local) .local 9 1 1)) ∧
      ∃ failure,
        (machine.stepAt (overreaching.batch ⟨0, [], none⟩ 0) ()).1 = .error failure := by
  obtain ⟨machine, loads, function, offset, decoded⟩ :
      ∃ machine,
        Machine.Steps (overreaching.batch ⟨0, [], none⟩ 0)
            (Machine.booted overreach 1 (.blank globalCapacity) [packWords [7]]) machine ∧
          machine.current.function = overreach ∧ machine.current.offset = 3 ∧
          machine.upcoming = .ok (.load .local 1 9) :=
    ⟨_, ⟨(), (), rfl⟩, rfl, rfl, rfl⟩
  have begins : overreaching.Occurs ⟨0, [], none⟩ overreach 0 1
      (Machine.booted overreach 1 (.blank globalCapacity) [packWords [7]]) :=
    occurs_iff.mpr ⟨none, [packWords [7]], .blank globalCapacity, by decide, rfl, .refl⟩
  have occurs : overreaching.Occurs ⟨0, [], none⟩ overreach 0 1 machine :=
    occurs_iff.mpr ⟨none, [packWords [7]], .blank globalCapacity, by decide, rfl,
      .single loads⟩
  have objected : machine.current.function.inspectAt
      (overreaching.program.bounds 0 machine.current.function) machine.current.offset =
        .error (.bounds (.slots (.load .local) .local 9 1 1)) := by
    rw [function, offset]
    decide
  have taken : ¬ machine.SkipsMissing overreaching.program := by
    rintro ⟨position, called, _⟩
    rw [decoded] at called
    cases called
  have strict := (steps_are_as_strict_as_verification overreaching ⟨0, [], none⟩ overreach 0
    1 machine occurs ()).1
  exact ⟨_, machine, begins, loads, offset, occurs, objected,
    strict.refused _ objected taken⟩

end Linked

end Lockstep
