import Lockstep.Proofs.Entry

/-!
# No call traps

Whatever the program, its code and its declarations, and whatever the buffers
of a call: no machine that a call runs addresses storage that does not exist,
and no call ends in a trap.  Traps can arise wherever storage is addressed: in
the registers, in the scratch cells of an instruction, where a sink writes what
is returned, and where arguments are taken and given back.

Every machine that occurs is sound, runs the called function outermost and lets
only lanes run that hold elements.  Sums of its positions with anything that an
instruction can ask for, and the numbers of its elements, stay at or below the
largest size; and what a call writes back has exactly the shape of its buffers.
-/

namespace Lockstep

variable {σ : Type}

/-! ## Demands of instructions -/

theorem mul_toNat_le (left right : UInt8) : left.toNat * right.toNat ≤ 255 * 255 := by
  have leftBound := left.toNat_lt
  have rightBound := right.toNat_lt
  exact Nat.mul_le_mul (Nat.le_of_lt_succ leftBound) (Nat.le_of_lt_succ rightBound)

theorem Computation.demand_lt {computation : Computation}
    (counted : computation.Countable) :
    computation.kernel.operands + computation.kernel.given < 2 ^ 18 := by
  cases computation with
  | unary operation count =>
      have bound := count.toNat_lt
      change count.toNat + count.toNat < _
      omega
  | binary operation count =>
      have bound := count.toNat_lt
      change 2 * count.toNat + count.toNat < _
      omega
  | lerp count =>
      have bound := count.toNat_lt
      change 3 * count.toNat + count.toNat < _
      omega
  | mix count =>
      have bound := count.toNat_lt
      change 3 * count.toNat + count.toNat < _
      omega
  | logic operation =>
      change 2 * 1 + 1 < _
      omega
  | immediate bits =>
      change 0 + 1 < _
      omega
  | dup count =>
      have bound := count.toNat_lt
      change count.toNat + (count.toNat + count.toNat) < _
      omega
  | pop count =>
      have bound := count.toNat_lt
      change count.toNat + 0 < _
      omega
  | reserve count =>
      have bound := count.toNat_lt
      change 0 + count.toNat < _
      omega
  | swizzle source picks =>
      have bound := source.toNat_lt
      change picks.length < 256 at counted
      change source.toNat + (picks.map UInt8.toNat).length < _
      rw [List.length_map]
      omega
  | resizeMatrix fromColumns fromRows toColumns toRows =>
      have before := mul_toNat_le fromColumns fromRows
      have after := mul_toNat_le toColumns toRows
      change fromColumns.toNat * fromRows.toNat + toColumns.toNat * toRows.toNat < _
      omega
  | multiplyMatrix leftColumns leftRows rightColumns =>
      have left := mul_toNat_le leftColumns leftRows
      have right := mul_toNat_le rightColumns leftColumns
      have result := mul_toNat_le rightColumns leftRows
      change leftColumns.toNat * leftRows.toNat +
        rightColumns.toNat * leftColumns.toNat +
          rightColumns.toNat * leftRows.toNat < _
      omega
  | diagonalMatrix columns rows =>
      have result := mul_toNat_le columns rows
      change 1 + columns.toNat * rows.toNat < _
      omega
  | invertMatrix order =>
      cases order <;> decide

/-- What an instruction takes and gives is bounded by what bytes can say. -/
theorem Instruction.demand_lt {instruction : Instruction}
    (counted : instruction.Countable) :
    instruction.taken + instruction.given < 2 ^ 18 := by
  cases instruction with
  | compute computation =>
      exact Computation.demand_lt counted
  | divide _ count | load _ count _ | store _ count _ | gather _ count
  | scatter _ count | maskBlend count | readExternal count _
  | writeExternal count _ =>
      have bound := count.toNat_lt
      unfold taken given
      dsimp only
      omega
  | callExternal arguments results _ =>
      have before := arguments.toNat_lt
      have after := results.toNat_lt
      change arguments.toNat + results.toNat < _
      omega
  | _ =>
      unfold taken given
      dsimp only
      omega

/-! ## Calls -/

namespace Linked

variable {linked : Linked σ} {budget : Nat} {invocation : Invocation}
variable {function : Function} {host : σ}

/-- A call ended without a trap, and its buffers have kept their shapes. -/
structure Clean {β γ : Type} (shape : List β → γ) (arguments returns : List β)
    (result : Result β) : Prop where
  ending : result.ending ≠ .failed .trap
  arguments : shape result.arguments = shape arguments
  returns : shape result.returns = shape returns

theorem clean_unchanged {β γ : Type} {shape : List β → γ} {arguments returns : List β}
    {ending : Ending} (ended : ending ≠ .failed .trap) :
    Clean shape arguments returns ⟨ending, arguments, returns⟩ :=
  ⟨ended, rfl, rfl⟩

theorem ne_trap_of_fault {failure : Failure} (cause : ∃ fault, failure = .fault fault) :
    Ending.failed failure ≠ .failed .trap := by
  rcases cause with ⟨fault, rfl⟩
  simp

/-- A call for a single element ends without a trap. -/
theorem run_clean (linked : Linked σ) (budget : Nat) (invocation : Invocation)
    (arguments returns : List Word) (host : σ) :
    Clean List.length arguments returns
      ((linked.run budget invocation arguments returns).run host).1 := by
  rw [run_at]
  cases prepared : linked.program.prepare invocation arguments.length
      (some returns.length) with
  | error failure =>
      exact clean_unchanged (ne_trap_of_fault (Program.prepare_ne_trap prepared))
  | ok function =>
      rcases Program.prepare_eq_ok.mp prepared with ⟨known, accepts⟩
      have counted : (arguments.map fun word => packWords [word]).length =
          function.parameterCount := by
        rw [List.length_map]
        exact accepts.arguments
      have yields := fun result later =>
        @runBatch_yields σ linked budget invocation function host 0 1 _
          (List.mem_of_getElem? known) accepts.frame counted result later
      dsimp only
      generalize (linked.runBatch budget invocation function 0 1
        (arguments.map fun word => packWords [word])).run host = reached at yields
      rcases reached with ⟨_ | failure | ⟨machine, returned⟩, later⟩
      · exact clean_unchanged (by simp)
      · have allowed : failure ≠ .trap := yields _ _ rfl
        exact clean_unchanged (by simpa using allowed)
      · have delivers : Machine.Delivers _ _ _ machine returned := yields _ _ rfl
        have wanted := accepts.returns _ rfl
        refine ⟨by simp [conclude], ?_, ?_⟩
        · simp [conclude, Function.copyBack]
        · simp [conclude, delivers.counted, wanted]

theorem length_put_leading {column : Column} {register : Register} {offset lanes : Nat}
    (inside : offset + lanes ≤ column.length) :
    (column.put offset (leadingWords register lanes)).length = column.length := by
  apply Column.length_put
  rw [length_leadingWords]
  omega

theorem copyBackColumns_lengths {machine : Machine} {offset lanes : Nat}
    {arguments : List Column}
    (inside : ∀ column ∈ arguments, offset + lanes ≤ column.length) :
    (function.copyBackColumns machine offset lanes arguments).map List.length =
      arguments.map List.length := by
  have lengths : ∀ entry ∈ arguments.zipIdx,
      (if function.isOutSlot entry.2 then
        Column.put entry.1 offset
          (leadingWords (machine.registers.register entry.2) lanes)
      else entry.1).length = entry.1.length := by
    intro entry member
    split
    · exact length_put_leading (inside _ (List.fst_mem_of_mem_zipIdx member))
    · rfl
  unfold Function.copyBackColumns
  rw [List.map_map]
  calc
    arguments.zipIdx.map _ = arguments.zipIdx.map (List.length ∘ Prod.fst) :=
      List.map_congr_left lengths
    _ = (arguments.zipIdx.map Prod.fst).map List.length := by
      rw [List.map_map]
    _ = arguments.map List.length := by
      rw [List.zipIdx_map_fst]

theorem putReturns_lengths {offset lanes : Nat} {returned : List Register}
    {returns : List Column}
    (inside : ∀ column ∈ returns, offset + lanes ≤ column.length)
    (enough : returns.length ≤ returned.length) :
    (putReturns offset lanes returned returns).map List.length =
      returns.map List.length := by
  unfold putReturns
  induction returns generalizing returned with
  | nil =>
      rfl
  | cons column rest induction =>
      cases returned with
      | nil =>
          exact absurd enough (by simp)
      | cons register others =>
          have head := @length_put_leading column register offset lanes
            (inside column List.mem_cons_self)
          have tail := induction
            (fun other member => inside other (List.mem_cons_of_mem column member))
            (Nat.le_of_succ_le_succ enough)
          simp only [List.zipWith_cons_cons, List.map_cons, head, tail]

theorem Spacious.of_lengths {count : Nat} {arguments returns after given : List Column}
    (spacious : Spacious function count arguments returns)
    (sameArguments : after.map List.length = arguments.map List.length)
    (sameReturns : given.map List.length = returns.map List.length) :
    Spacious function count after given := by
  have transfer : ∀ {before later : List Column},
      later.map List.length = before.map List.length →
        (∀ column ∈ before, count ≤ column.length) →
          ∀ column ∈ later, count ≤ column.length := by
    intro before later same long column member
    have listed : column.length ∈ later.map List.length :=
      List.mem_map_of_mem member
    rw [same] at listed
    obtain ⟨other, otherMember, equal⟩ := List.mem_map.mp listed
    rw [← equal]
    exact long other otherMember
  have argumentCount := congrArg List.length sameArguments
  have returnCount := congrArg List.length sameReturns
  rw [List.length_map, List.length_map] at argumentCount returnCount
  constructor
  · rw [argumentCount]
    exact spacious.argumentCount
  · rcases spacious.returnCount with rfl | sized
    · exact Or.inl (List.length_eq_zero_iff.mp returnCount)
    · exact Or.inr (returnCount.trans sized)
  · exact transfer sameArguments spacious.argumentColumns
  · exact transfer sameReturns spacious.returnColumns

/-- Columns that are long enough hold every chunk. -/
theorem Spacious.chunk {count offset : Nat} {arguments returns : List Column}
    (spacious : Spacious function count arguments returns) (within : offset < count) :
    Spacious function (offset + min (count - offset) laneCount) arguments returns :=
  spacious.mono (by omega)

/-- One chunk ends without a trap. -/
theorem runChunk_clean (ready : function.Ready linked.program) {count offset : Nat}
    {arguments returns : List Column}
    (spacious : Spacious function count arguments returns) (within : offset < count) :
    Clean (List.map List.length) arguments returns
      ((linked.runChunk budget invocation function offset
        (min (count - offset) laneCount) arguments returns).run host).1 := by
  have chunk := spacious.chunk within
  have counted := spacious.counted offset (min (count - offset) laneCount)
  rw [runChunk_at ready chunk (Nat.min_le_right _ _)]
  have yields := fun result later =>
    @runBatch_yields σ linked budget invocation function host offset
      (min (count - offset) laneCount) _ ready.known ready.frame counted result later
  dsimp only
  generalize (linked.runBatch budget invocation function offset
    (min (count - offset) laneCount)
    (chunkRegisters arguments offset (min (count - offset) laneCount))).run host =
      reached at yields
  rcases reached with ⟨_ | failure | ⟨machine, returned⟩, later⟩
  · exact clean_unchanged (by simp)
  · have allowed : failure ≠ .trap := yields _ _ rfl
    exact clean_unchanged (by simpa using allowed)
  · have delivers : Machine.Delivers _ _ _ machine returned := yields _ _ rfl
    refine ⟨by simp [concludeChunk], ?_, ?_⟩
    · exact copyBackColumns_lengths chunk.argumentColumns
    · apply putReturns_lengths chunk.returnColumns
      rw [delivers.counted]
      exact spacious.returns_le

/-- All chunks from an offset on end without a trap. -/
theorem runFrom_clean (ready : function.Ready linked.program) {count offset : Nat}
    {arguments returns : List Column}
    (spacious : Spacious function count arguments returns) :
    Clean (List.map List.length) arguments returns
      ((linked.runFrom budget invocation function count offset arguments
        returns).run host).1 := by
  revert spacious
  apply @runFrom_induction σ linked budget invocation function count
    (fun _ arguments returns _ reached =>
      Spacious function count arguments returns →
        Clean (List.map List.length) arguments returns reached.1)
  · intro offset arguments returns host _ _
    exact clean_unchanged (by simp)
  · intro offset arguments returns host result later within chunk _ spacious
    have clean := @runChunk_clean σ linked budget invocation function host ready
      count offset arguments returns spacious within
    rw [chunk] at clean
    exact clean
  · intro offset arguments returns host after given state reached within chunk rest spacious
    have clean := @runChunk_clean σ linked budget invocation function host ready
      count offset arguments returns spacious within
    rw [chunk] at clean
    have later := rest (spacious.of_lengths clean.arguments clean.returns)
    exact ⟨later.ending, later.arguments.trans clean.arguments,
      later.returns.trans clean.returns⟩

/-- A call that is prepared has room for its results if its columns are long enough. -/
theorem Spacious.of_prepared {count : Nat} {arguments returns : List Column}
    (prepared : linked.program.prepare invocation arguments.length
      (if returns.isEmpty then none else some returns.length) = .ok function)
    (long : ∀ column ∈ arguments, count ≤ column.length)
    (wide : ∀ column ∈ returns, count ≤ column.length) :
    Spacious function count arguments returns := by
  have accepts := (Program.prepare_eq_ok.mp prepared).2
  refine ⟨accepts.arguments, ?_, long, wide⟩
  cases returns with
  | nil =>
      exact Or.inl rfl
  | cons column rest =>
      exact Or.inr (accepts.returns _ rfl)

/-- A call for columns ends without a trap. -/
theorem runStriped_clean (linked : Linked σ) (budget : Nat) (invocation : Invocation)
    (count : Nat) (arguments returns : List Column) (host : σ) :
    Clean (List.map List.length) arguments returns
      ((linked.runStriped budget invocation count arguments returns).run host).1 := by
  rw [runStriped_at]
  cases prepared : linked.program.prepare invocation arguments.length
      (if returns.isEmpty then none else some returns.length) with
  | error failure =>
      exact clean_unchanged (ne_trap_of_fault (Program.prepare_ne_trap prepared))
  | ok function =>
      dsimp only
      cases long : checkColumns .argument arguments count with
      | error failure =>
          exact clean_unchanged
            (ne_trap_of_fault (checkColumns_ne_trap.of_error long))
      | ok done =>
          dsimp only
          cases wide : checkColumns .result returns count with
          | error failure =>
              exact clean_unchanged
                (ne_trap_of_fault (checkColumns_ne_trap.of_error wide))
          | ok done =>
              apply runFrom_clean (.of_prepared prepared)
              exact .of_prepared prepared (checkColumns_eq_ok.mp long)
                (checkColumns_eq_ok.mp wide)

/-! ## Calls that fail -/

/-- A failure of a call: an input without a global, or a step of a machine that occurs. -/
def Fails (linked : Linked σ) (invocation : Invocation) (function : Function)
    (failure : Failure) : Prop :=
  linked.program.seed (invocation.inputs.getD []) = .error failure ∨
    ∃ firstElement lanes machine state,
      linked.Occurs invocation function firstElement lanes machine ∧
        (machine.stepAt (linked.batch invocation firstElement) state).1 =
          .error failure

theorem runBatch_failed {firstElement lanes : Nat} {arguments : List Register}
    {count : Nat} {returns : Option Nat} {failure : Failure} {later : σ}
    (counted : arguments.length = count)
    (prepared : linked.program.prepare invocation count returns = .ok function)
    (ended : (linked.runBatch budget invocation function firstElement lanes
      arguments).run host = (some (.error failure), later)) :
    linked.Fails invocation function failure := by
  subst counted
  have accepts := (Program.prepare_eq_ok.mp prepared).2
  rw [runBatch_at accepts.frame accepts.arguments] at ended
  cases seeded : linked.program.seed (invocation.inputs.getD []) with
  | error refusal =>
      rw [seeded] at ended
      rcases ended with ⟨⟩
      exact Or.inl seeded
  | ok globals =>
      rw [seeded] at ended
      obtain ⟨last, state, reached, concluded⟩ := Machine.runAt_ended ended
      refine Or.inr ⟨firstElement, lanes, last, state, ?_, ?_⟩
      · exact occurs_iff.mpr ⟨returns, arguments, globals, prepared, seeded, reached⟩
      · generalize (last.stepAt (linked.batch invocation firstElement) state).1 = outcome
          at concluded
        rcases outcome with refusal | following | ⟨final, returned⟩
        · rcases concluded with ⟨⟩
          rfl
        · exact concluded.elim
        · exact absurd concluded (by rintro ⟨⟩)

theorem run_failed {arguments returns : List Word} {failure : Failure}
    (prepared : linked.program.prepare invocation arguments.length
      (some returns.length) = .ok function)
    (failed : ((linked.run budget invocation arguments returns).run host).1.ending =
      .failed failure) :
    linked.Fails invocation function failure := by
  rw [run_at, prepared] at failed
  dsimp only at failed
  cases reached : (linked.runBatch budget invocation function 0 1
      (arguments.map fun word => packWords [word])).run host with
  | mk outcome later =>
      rw [reached] at failed
      rcases outcome with _ | refusal | ⟨machine, returned⟩
      · exact absurd failed (by simp [conclude])
      · rcases failed with ⟨⟩
        exact runBatch_failed (List.length_map _) prepared reached
      · exact absurd failed (by simp [conclude])

theorem runChunk_failed {given : Option Nat} {count offset : Nat}
    {arguments returns : List Column} {failure : Failure}
    (prepared : linked.program.prepare invocation arguments.length given = .ok function)
    (spacious : Spacious function count arguments returns) (within : offset < count)
    (failed : ((linked.runChunk budget invocation function offset
      (min (count - offset) laneCount) arguments returns).run host).1.ending =
        .failed failure) :
    linked.Fails invocation function failure := by
  rw [runChunk_at (.of_prepared prepared) (spacious.chunk within)
    (Nat.min_le_right _ _)] at failed
  dsimp only at failed
  cases reached : (linked.runBatch budget invocation function offset
      (min (count - offset) laneCount)
      (chunkRegisters arguments offset (min (count - offset) laneCount))).run host with
  | mk outcome later =>
      rw [reached] at failed
      rcases outcome with _ | refusal | ⟨machine, returned⟩
      · exact absurd failed (by simp [concludeChunk])
      · rcases failed with ⟨⟩
        exact runBatch_failed (List.length_map _) prepared reached
      · exact absurd failed (by simp [concludeChunk])

theorem runFrom_failed {given : Option Nat} {count offset : Nat}
    {arguments returns : List Column} {failure : Failure}
    (prepared : linked.program.prepare invocation arguments.length given = .ok function)
    (spacious : Spacious function count arguments returns)
    (failed : ((linked.runFrom budget invocation function count offset arguments
      returns).run host).1.ending = .failed failure) :
    linked.Fails invocation function failure := by
  have ready := Function.Ready.of_prepared prepared
  revert failed spacious prepared
  apply @runFrom_induction σ linked budget invocation function count
    (fun _ arguments returns _ reached =>
      linked.program.prepare invocation arguments.length given = .ok function →
        Spacious function count arguments returns →
          reached.1.ending = .failed failure → linked.Fails invocation function failure)
  · intro offset arguments returns host _ _ _ failed
    cases failed
  · intro offset arguments returns host result later within chunk _ prepared spacious failed
    have stopped := @runChunk_failed σ linked budget invocation function host given count
      offset arguments returns failure prepared spacious within
    rw [chunk] at stopped
    exact stopped failed
  · intro offset arguments returns host after others state reached within chunk rest
      prepared spacious failed
    have clean := @runChunk_clean σ linked budget invocation function host ready
      count offset arguments returns spacious within
    rw [chunk] at clean
    have sameLength : after.length = arguments.length := by
      have lengths := congrArg List.length clean.arguments
      rw [List.length_map, List.length_map] at lengths
      exact lengths
    rw [← sameLength] at prepared
    exact rest prepared (spacious.of_lengths clean.arguments clean.returns) failed

/-! ## Safety -/

theorem Occurs.serves {firstElement lanes : Nat} {machine : Machine}
    (occurs : linked.Occurs invocation function firstElement lanes machine) :
    machine.Serves linked.program function lanes := by
  obtain ⟨returns, arguments, globals, prepared, _, reached⟩ := occurs_iff.mp occurs
  have ready := Function.Ready.of_prepared prepared
  exact reached.serves (Machine.serves_booted ready.known ready.frame globals)

/-- The number of entries that a list of bytes can have in memory. -/
def largestLength : Nat := 2 ^ 63 - 1

/--
The machine of a chunk stays within its storage: the chunk starts at an offset
and has some lanes, and the call is for a number of elements.  Everything that
is added up while the machine takes a step is below the largest size, and
everything that is taken away is there.
-/
structure Contained (program : Program) (function : Function) (count offset lanes : Nat)
    (machine : Machine) : Prop where
  sound : machine.Sound program
  outermost : machine.outermost.function = function
  masks : ∀ stack, 0 < (machine.predicates.entries stack).length ∧
    (machine.predicates.entries stack).length ≤ predicateCapacity
  live : ∀ lane, machine.live.get lane = true → lane.val < lanes
  chunk : 0 < lanes ∧ lanes ≤ laneCount ∧ lanes ≤ count - offset
  elements : ∀ lane, lane < lanes → offset + lane < count
  later : offset + lanes ≤ count ∧ offset + lanes ≤ largestSize
  -- A position, with anything that the operands of an instruction or a word can say,
  -- once for each lane.
  sums : ∀ amount, amount < 2 ^ 32 → machine.top + laneCount * amount ≤ largestSize
  reading : machine.current.function.code.length ≤ largestLength →
    ∀ amount, amount < 2 ^ 32 → machine.current.offset + amount ≤ largestSize
  upcoming : ∀ instruction, machine.upcoming = .ok instruction →
    instruction.Admitted ∧
      machine.current.offset + instruction.width ≤
        machine.current.function.code.length ∧
      instruction.taken + instruction.given < 2 ^ 32

theorem Occurs.contained {count offset : Nat} {machine : Machine}
    (representable : count ≤ largestSize) (within : offset < count)
    (occurs : linked.Occurs invocation function offset
      (min (count - offset) laneCount) machine) :
    Contained linked.program function count offset (min (count - offset) laneCount)
      machine := by
  have serves := occurs.serves
  have width : laneCount = 8 := rfl
  have capacity : machine.top ≤ 192 := serves.sound.capacity
  have inCode := serves.sound.running.offset
  refine ⟨serves.sound, serves.outermost, serves.sound.predicates.length_entries,
    fun _ => serves.lt_of_live, ?_, ?_, ?_, ?_, ?_, ?_⟩
  · omega
  · intro lane inChunk
    omega
  · omega
  · intro amount small
    rw [width]
    unfold largestSize
    omega
  · intro stored amount small
    unfold largestLength at stored
    unfold largestSize
    omega
  · intro instruction decoded
    have admitted := (Instruction.decode_eq_ok decoded).2
    have demand := Instruction.demand_lt admitted.countable
    exact ⟨admitted, (serves.sound.advanced decoded).running.offset, by omega⟩

/-- The argument slots of a call, and those that go back, lie in the entry frame. -/
structure Framed (function : Function) (arguments : Nat) : Prop where
  counted : function.parameterCount = arguments
  capacity : arguments ≤ stackCapacity
  starts : ∀ earlier later, function.parameters = earlier ++ later →
    (earlier.map Parameter.slotCount).sum ≤ arguments
  outSlots : ∀ slot ∈ function.outSlots, slot < arguments

theorem Framed.of_prepared {arguments : Nat} {returns : Option Nat}
    (prepared : linked.program.prepare invocation arguments returns = .ok function) :
    Framed function arguments := by
  have accepts := (Program.prepare_eq_ok.mp prepared).2
  have sizes := Function.frame_of_fits accepts.frame
  have counted := accepts.arguments
  constructor
  · exact counted.symm
  · omega
  · intro earlier later split
    rw [counted]
    exact Function.start_le_parameterCount accepts.widths split
  · intro slot listed
    rw [counted]
    exact ((Function.Ready.of_prepared prepared).outSlots slot listed).1

/--
No call traps.  Every machine that occurs in a chunk of a call is contained in
its storage and steps to a machine, to the end of the call or to a failure other
than a trap; arguments, and those that go back, lie in the entry frame; and every
call ends without a trap and with buffers of the same shape.
-/
theorem calls_never_trap (linked : Linked σ) (invocation : Invocation) :
    (∀ function count offset machine, count ≤ largestSize → offset < count →
      linked.Occurs invocation function offset (min (count - offset) laneCount) machine →
        Contained linked.program function count offset (min (count - offset) laneCount)
            machine ∧
          ∀ host, Yields (· ≠ .trap)
            (fun flow => ∃ instruction,
              machine.Advances linked.program instruction flow)
            (machine.stepAt (linked.batch invocation offset) host).1) ∧
      (∀ function arguments returns,
        linked.program.prepare invocation arguments returns = .ok function →
          Framed function arguments) ∧
      (∀ budget arguments returns host,
        Clean List.length arguments returns
          ((linked.run budget invocation arguments returns).run host).1) ∧
      ∀ budget count arguments returns host,
        Clean (List.map List.length) arguments returns
          ((linked.runStriped budget invocation count arguments returns).run host).1 := by
  refine ⟨?_, ?_, ?_, ?_⟩
  · intro function count offset machine representable within occurs
    refine ⟨occurs.contained representable within, ?_⟩
    intro host
    exact (Machine.stepAt_yields occurs.serves.sound host).permit
      fun _ stops => stops.ne_trap
  · intro function arguments returns prepared
    exact .of_prepared prepared
  · exact fun budget => linked.run_clean budget invocation
  · exact fun budget => linked.runStriped_clean budget invocation

/-- A function that returns its only argument. -/
def echo : Function where
  name := "echo"
  parameterCount := 1
  stackCount := 1
  returnCount := 1
  parameters := [{ slotCount := 1 }]
  code := (Instruction.load .local 1 0).encode ++ (Instruction.ret 1).encode

/-- A function that calls `echo` for the lanes in which its argument is true. -/
def visit : Function where
  name := "visit"
  parameterCount := 1
  stackCount := 2
  conditionDepth := 1
  returnCount := 1
  parameters := [{ slotCount := 1 }]
  code := (Instruction.load .local 1 0).encode ++ Instruction.maskPush.encode ++
    (Instruction.compute (.reserve 1)).encode ++ (Instruction.load .local 1 0).encode ++
    (Instruction.call 0).encode ++ (Instruction.compute (.pop 1)).encode ++
    Instruction.maskPop.encode ++ (Instruction.ret 1).encode

/--
A call of `visit` for eleven elements, in its second chunk: `echo` has put its
result on the operand stack, under a scope in which the middle lane is idle.
-/
theorem calls_never_trap_visit :
    ∃ machine, Occurs (⟨{ functions := [echo, visit] }, []⟩ : Linked Unit)
        ⟨1, [], none⟩ visit 8 3 machine ∧
      (machine.callers.length = 1 ∧ machine.current.floor < machine.top ∧
        machine.live.active = [0, 2]) ∧
      Contained { functions := [echo, visit] } visit 11 8 3 machine := by
  obtain ⟨moment, member, found⟩ := List.any_eq_true.mp
    (by decide +kernel :
      ((Machine.booted visit 3 (.blank globalCapacity) [packWords [1, 0, 1]]).moments
        (batch (⟨{ functions := [echo, visit] }, []⟩ : Linked Unit) ⟨1, [], none⟩ 8)
        7 ()).any (fun moment => decide (moment.1.callers.length = 1 ∧
          moment.1.current.floor < moment.1.top ∧ moment.1.live.active = [0, 2])) = true)
  have occurs : Occurs (⟨{ functions := [echo, visit] }, []⟩ : Linked Unit)
      ⟨1, [], none⟩ visit 8 3 moment.1 :=
    occurs_iff.mpr ⟨some 1, [packWords [1, 0, 1]], .blank globalCapacity, by decide, rfl,
      Machine.reaches_of_moment member⟩
  exact ⟨_, occurs, of_decide_eq_true found,
    ((calls_never_trap _ _).1 visit 11 8 _ (by decide) (by decide) occurs).1⟩

end Linked

end Lockstep
