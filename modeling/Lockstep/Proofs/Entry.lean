import Lockstep.Proofs.Service
import Lockstep.Proofs.Sinks

/-!
# Calls in closed form

What a call does to the state of the host and to its buffers, spelled out: a
call for a single element runs one batch with one lane, and a call for columns
runs one batch for each chunk, one after the other, until a batch does not
complete.  Each batch of an accepted call runs a machine that was booted on
the arguments of its elements.  What holds of a call for columns is proved along
its chunks, by `Linked.runFrom_induction`.

The buffers are written in place, but a call that was accepted does not show it.
`Linked.serve_at` says that the buffers are not touched before the outermost
return, and from there on nothing fails: the sink finds the room that was checked
before (`Sink.interleaved_at`, `Sink.striped_at`), and so does the way back of the
arguments (`Function.giveBack_at`, `Function.giveBackColumns_at`).
-/

namespace Lockstep

variable {σ β : Type}

/-! ## Arguments that come back -/

namespace Function

theorem le_of_mem_outSlotsFrom {parameters : List Parameter} {start slot : Nat}
    (listed : slot ∈ outSlotsFrom start parameters) : start ≤ slot := by
  induction parameters generalizing start with
  | nil =>
      exact absurd listed List.not_mem_nil
  | cons parameter parameters induction =>
      rcases List.mem_append.mp listed with here | later
      · split at here
        · exact (List.mem_range'_1.mp here).1
        · exact absurd here List.not_mem_nil
      · have above := induction later
        omega

theorem nodup_outSlotsFrom (parameters : List Parameter) (start : Nat) :
    (outSlotsFrom start parameters).Nodup := by
  induction parameters generalizing start with
  | nil =>
      exact List.nodup_nil
  | cons parameter parameters induction =>
      refine List.nodup_append.mpr ⟨?_, induction _, ?_⟩
      · split
        · exact List.nodup_range'
        · exact List.nodup_nil
      · intro slot here other later
        have above := le_of_mem_outSlotsFrom later
        split at here
        · have inside := List.mem_range'_1.mp here
          omega
        · exact absurd here List.not_mem_nil

/-- No argument slot goes back twice. -/
theorem nodup_outSlots (function : Function) : function.outSlots.Nodup :=
  nodup_outSlotsFrom _ _

/-- The argument words after a call has completed. -/
def copyBack (function : Function) (machine : Machine)
    (arguments : List Word) : List Word :=
  arguments.zipIdx.map fun (word, slot) =>
    if function.isOutSlot slot then (machine.registers.register slot).get 0 else word

/-- The argument columns after a chunk has completed. -/
def copyBackColumns (function : Function) (machine : Machine)
    (offset lanes : Nat) (arguments : List Column) : List Column :=
  arguments.zipIdx.map fun (column, slot) =>
    if function.isOutSlot slot then
      column.put offset (leadingWords (machine.registers.register slot) lanes)
    else column

end Function

theorem Machine.argument_of_lt (machine : Machine) {slot lane : Nat}
    (inFile : slot < stackCapacity) (inRange : lane < laneCount) :
    machine.argument slot lane =
      .ok ((machine.registers.register slot).get ⟨lane, inRange⟩) := by
  unfold Machine.argument
  rw [RegisterFile.readRun_of_le _ inFile, ok_bind]
  exact wordOf_of_lt _ inRange

namespace Function

variable {function : Function} {machine : Machine}

/-- The words that go back find their slots and are found in the frame. -/
theorem giveBack_at {arguments : List Word}
    (inside : ∀ slot ∈ function.outSlots, slot < arguments.length ∧ slot < stackCapacity) :
    (function.giveBack machine).at arguments =
      (.ok (), function.copyBack machine arguments) := by
  have writes : ∀ slot ∈ function.outSlots, ∀ state : List Word,
      state[slot]? = arguments[slot]? →
        (do
          let word ← Session.ofExcept (machine.argument slot 0)
          writeWord slot word : Session (List Word) Unit).at state =
        (.ok (), state.modify slot fun _ => (machine.registers.register slot).get 0) := by
    intro slot listed state same
    obtain ⟨inArguments, inFile⟩ := inside slot listed
    rw [List.getElem?_eq_getElem inArguments] at same
    rw [machine.argument_of_lt inFile (by decide), Session.at_bind, Session.at_ofExcept]
    dsimp only
    rw [writeWord_at (List.getElem?_eq_some_iff.mp same).1, List.set_eq_modify]
    rfl
  unfold giveBack copyBack
  rw [Session.at_forM_slots (nodup_outSlots function) writes]
  simp only [isOutSlot, List.contains_iff_mem]

/-- The chunks that go back find their columns and are found in the frame. -/
theorem giveBackColumns_at {arguments : List Column} {offset lanes : Nat}
    (inside : ∀ slot ∈ function.outSlots, slot < arguments.length ∧ slot < stackCapacity)
    (long : ∀ column ∈ arguments, offset + lanes ≤ column.length)
    (narrow : lanes ≤ laneCount) :
    (function.giveBackColumns offset lanes machine).at arguments =
      (.ok (), function.copyBackColumns machine offset lanes arguments) := by
  have writes : ∀ slot ∈ function.outSlots, ∀ state : List Column,
      state[slot]? = arguments[slot]? →
        ((List.range lanes).forM fun lane => do
            let word ← Session.ofExcept (machine.argument slot lane)
            writeEntry slot (offset + lane) word).at state =
          (.ok (), state.modify slot
            (Column.put · offset (leadingWords (machine.registers.register slot) lanes))) := by
    intro slot listed state same
    obtain ⟨inArguments, inFile⟩ := inside slot listed
    rw [List.getElem?_eq_getElem inArguments] at same
    exact writeLanes_at (fun lane inRange _ => machine.argument_of_lt inFile inRange) same
      (long _ (List.getElem_mem inArguments)) narrow
  unfold giveBackColumns copyBackColumns
  rw [Session.at_forM_slots (nodup_outSlots function) writes]
  simp only [isOutSlot, List.contains_iff_mem]

/-- A function whose arguments can go back: it is known, and its declared frame fits. -/
structure Ready (program : Program) (function : Function) : Prop where
  known : function ∈ program.functions
  frame : function.stackNeed ≤ stackCapacity
  widths : function.declaredSlots = some function.parameterCount

theorem Ready.of_prepared {program : Program} {invocation : Invocation} {arguments : Nat}
    {returns : Option Nat}
    (prepared : program.prepare invocation arguments returns = .ok function) :
    function.Ready program := by
  obtain ⟨known, accepts⟩ := Program.prepare_eq_ok.mp prepared
  exact ⟨List.mem_of_getElem? known, accepts.frame, accepts.widths⟩

/-- Slots that go back are slots of the arguments, and of the register file. -/
theorem Ready.outSlots {program : Program} (ready : function.Ready program) :
    ∀ slot ∈ function.outSlots, slot < function.parameterCount ∧ slot < stackCapacity := by
  intro slot listed
  have inArguments := lt_of_isOutSlot ready.widths (List.contains_iff_mem.mpr listed)
  have sizes := frame_of_fits ready.frame
  omega

end Function

namespace Linked

/-- A machine that occurs while a prepared call runs a batch. -/
def Occurs (linked : Linked σ) (invocation : Invocation) (function : Function)
    (firstElement lanes : Nat) (machine : Machine) : Prop :=
  ∃ (returns : Option Nat) (arguments : List Register) (start : Machine),
    linked.program.prepare invocation arguments.length returns = .ok function ∧
      Machine.boot linked.program function lanes invocation.inputs arguments =
        .ok start ∧
        Machine.Reaches (linked.batch invocation firstElement) start machine

variable {linked : Linked σ} {budget : Nat} {invocation : Invocation}
variable {function : Function} {host : σ}

/-- A machine occurs if it is reached from one that was booted for an accepted call. -/
theorem occurs_iff {firstElement lanes : Nat} {machine : Machine} :
    linked.Occurs invocation function firstElement lanes machine ↔
      ∃ returns arguments globals,
        linked.program.prepare invocation arguments.length returns = .ok function ∧
          linked.program.seed (invocation.inputs.getD []) = .ok globals ∧
            Machine.Reaches (linked.batch invocation firstElement)
              (Machine.booted function lanes globals arguments) machine := by
  constructor
  · rintro ⟨returns, arguments, start, prepared, booted, reached⟩
    have accepts := (Program.prepare_eq_ok.mp prepared).2
    rw [Machine.boot_eq accepts.frame accepts.arguments] at booted
    cases seeded : linked.program.seed (invocation.inputs.getD []) with
    | error failure =>
        rw [seeded] at booted
        exact absurd booted (by rintro ⟨⟩)
    | ok globals =>
        rw [seeded] at booted
        rcases booted with ⟨⟩
        exact ⟨returns, arguments, globals, prepared, rfl, reached⟩
  · rintro ⟨returns, arguments, globals, prepared, seeded, reached⟩
    have accepts := (Program.prepare_eq_ok.mp prepared).2
    refine ⟨returns, arguments, _, prepared, ?_, reached⟩
    rw [Machine.boot_eq accepts.frame accepts.arguments, seeded]
    rfl

/-! ## Batches -/

/-- Run a function on the elements of one batch, and keep what it returns. -/
def runBatch (linked : Linked σ) (budget : Nat) (invocation : Invocation)
    (function : Function) (firstElement lanes : Nat) (arguments : List Register) :
    StateM σ BatchResult :=
  linked.launch invocation function lanes arguments
    (Machine.run (linked.batch invocation firstElement) budget)

/-- An accepted batch runs a booted machine, unless an input has no global. -/
theorem runBatch_at {firstElement lanes : Nat} {arguments : List Register}
    (frame : function.stackNeed ≤ stackCapacity)
    (counted : arguments.length = function.parameterCount) :
    (linked.runBatch budget invocation function firstElement lanes arguments).run host =
      match linked.program.seed (invocation.inputs.getD []) with
      | .error failure => (some (.error failure), host)
      | .ok globals =>
          (Machine.booted function lanes globals arguments).runAt
            (linked.batch invocation firstElement) budget host := by
  unfold runBatch launch
  rw [Machine.boot_eq frame counted]
  cases linked.program.seed (invocation.inputs.getD []) <;> rfl

/-- A batch does not trap, and one that completes delivers what its function declares. -/
theorem runBatch_yields {firstElement lanes : Nat} {arguments : List Register}
    (known : function ∈ linked.program.functions)
    (frame : function.stackNeed ≤ stackCapacity)
    (counted : arguments.length = function.parameterCount)
    {result : Except Failure (Machine × List Register)} {later : σ}
    (ended : (linked.runBatch budget invocation function firstElement lanes
      arguments).run host = (some result, later)) :
    Yields (· ≠ .trap)
      (fun reached =>
        Machine.Delivers linked.program function lanes reached.1 reached.2)
      result := by
  rw [runBatch_at frame counted] at ended
  have seeding := linked.program.seed_yields (invocation.inputs.getD [])
  cases seeded : linked.program.seed (invocation.inputs.getD []) with
  | error failure =>
      rw [seeded] at ended seeding
      rcases ended with ⟨⟩
      rcases seeding with ⟨slot, _, _, input, rfl⟩
      exact fun impossible => Failure.noConfusion impossible
  | ok globals =>
      rw [seeded] at ended
      exact Machine.runAt_yields
        (Machine.serves_booted known frame globals) ended

/-- What a call makes of its batch: the sink comes first, and then the way back. -/
def served (sink : Sink (List β)) (giveBack : Machine → Session (List β) Unit)
    (arguments returns : List β) : BatchResult → Result β
  | none => ⟨.exhausted, arguments, returns⟩
  | some (.error failure) => ⟨.failed failure, arguments, returns⟩
  | some (.ok (machine, returned)) =>
      match (sink returned).at returns with
      | (.error failure, written) => ⟨.failed failure, arguments, written⟩
      | (.ok (), written) =>
          ⟨.of ((giveBack machine).at arguments).1, ((giveBack machine).at arguments).2,
            written⟩

/-- A call does not touch its buffers before its batch comes to the outermost return. -/
theorem serve_at {firstElement lanes : Nat} {registers : List Register}
    {sink : Sink (List β)} {giveBack : Machine → Session (List β) Unit}
    {arguments returns : List β} :
    (linked.serve budget invocation function firstElement lanes registers sink giveBack
      arguments returns).run host =
      let reached := (linked.runBatch budget invocation function firstElement lanes
        registers).run host
      (served sink giveBack arguments returns reached.1, reached.2) := by
  change settle giveBack arguments ((linked.launch invocation function lanes registers
    (Machine.runInto (linked.batch invocation firstElement) sink budget)).run
      (host, returns)) = _
  unfold runBatch launch
  cases Machine.boot linked.program function lanes invocation.inputs registers with
  | error failure =>
      rfl
  | ok machine =>
      dsimp only
      rw [Machine.runInto_at]
      change _ = (served sink giveBack arguments returns
        (machine.runAt (linked.batch invocation firstElement) budget host).1,
          (machine.runAt (linked.batch invocation firstElement) budget host).2)
      rcases machine.runAt (linked.batch invocation firstElement) budget host with
        ⟨_ | failure | ⟨final, returned⟩, later⟩
      · rfl
      · rfl
      · dsimp only [served]
        rcases (sink returned).at returns with ⟨failure | done, written⟩ <;> rfl

/-! ## Single elements -/

/-- What a call for a single element makes of its batch. -/
def conclude (function : Function) (arguments returns : List Word) :
    BatchResult → Result Word
  | none => ⟨.exhausted, arguments, returns⟩
  | some (.error failure) => ⟨.failed failure, arguments, returns⟩
  | some (.ok (machine, returned)) =>
      ⟨.completed, function.copyBack machine arguments, returned.map (·.get 0)⟩

theorem run_at (linked : Linked σ) (budget : Nat) (invocation : Invocation)
    (arguments returns : List Word) (host : σ) :
    (linked.run budget invocation arguments returns).run host =
      match linked.program.prepare invocation arguments.length
          (some returns.length) with
      | .error failure => (⟨.failed failure, arguments, returns⟩, host)
      | .ok function =>
          let reached := (linked.runBatch budget invocation function 0 1
            (arguments.map fun word => packWords [word])).run host
          (conclude function arguments returns reached.1, reached.2) := by
  unfold Linked.run
  cases prepared : linked.program.prepare invocation arguments.length
      (some returns.length) with
  | error failure =>
      rfl
  | ok function =>
      have ready := Function.Ready.of_prepared prepared
      have accepts := (Program.prepare_eq_ok.mp prepared).2
      have counted : (arguments.map fun word => packWords [word]).length =
          function.parameterCount := by
        rw [List.length_map]
        exact accepts.arguments
      dsimp only
      rw [serve_at]
      dsimp only
      cases ended : (linked.runBatch budget invocation function 0 1
          (arguments.map fun word => packWords [word])).run host with
      | mk result later =>
          rcases result with _ | failure | ⟨machine, returned⟩
          · rfl
          · rfl
          · have delivers : Machine.Delivers _ _ _ machine returned :=
              runBatch_yields ready.known ready.frame counted ended
            have room : returns.length = returned.length :=
              (accepts.returns _ rfl).trans delivers.counted.symm
            have back := @Function.giveBack_at function machine arguments (by
              rw [accepts.arguments]
              exact ready.outSlots)
            simp only [served, conclude, Sink.interleaved_at room, back]
            rfl

/-! ## Columns -/

/-- What a call for columns makes of the batch of a chunk. -/
def concludeChunk (function : Function) (offset lanes : Nat)
    (arguments returns : List Column) : BatchResult → Result Column
  | none => ⟨.exhausted, arguments, returns⟩
  | some (.error failure) => ⟨.failed failure, arguments, returns⟩
  | some (.ok (machine, returned)) =>
      ⟨.completed, function.copyBackColumns machine offset lanes arguments,
        putReturns offset lanes returned returns⟩

/-- The argument registers of a chunk. -/
def chunkRegisters (arguments : List Column) (offset lanes : Nat) : List Register :=
  arguments.map fun column => packWords ((column.drop offset).take lanes)

/-- Buffers that a prepared call for columns may have. -/
structure Spacious (function : Function) (count : Nat)
    (arguments returns : List Column) : Prop where
  argumentCount : arguments.length = function.parameterCount
  returnCount : returns = [] ∨ returns.length = function.returnCount
  argumentColumns : ∀ column ∈ arguments, count ≤ column.length
  returnColumns : ∀ column ∈ returns, count ≤ column.length

/-- Buffers for some elements are buffers for fewer elements. -/
theorem Spacious.mono {count fewer : Nat} {arguments returns : List Column}
    (spacious : Spacious function count arguments returns) (less : fewer ≤ count) :
    Spacious function fewer arguments returns :=
  ⟨spacious.argumentCount, spacious.returnCount,
    fun column member => less.trans (spacious.argumentColumns column member),
    fun column member => less.trans (spacious.returnColumns column member)⟩

/-- There is a returned register for every return column. -/
theorem Spacious.returns_le {count : Nat} {arguments returns : List Column}
    (spacious : Spacious function count arguments returns) :
    returns.length ≤ function.returnCount := by
  rcases spacious.returnCount with rfl | sized
  · exact Nat.zero_le _
  · exact Nat.le_of_eq sized

/-- A chunk has a register for every parameter. -/
theorem Spacious.counted {count : Nat} {arguments returns : List Column}
    (spacious : Spacious function count arguments returns) (offset lanes : Nat) :
    (chunkRegisters arguments offset lanes).length = function.parameterCount := by
  rw [chunkRegisters, List.length_map]
  exact spacious.argumentCount

theorem mapM_pack {columns : List Column} {offset lanes : Nat}
    (inside : ∀ column ∈ columns, offset + lanes ≤ column.length)
    (narrow : lanes ≤ laneCount) :
    columns.mapM (fun column => Column.pack column offset lanes) =
      .ok (chunkRegisters columns offset lanes) := by
  apply mapM_ok_of_forall
  intro column member
  have long := inside column member
  unfold Column.pack
  rw [Column.chunk_of_le long, ok_bind, if_neg]
  · rfl
  · simp only [List.length_take, List.length_drop]
    omega

theorem runChunk_at (ready : function.Ready linked.program) {offset lanes : Nat}
    {arguments returns : List Column}
    (spacious : Spacious function (offset + lanes) arguments returns)
    (narrow : lanes ≤ laneCount) :
    (linked.runChunk budget invocation function offset lanes arguments returns).run host =
      let reached := (linked.runBatch budget invocation function offset lanes
        (chunkRegisters arguments offset lanes)).run host
      (concludeChunk function offset lanes arguments returns reached.1, reached.2) := by
  unfold Linked.runChunk
  rw [mapM_pack spacious.argumentColumns narrow]
  dsimp only
  rw [serve_at]
  dsimp only
  cases ended : (linked.runBatch budget invocation function offset lanes
      (chunkRegisters arguments offset lanes)).run host with
  | mk result later =>
      rcases result with _ | failure | ⟨machine, returned⟩
      · rfl
      · rfl
      · have delivers : Machine.Delivers _ _ _ machine returned :=
          runBatch_yields ready.known ready.frame (spacious.counted offset lanes) ended
        have back := @Function.giveBackColumns_at function machine arguments offset lanes (by
          rw [spacious.argumentCount]
          exact ready.outSlots) spacious.argumentColumns narrow
        have sunk : ((if returns.isEmpty then .discard else .striped offset lanes :
            Sink (List Column)) returned).at returns =
              (.ok (), putReturns offset lanes returned returns) := by
          rcases spacious.returnCount with rfl | sized
          · rfl
          · have room : returns.length = returned.length :=
              sized.trans delivers.counted.symm
            cases returns with
            | nil =>
                rfl
            | cons column rest =>
                exact Sink.striped_at room spacious.returnColumns narrow
        simp only [served, concludeChunk, sunk, back]
        rfl

theorem runFrom_at {count offset : Nat} (arguments returns : List Column) :
    (linked.runFrom budget invocation function count offset arguments returns).run host =
      if offset < count then
        let reached := (linked.runChunk budget invocation function offset
          (min (count - offset) laneCount) arguments returns).run host
        match reached.1.ending with
        | .completed =>
            (linked.runFrom budget invocation function count
              (offset + min (count - offset) laneCount)
              reached.1.arguments reached.1.returns).run reached.2
        | _ => reached
      else (⟨.completed, arguments, returns⟩, host) := by
  rw [Linked.runFrom]
  split
  · rw [StateT.run_bind]
    rcases (linked.runChunk budget invocation function offset
      (min (count - offset) laneCount) arguments returns).run host with ⟨result, later⟩
    rcases result with ⟨ending, after, given⟩
    cases ending <;> rfl
  · rfl

/-- Behind the last element a call has nothing left to do. -/
theorem runFrom_of_le {count offset : Nat} {arguments returns : List Column}
    (beyond : count ≤ offset) :
    (linked.runFrom budget invocation function count offset arguments returns).run host =
      (⟨.completed, arguments, returns⟩, host) := by
  rw [runFrom_at, if_neg (Nat.not_lt_of_le beyond)]

/-- Behind the last chunk, which may be shorter, a call has nothing left to do either way. -/
theorem runFrom_lanes {count offset : Nat} {arguments returns : List Column} :
    (linked.runFrom budget invocation function count
        (offset + min (count - offset) laneCount) arguments returns).run host =
      (linked.runFrom budget invocation function count (offset + laneCount) arguments
        returns).run host := by
  by_cases full : laneCount ≤ count - offset
  · rw [Nat.min_eq_right full]
  · rw [runFrom_of_le (by omega), runFrom_of_le (by omega)]

/-- A chunk that does not complete is the last one of a call. -/
theorem runFrom_of_stopped {count offset : Nat} {arguments returns : List Column}
    {result : Result Column} {later : σ} (within : offset < count)
    (chunk : (linked.runChunk budget invocation function offset
      (min (count - offset) laneCount) arguments returns).run host = (result, later))
    (incomplete : result.ending ≠ .completed) :
    (linked.runFrom budget invocation function count offset arguments returns).run host =
      (result, later) := by
  rw [runFrom_at, if_pos within, chunk]
  rcases result with ⟨ending, after, given⟩
  cases ending with
  | completed => exact absurd rfl incomplete
  | failed | exhausted => rfl

/-- Behind a chunk that completes a call goes on with what the chunk has left. -/
theorem runFrom_of_completed {count offset : Nat}
    {arguments returns after given : List Column} {later : σ} (within : offset < count)
    (chunk : (linked.runChunk budget invocation function offset
      (min (count - offset) laneCount) arguments returns).run host =
        (⟨.completed, after, given⟩, later)) :
    (linked.runFrom budget invocation function count offset arguments returns).run host =
      (linked.runFrom budget invocation function count (offset + laneCount) after
        given).run later := by
  rw [runFrom_at, if_pos within, chunk]
  exact runFrom_lanes

/-- Induction along the chunks of a call, with the end that each part of it comes to. -/
theorem runFrom_induction {count : Nat}
    {motive : Nat → List Column → List Column → σ → Result Column × σ → Prop}
    (finished : ∀ offset arguments returns host, count ≤ offset →
      motive offset arguments returns host (⟨.completed, arguments, returns⟩, host))
    (stopped : ∀ offset arguments returns host result later, offset < count →
      (linked.runChunk budget invocation function offset (min (count - offset) laneCount)
        arguments returns).run host = (result, later) →
        result.ending ≠ .completed → motive offset arguments returns host (result, later))
    (continued : ∀ offset arguments returns host after given state reached,
      offset < count →
      (linked.runChunk budget invocation function offset (min (count - offset) laneCount)
        arguments returns).run host = (⟨.completed, after, given⟩, state) →
        motive (offset + laneCount) after given state reached →
          motive offset arguments returns host reached)
    (offset : Nat) (arguments returns : List Column) (host : σ) :
    motive offset arguments returns host
      ((linked.runFrom budget invocation function count offset arguments
        returns).run host) := by
  generalize remaining : count - offset = distance
  induction distance using Nat.strongRecOn generalizing offset arguments returns host with
  | ind distance induction =>
      by_cases within : offset < count
      · cases chunk : (linked.runChunk budget invocation function offset
            (min (count - offset) laneCount) arguments returns).run host with
        | mk result state =>
            by_cases complete : result.ending = .completed
            · obtain ⟨ending, after, given⟩ := result
              cases complete
              have positive : 0 < laneCount := by decide
              rw [runFrom_of_completed within chunk]
              exact continued offset arguments returns host after given state _ within
                chunk (induction (count - (offset + laneCount)) (by omega) _ _ _ _ rfl)
            · rw [runFrom_of_stopped within chunk complete]
              exact stopped offset arguments returns host _ state within chunk complete
      · have beyond := Nat.le_of_not_lt within
        rw [runFrom_of_le beyond]
        exact finished offset arguments returns host beyond

theorem runStriped_at (linked : Linked σ) (budget : Nat) (invocation : Invocation)
    (count : Nat) (arguments returns : List Column) (host : σ) :
    (linked.runStriped budget invocation count arguments returns).run host =
      match linked.program.prepare invocation arguments.length
          (if returns.isEmpty then none else some returns.length) with
      | .error failure => (⟨.failed failure, arguments, returns⟩, host)
      | .ok function =>
          match checkColumns .argument arguments count with
          | .error failure => (⟨.failed failure, arguments, returns⟩, host)
          | .ok () =>
              match checkColumns .result returns count with
              | .error failure => (⟨.failed failure, arguments, returns⟩, host)
              | .ok () =>
                  (linked.runFrom budget invocation function count 0 arguments
                    returns).run host := by
  unfold Linked.runStriped
  dsimp only
  cases linked.program.prepare invocation arguments.length
      (if returns.isEmpty then none else some returns.length) with
  | error failure =>
      rfl
  | ok function =>
      dsimp only
      cases checkColumns .argument arguments count with
      | error failure =>
          rfl
      | ok done =>
          dsimp only
          cases checkColumns .result returns count <;> rfl

end Linked

end Lockstep
