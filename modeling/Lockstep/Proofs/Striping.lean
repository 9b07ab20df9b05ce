import Lockstep.Proofs.Safety

/-!
# Columns and single elements

A call for columns is compared with the calls for its elements one by one.
`Linked.LaneIndependent` says that the two ways agree: the columns complete if
and only if every element does, the words of each element come out the same,
and if a chunk fails, then some element of that chunk fails alone in the same
way.

For one chunk, `LaneAgreement` compares the machine of the chunk with the
machines of its elements.  `Linked.laneIndependent_of_agreement` passes from
chunks to columns: chunks are independent because each of them runs on a fresh
machine and writes to its own elements only.
-/

namespace Lockstep

variable {σ : Type}

/-! ## Rows -/

/-- The words of one element. -/
def row (columns : List Column) (element : Nat) : List Word :=
  columns.map fun column => column.getD element 0

@[simp]
theorem length_row (columns : List Column) (element : Nat) :
    (row columns element).length = columns.length := by
  simp [row]

theorem getD_leadingWords (register : Register) {lanes : Nat} {lane : Lane}
    (inside : lane.val < lanes) :
    (leadingWords register lanes).getD lane.val 0 = register.get lane := by
  simp [leadingWords, Lanes.toList, Lanes.get, List.getD_eq_getElem?_getD, inside]

theorem Column.getD_put {column : Column} {offset : Nat} {words : List Word}
    (inside : offset + words.length ≤ column.length) (element : Nat) :
    (column.put offset words).getD element 0 =
      if offset ≤ element ∧ element < offset + words.length then
        words.getD (element - offset) 0
      else column.getD element 0 := by
  unfold Column.put
  simp only [List.getD_eq_getElem?_getD]
  by_cases before : element < offset
  · rw [if_neg (by omega), List.append_assoc,
      List.getElem?_append_left (by rw [List.length_take]; omega),
      List.getElem?_take_of_lt before]
  · by_cases within : element < offset + words.length
    · rw [if_pos (by omega),
        List.getElem?_append_left (by rw [List.length_append, List.length_take]; omega),
        List.getElem?_append_right (by rw [List.length_take]; omega),
        List.length_take, Nat.min_eq_left (by omega)]
    · rw [if_neg (by omega),
        List.getElem?_append_right (by rw [List.length_append, List.length_take]; omega),
        List.getElem?_drop, List.length_append, List.length_take]
      congr 2
      omega

/-- The elements of a chunk after the first words of a register have been put there. -/
theorem Column.getD_put_lane {column : Column} {register : Register}
    {offset lanes : Nat} {lane : Lane} (inside : offset + lanes ≤ column.length)
    (within : lane.val < lanes) :
    (column.put offset (leadingWords register lanes)).getD (offset + lane.val) 0 =
      register.get lane := by
  have length := length_leadingWords register lanes
  have small : lane.val < laneCount := lane.isLt
  rw [getD_put (by omega), if_pos (by omega), Nat.add_sub_cancel_left,
    getD_leadingWords register within]

theorem Column.getD_put_outside {column : Column} {register : Register}
    {offset lanes element : Nat} (inside : offset + lanes ≤ column.length)
    (outside : element < offset ∨ offset + lanes ≤ element) :
    (column.put offset (leadingWords register lanes)).getD element 0 =
      column.getD element 0 := by
  have length := length_leadingWords register lanes
  rw [getD_put (by omega), if_neg (by omega)]

section Chunks

variable {function : Function} {machine : Machine} {offset lanes : Nat}
variable {columns : List Column}

/-- What a chunk writes back for one of its elements. -/
theorem row_copyBackColumns_lane {last : Machine} {lane : Lane}
    (inside : ∀ column ∈ columns, offset + lanes ≤ column.length)
    (within : lane.val < lanes)
    (same : ∀ slot, slot < columns.length →
      (last.registers.register slot).get 0 = (machine.registers.register slot).get lane) :
    row (function.copyBackColumns machine offset lanes columns) (offset + lane.val) =
      function.copyBack last (row columns (offset + lane.val)) := by
  apply List.ext_getElem
  · simp [Function.copyBackColumns, Function.copyBack]
  · intro slot inLeft inRight
    have inRange : slot < columns.length := by
      simpa [Function.copyBackColumns] using inLeft
    simp only [row, Function.copyBackColumns, Function.copyBack, List.getElem_map,
      List.getElem_zipIdx, Nat.zero_add]
    split
    · rw [Column.getD_put_lane (inside _ (List.getElem_mem inRange)) within,
        same slot inRange]
    · rfl

theorem row_copyBackColumns_outside {element : Nat}
    (inside : ∀ column ∈ columns, offset + lanes ≤ column.length)
    (outside : element < offset ∨ offset + lanes ≤ element) :
    row (function.copyBackColumns machine offset lanes columns) element =
      row columns element := by
  apply List.ext_getElem
  · simp [Function.copyBackColumns]
  · intro slot inLeft inRight
    have inRange : slot < columns.length := by
      simpa using inRight
    simp only [row, Function.copyBackColumns, List.getElem_map, List.getElem_zipIdx,
      Nat.zero_add]
    split
    · rw [Column.getD_put_outside (inside _ (List.getElem_mem inRange)) outside]
    · rfl

theorem row_putReturns_lane {returned : List Register} {lane : Lane}
    (inside : ∀ column ∈ columns, offset + lanes ≤ column.length)
    (within : lane.val < lanes) (counted : columns.length = returned.length) :
    row (putReturns offset lanes returned columns) (offset + lane.val) =
      returned.map (·.get lane) := by
  apply List.ext_getElem
  · simp [putReturns, counted]
  · intro slot inLeft inRight
    have inRange : slot < columns.length := by
      rw [counted]
      simpa using inRight
    simp only [row, putReturns, List.getElem_map, List.getElem_zipWith]
    rw [Column.getD_put_lane (inside _ (List.getElem_mem inRange)) within]

theorem row_putReturns_outside {returned : List Register} {element : Nat}
    (inside : ∀ column ∈ columns, offset + lanes ≤ column.length)
    (outside : element < offset ∨ offset + lanes ≤ element)
    (counted : columns.length ≤ returned.length) :
    row (putReturns offset lanes returned columns) element = row columns element := by
  apply List.ext_getElem
  · simp [putReturns, counted]
  · intro slot inLeft inRight
    have inRange : slot < columns.length := by
      simpa using inRight
    simp only [row, putReturns, List.getElem_map, List.getElem_zipWith]
    rw [Column.getD_put_outside (inside _ (List.getElem_mem inRange)) outside]

/-- The registers of a chunk hold the rows of its elements. -/
theorem get_packWords_chunk (column : Column) (offset lanes : Nat) (lane : Lane) :
    (packWords ((column.drop offset).take lanes)).get lane =
      if lane.val < lanes then column.getD (offset + lane.val) 0 else 0 := by
  unfold packWords
  rw [Lanes.get_ofFn, List.getD_eq_getElem?_getD, List.getElem?_take]
  split
  · rw [List.getElem?_drop, List.getD_eq_getElem?_getD]
  · rfl

/-- Columns with the same words in a chunk give it the same registers. -/
theorem chunkRegisters_congr {others : List Column}
    (same : ∀ element, offset ≤ element → row others element = row columns element) :
    Linked.chunkRegisters others offset lanes =
      Linked.chunkRegisters columns offset lanes := by
  have lengths := congrArg List.length (same offset (Nat.le_refl offset))
  rw [length_row, length_row] at lengths
  unfold Linked.chunkRegisters
  apply List.ext_getElem
  · simpa using lengths
  · intro slot inLeft inRight
    rw [List.getElem_map, List.getElem_map]
    apply Lanes.ext_get
    intro lane
    rw [get_packWords_chunk, get_packWords_chunk]
    have rows := same (offset + lane.val) (Nat.le_add_right _ _)
    have words : (row others (offset + lane.val))[slot]? =
        (row columns (offset + lane.val))[slot]? := by
      rw [rows]
    rw [List.length_map] at inLeft inRight
    simp only [row, List.getElem?_map, List.getElem?_eq_getElem inLeft,
      List.getElem?_eq_getElem inRight, Option.map_some, Option.some.injEq] at words
    rw [words]

end Chunks

/-! ## Calls that end -/

namespace Linked

/-- A call for a single element ends in a result if its budget is large enough. -/
def Ends (linked : Linked σ) (invocation : Invocation) (arguments returns : List Word)
    (host : σ) (result : Result Word) : Prop :=
  result.ending ≠ .exhausted ∧
    ∃ budget, ((linked.run budget invocation arguments returns).run host).1 = result

/-- A call for columns ends in a result if its budget is large enough. -/
def StripedEnds (linked : Linked σ) (invocation : Invocation) (count : Nat)
    (arguments returns : List Column) (host : σ) (result : Result Column) : Prop :=
  result.ending ≠ .exhausted ∧
    ∃ budget,
      ((linked.runStriped budget invocation count arguments returns).run host).1 = result

/-- A call for the first elements of some columns completes. -/
def Completes (linked : Linked σ) (invocation : Invocation) (count : Nat)
    (arguments returns : List Column) (host : σ) : Prop :=
  ∃ result, linked.StripedEnds invocation count arguments returns host result ∧
    result.ending = .completed

/--
Columns of the declared shapes, and a buffer for the results of each element:
as many argument columns as parameters, as many return columns as results or
none at all, and a word for every element in every column.
-/
structure Matches (linked : Linked σ) (invocation : Invocation) (count : Nat)
    (arguments returns : List Column) (buffers : Nat → List Word) : Prop where
  argumentColumns : ∀ column ∈ arguments, count ≤ column.length
  returnColumns : ∀ column ∈ returns, count ≤ column.length
  shape : ∀ function, linked.program.functions[invocation.handle]? = some function →
    arguments.length = function.parameterCount ∧
      (returns = [] ∨ returns.length = function.returnCount) ∧
      ∀ element, (buffers element).length = function.returnCount

/--
A call for columns does what the calls for its elements do.  Each element has
a buffer for its results and a host of its own.
-/
structure LaneIndependent (linked : Linked σ) (invocation : Invocation) (count : Nat)
    (arguments returns : List Column) (host : σ) (buffers : Nat → List Word)
    (hosts : Nat → σ) : Prop where
  /-- The columns complete if and only if every element does. -/
  completes : linked.Completes invocation count arguments returns host ↔
    ∀ element, element < count → ∃ own,
      linked.Ends invocation (row arguments element) (buffers element) (hosts element)
        own ∧
      own.ending = .completed
  /-- The words of each element come out the same. -/
  agrees : ∀ result,
    linked.StripedEnds invocation count arguments returns host result →
      result.ending = .completed →
        ∀ element, element < count → ∃ own,
          linked.Ends invocation (row arguments element) (buffers element)
            (hosts element) own ∧
          own.ending = .completed ∧
          own.arguments = row result.arguments element ∧
          (returns = [] ∨ own.returns = row result.returns element)
  /-- If a chunk fails, then one of its elements fails alone, in the same way. -/
  fails : ∀ result failure,
    linked.StripedEnds invocation count arguments returns host result →
      result.ending = .failed failure →
        ∃ offset element, laneCount ∣ offset ∧ offset ≤ element ∧
          element < min (offset + laneCount) count ∧
          (∀ earlier, earlier < offset → ∃ own,
            linked.Ends invocation (row arguments earlier) (buffers earlier)
              (hosts earlier) own ∧
            own.ending = .completed) ∧
          (∃ chunk, linked.StripedEnds invocation (min (offset + laneCount) count)
              arguments returns host chunk ∧
            chunk.ending = .failed failure) ∧
          ∃ own refusal, linked.Ends invocation (row arguments element)
              (buffers element) (hosts element) own ∧
            own.ending = .failed refusal ∧
            refusal.report.kind = failure.report.kind

variable {linked : Linked σ} {invocation : Invocation} {count : Nat}
variable {arguments returns : List Column} {host : σ}
variable {buffers : Nat → List Word} {hosts : Nat → σ}

/-! ## Calls that are refused -/

/-- A call that is refused before its first step is refused for every element alike. -/
theorem laneIndependent_of_refused {failure : Failure} (positive : 0 < count)
    (striped : ∀ part, 0 < part → part ≤ count → ∀ budget,
      ((linked.runStriped budget invocation part arguments returns).run host).1.ending =
        .failed failure)
    (single : ∀ element budget,
      ((linked.run budget invocation (row arguments element) (buffers element)).run
        (hosts element)).1.ending = .failed failure) :
    linked.LaneIndependent invocation count arguments returns host buffers hosts := by
  have refused : ∀ part, 0 < part → part ≤ count → ∀ result,
      linked.StripedEnds invocation part arguments returns host result →
        result.ending = .failed failure := by
    rintro part here within result ⟨_, budget, rfl⟩
    exact striped part here within budget
  have alone : ∀ element own,
      linked.Ends invocation (row arguments element) (buffers element) (hosts element)
        own → own.ending = .failed failure := by
    rintro element own ⟨_, budget, rfl⟩
    exact single element budget
  constructor
  · constructor
    · rintro ⟨result, ends, completed⟩
      rw [refused count positive (Nat.le_refl count) result ends] at completed
      cases completed
    · intro all
      obtain ⟨own, ends, completed⟩ := all 0 positive
      rw [alone 0 own ends] at completed
      cases completed
  · intro result ends completed
    rw [refused count positive (Nat.le_refl count) result ends] at completed
    cases completed
  · intro result other ends failed
    rw [refused count positive (Nat.le_refl count) result ends] at failed
    cases failed
    have nonempty : 0 < min (0 + laneCount) count := by
      have lanes : 0 < laneCount := by decide
      omega
    have chunk := striped (min (0 + laneCount) count) nonempty (Nat.min_le_right _ _) 0
    have own := single 0 0
    refine ⟨0, 0, Nat.dvd_zero _, Nat.le_refl 0, nonempty, ?_, ⟨_, ⟨?_, 0, rfl⟩, chunk⟩,
      _, failure, ⟨?_, 0, rfl⟩, own, rfl⟩
    · intro earlier before
      exact absurd before (Nat.not_lt_zero earlier)
    · rw [chunk]
      exact fun impossible => by cases impossible
    · rw [own]
      exact fun impossible => by cases impossible

theorem checkCall_returns {program : Program} {function : Function}
    {slots uniforms : Nat} {inputs given : Option Nat}
    (wanted : ∀ number, given = some number → number = function.returnCount) :
    program.checkCall function slots given uniforms inputs =
      program.checkCall function slots none uniforms inputs := by
  cases given with
  | none =>
      rfl
  | some number =>
      rw [wanted number rfl]
      unfold Program.checkCall
      simp only [ne_eq, not_true_eq_false, if_false]

/-- Columns are prepared exactly as their elements are. -/
theorem Matches.prepare
    (shaped : linked.Matches invocation count arguments returns buffers)
    (element : Nat) :
    linked.program.prepare invocation (row arguments element).length
        (some (buffers element).length) =
      linked.program.prepare invocation arguments.length
        (if returns.isEmpty then none else some returns.length) := by
  unfold Program.prepare
  cases known : linked.program.functions[invocation.handle]? with
  | none =>
      rfl
  | some function =>
      obtain ⟨_, given, buffered⟩ := shaped.shape function known
      dsimp only
      rw [length_row, buffered element, checkCall_returns fun _ same => by
        cases same
        rfl]
      rcases given with rfl | same
      · rfl
      · rw [@checkCall_returns _ _ _ _ _ (if returns.isEmpty then none else _)]
        intro number given
        split at given
        · cases given
        · cases given
          exact same

/-! ## One chunk -/

end Linked

/--
The machine of a chunk does what the machines of its elements do: it finishes
only if they all finish, with the same slots and the same results; it fails
only if one of them fails in the same way; and it runs on forever only if one
of them does.
-/
structure LaneAgreement (batch ownBatch : Batch σ) (slots lanes : Nat)
    (chunk : Machine) (own : Lane → Machine) : Prop where
  decided : chunk.Decided batch
  finishes : ∀ final returned, chunk.Settles batch (.ok (final, returned)) →
    ∀ lane, lane.val < lanes → ∃ last answers,
      (own lane).Settles ownBatch (.ok (last, answers)) ∧
      (∀ slot, slot < slots →
        (last.registers.register slot).get 0 = (final.registers.register slot).get lane) ∧
      answers.map (·.get 0) = returned.map (·.get lane)
  fails : ∀ failure, chunk.Settles batch (.error failure) →
    ∃ lane, lane.val < lanes ∧ ∃ refusal,
      (own lane).Settles ownBatch (.error refusal) ∧
      refusal.report.kind = failure.report.kind
  settles : (∀ lane, lane.val < lanes → ∃ budget host result later,
      (own lane).runAt ownBatch budget host = (some result, later)) →
    ∃ result, chunk.Settles batch result

/-- The machine of one element. -/
def Machine.single (function : Function) (globals : RegisterFile globalCapacity)
    (words : List Word) : Machine :=
  booted function 1 globals (words.map fun word => packWords [word])

/-- The machine of a chunk of elements. -/
def Machine.chunked (function : Function) (globals : RegisterFile globalCapacity)
    (columns : List Column) (offset lanes : Nat) : Machine :=
  booted function lanes globals (Linked.chunkRegisters columns offset lanes)

namespace Linked

/-- The machines of a chunk and of its elements agree. -/
def AgreesAt (linked : Linked σ) (invocation : Invocation) (function : Function)
    (globals : RegisterFile globalCapacity) (columns : List Column)
    (offset lanes : Nat) : Prop :=
  LaneAgreement (linked.batch invocation offset) (linked.batch invocation 0)
    function.parameterCount lanes
    (Machine.chunked function globals columns offset lanes)
    (fun lane => Machine.single function globals (row columns (offset + lane.val)))

variable {linked : Linked σ} {invocation : Invocation} {count : Nat}
variable {arguments returns : List Column} {host : σ}
variable {function : Function} {globals : RegisterFile globalCapacity}

/-- A call for a single element, once its machine is known. -/
theorem run_single {budget : Nat} {words buffer : List Word}
    (prepared : linked.program.prepare invocation words.length (some buffer.length) =
      .ok function)
    (seeded : linked.program.seed (invocation.inputs.getD []) = .ok globals) :
    (linked.run budget invocation words buffer).run host =
      let reached := (Machine.single function globals words).runAt
        (linked.batch invocation 0) budget host
      (conclude function words buffer reached.1, reached.2) := by
  have accepts := (Program.prepare_eq_ok.mp prepared).2
  rw [run_at, prepared]
  dsimp only
  rw [runBatch_at accepts.frame (by rw [List.length_map]; exact accepts.arguments),
    seeded]
  rfl

/-- A chunk of columns, once its machine is known. -/
theorem runChunk_chunked {budget offset lanes : Nat} {after given : List Column}
    (ready : function.Ready linked.program)
    (seeded : linked.program.seed (invocation.inputs.getD []) = .ok globals)
    (same : ∀ element, offset ≤ element → row after element = row arguments element)
    (spacious : Spacious function (offset + lanes) after given)
    (narrow : lanes ≤ laneCount) :
    (linked.runChunk budget invocation function offset lanes after given).run host =
      let reached := (Machine.chunked function globals arguments offset lanes).runAt
        (linked.batch invocation offset) budget host
      (concludeChunk function offset lanes after given reached.1, reached.2) := by
  have registers := @chunkRegisters_congr offset lanes arguments after same
  rw [runChunk_at ready spacious narrow,
    runBatch_at ready.frame (spacious.counted offset lanes), seeded, registers]
  rfl

/-! ## Chunk after chunk -/

/-- A call first runs the chunks before a middle, and goes on behind it if they complete. -/
theorem runFrom_append {budget middle offset chunks : Nat}
    (aligned : middle = offset + chunks * laneCount) (short : middle ≤ count) :
    (linked.runFrom budget invocation function count offset arguments returns).run host =
      let reached := (linked.runFrom budget invocation function middle offset arguments
        returns).run host
      match reached.1.ending with
      | .completed =>
          (linked.runFrom budget invocation function count middle reached.1.arguments
            reached.1.returns).run reached.2
      | _ => reached := by
  induction chunks generalizing offset arguments returns host with
  | zero =>
      have same : middle = offset := by omega
      subst same
      rw [@runFrom_of_le σ linked budget invocation function host middle middle arguments
        returns (Nat.le_refl _)]
  | succ chunks induction =>
      have wide : laneCount ≤ (chunks + 1) * laneCount := by
        rw [Nat.succ_mul]
        exact Nat.le_add_left _ _
      have positive : 0 < laneCount := by decide
      have lanes : min (middle - offset) laneCount = laneCount := by omega
      have sameLanes : min (count - offset) laneCount = laneCount := by omega
      rw [runFrom_at arguments returns, if_pos (by omega), sameLanes]
      rw [@runFrom_at σ linked budget invocation function host middle offset arguments
        returns, if_pos (by omega), lanes]
      dsimp only
      generalize (linked.runChunk budget invocation function offset laneCount arguments
        returns).run host = reached
      rcases reached with ⟨⟨ending, next, others⟩, state⟩
      cases ending with
      | completed =>
          apply induction
          rw [aligned, Nat.succ_mul]
          omega
      | failed failure =>
          rfl
      | exhausted =>
          rfl

/-- A call that completes for the first chunks goes on behind them. -/
theorem runFrom_split {budget middle offset chunks : Nat} {after given : List Column}
    {later : σ} (aligned : middle = offset + chunks * laneCount) (short : middle ≤ count)
    (passed : (linked.runFrom budget invocation function middle offset arguments
      returns).run host = (⟨.completed, after, given⟩, later)) :
    (linked.runFrom budget invocation function count offset arguments returns).run host =
      (linked.runFrom budget invocation function count middle after given).run later := by
  rw [runFrom_append aligned short, passed]

/-- A prepared call for some of the elements starts with its first chunk. -/
theorem runStriped_of_prepared {budget part : Nat}
    (prepared : linked.program.prepare invocation arguments.length
      (if returns.isEmpty then none else some returns.length) = .ok function)
    (spacious : Spacious function count arguments returns) (within : part ≤ count) :
    (linked.runStriped budget invocation part arguments returns).run host =
      (linked.runFrom budget invocation function part 0 arguments returns).run host := by
  have enough : ∀ {role : ColumnRole} {columns : List Column},
      (∀ column ∈ columns, count ≤ column.length) →
        checkColumns role columns part = .ok () := by
    intro role columns long
    exact checkColumns_eq_ok.mpr fun column member =>
      Nat.le_trans within (long column member)
  rw [runStriped_at, prepared]
  dsimp only
  rw [enough spacious.argumentColumns]
  dsimp only
  rw [enough spacious.returnColumns]

/-- A call for columns that is accepted and whose globals can be seeded. -/
structure Accepted (linked : Linked σ) (invocation : Invocation) (function : Function)
    (globals : RegisterFile globalCapacity) (count : Nat)
    (arguments returns : List Column) : Prop where
  prepared : linked.program.prepare invocation arguments.length
    (if returns.isEmpty then none else some returns.length) = .ok function
  seeded : linked.program.seed (invocation.inputs.getD []) = .ok globals
  spacious : Spacious function count arguments returns
  returned : returns = [] ∨ returns.length = function.returnCount

namespace Accepted

variable (accepted : linked.Accepted invocation function globals count arguments returns)
include accepted

theorem frame : function.stackNeed ≤ stackCapacity :=
  (Program.prepare_eq_ok.mp accepted.prepared).2.frame

theorem known : function ∈ linked.program.functions :=
  List.mem_of_getElem? (Program.prepare_eq_ok.mp accepted.prepared).1

theorem runStriped_eq {budget part : Nat} (within : part ≤ count) :
    (linked.runStriped budget invocation part arguments returns).run host =
      (linked.runFrom budget invocation function part 0 arguments returns).run host :=
  runStriped_of_prepared accepted.prepared accepted.spacious within

end Accepted

/-- What has been done when the chunks before an offset have completed. -/
structure Progress (linked : Linked σ) (invocation : Invocation) (function : Function)
    (globals : RegisterFile globalCapacity) (count : Nat)
    (arguments returns : List Column) (host : σ) (offset : Nat)
    (after given : List Column) : Prop where
  aligned : laneCount ∣ offset
  /-- A call for the elements before the offset completes. -/
  passed : offset ≤ count → ∃ budget, ∀ larger, budget ≤ larger →
    (linked.runFrom larger invocation function offset 0 arguments returns).run host =
      (⟨.completed, after, given⟩, host)
  spacious : Spacious function count after given
  returned : given.length = returns.length
  /-- Elements from the offset on are as they were. -/
  later : ∀ element, offset ≤ element → row after element = row arguments element
  /-- Elements before the offset are as they come out of their own calls. -/
  done : ∀ element, element < offset → element < count → ∃ final answers,
    (Machine.single function globals (row arguments element)).Settles
        (linked.batch invocation 0) (.ok (final, answers)) ∧
      row after element = function.copyBack final (row arguments element) ∧
      (returns = [] ∨ row given element = answers.map (·.get 0))

namespace Progress

variable {offset : Nat} {after given : List Column}

theorem start
    (accepted : linked.Accepted invocation function globals count arguments returns) :
    linked.Progress invocation function globals count arguments returns host 0 arguments
      returns where
  aligned := Nat.dvd_zero _
  passed := by
    intro _
    exact ⟨0, fun larger _ => runFrom_of_le (Nat.le_refl 0)⟩
  spacious := accepted.spacious
  returned := rfl
  later := fun _ _ => rfl
  done := fun element before => absurd before (Nat.not_lt_zero element)

variable
  (progress : linked.Progress invocation function globals count arguments returns host
    offset after given)

include progress

theorem completes
    (accepted : linked.Accepted invocation function globals count arguments returns)
    (within : offset ≤ count) :
    linked.Completes invocation offset arguments returns host := by
  obtain ⟨budget, passed⟩ := progress.passed within
  refine ⟨⟨.completed, after, given⟩, ⟨by simp, budget, ?_⟩, rfl⟩
  rw [accepted.runStriped_eq within, passed budget (Nat.le_refl budget)]

/-- The chunk at the offset, once its machine is known. -/
theorem runChunk_eq {budget : Nat}
    (accepted : linked.Accepted invocation function globals count arguments returns)
    (within : offset < count) :
    (linked.runChunk budget invocation function offset (min (count - offset) laneCount)
        after given).run host =
      let reached := (Machine.chunked function globals arguments offset
        (min (count - offset) laneCount)).runAt (linked.batch invocation offset) budget host
      (concludeChunk function offset (min (count - offset) laneCount) after given
        reached.1, reached.2) :=
  runChunk_chunked (.of_prepared accepted.prepared) accepted.seeded progress.later
    (progress.spacious.chunk within) (Nat.min_le_right _ _)

/-- The chunk at the offset, once its machine settles. -/
theorem runChunk_settled {result : Except Failure (Machine × List Register)}
    (accepted : linked.Accepted invocation function globals count arguments returns)
    (within : offset < count)
    (settles : (Machine.chunked function globals arguments offset
      (min (count - offset) laneCount)).Settles (linked.batch invocation offset) result) :
    ∃ enough, ∀ larger, enough ≤ larger →
      (linked.runChunk larger invocation function offset (min (count - offset) laneCount)
        after given).run host =
        (concludeChunk function offset (min (count - offset) laneCount) after given
          (some result), host) := by
  obtain ⟨enough, settled⟩ := settles
  refine ⟨enough, fun larger more => ?_⟩
  rw [progress.runChunk_eq accepted within]
  dsimp only
  rw [Machine.runAt_mono (settled host) more]

/-- A call for all elements up to some later one starts with the chunks passed. -/
theorem split {budget part : Nat} (within : offset ≤ part)
    (passed : (linked.runFrom budget invocation function offset 0 arguments
      returns).run host = (⟨.completed, after, given⟩, host)) :
    (linked.runFrom budget invocation function part 0 arguments returns).run host =
      (linked.runFrom budget invocation function part offset after given).run host := by
  obtain ⟨chunks, aligned⟩ := progress.aligned
  refine @runFrom_split σ linked invocation part arguments returns host function budget
    offset 0 chunks after given host ?_ within passed
  rw [aligned, Nat.zero_add, Nat.mul_comm]

/-- A chunk that finishes leads to the next one. -/
theorem advance {final : Machine} {returned : List Register}
    (accepted : linked.Accepted invocation function globals count arguments returns)
    (within : offset < count)
    (agrees : linked.AgreesAt invocation function globals arguments offset
      (min (count - offset) laneCount))
    (settles : (Machine.chunked function globals arguments offset
      (min (count - offset) laneCount)).Settles (linked.batch invocation offset)
        (.ok (final, returned))) :
    linked.Progress invocation function globals count arguments returns host
      (offset + laneCount)
      (function.copyBackColumns final offset (min (count - offset) laneCount) after)
      (putReturns offset (min (count - offset) laneCount) returned given) := by
  have positive : 0 < laneCount := by decide
  have insideArguments := (progress.spacious.chunk within).argumentColumns
  have insideReturns := (progress.spacious.chunk within).returnColumns
  have counted : returned.length = function.returnCount := by
    obtain ⟨_, settled⟩ := settles
    have yields := Machine.runAt_yields
      (Machine.serves_booted accepted.known accepted.frame globals) (settled host)
    exact yields.counted
  have fewer : given.length ≤ returned.length := by
    rw [counted]
    rcases progress.spacious.returnCount with rfl | sized
    · exact Nat.zero_le _
    · exact Nat.le_of_eq sized
  have argumentLengths :=
    @copyBackColumns_lengths function final offset _ after insideArguments
  have returnLengths := @putReturns_lengths offset _ returned given insideReturns fewer
  constructor
  · exact Nat.dvd_add progress.aligned (Nat.dvd_refl _)
  · intro short
    obtain ⟨enough, chunk⟩ := progress.runChunk_settled accepted within settles
    obtain ⟨budget, passed⟩ := progress.passed (by omega)
    refine ⟨max budget enough, fun larger more => ?_⟩
    have full : min (offset + laneCount - offset) laneCount =
        min (count - offset) laneCount := by
      omega
    rw [progress.split (Nat.le_add_right _ _) (passed larger (by omega)), runFrom_at,
      if_pos (by omega), full, chunk larger (by omega)]
    exact runFrom_of_le (by omega)
  · exact progress.spacious.of_lengths argumentLengths returnLengths
  · have same := congrArg List.length returnLengths
    rw [List.length_map, List.length_map] at same
    rw [same, progress.returned]
  · intro element beyond
    rw [row_copyBackColumns_outside insideArguments (by omega)]
    exact progress.later element (by omega)
  · intro element before inRange
    by_cases earlier : element < offset
    · obtain ⟨last, answers, own, arguments, results⟩ :=
        progress.done element earlier inRange
      refine ⟨last, answers, own, ?_, ?_⟩
      · rw [row_copyBackColumns_outside insideArguments (Or.inl earlier)]
        exact arguments
      · rw [row_putReturns_outside insideReturns (Or.inl earlier) (by omega)]
        exact results
    · obtain ⟨step, rfl⟩ := Nat.exists_eq_add_of_le (Nat.le_of_not_lt earlier)
      have small : step < laneCount := by omega
      have inChunk : step < min (count - offset) laneCount := by omega
      obtain ⟨last, answers, own, slots, results⟩ :=
        agrees.finishes final returned settles ⟨step, small⟩ inChunk
      refine ⟨last, answers, own, ?_, ?_⟩
      · have rows := @row_copyBackColumns_lane function final offset _ after last
          ⟨step, small⟩ insideArguments inChunk fun slot inSlots => slots slot (by
            rw [progress.spacious.argumentCount] at inSlots
            exact inSlots)
        rw [progress.later (offset + step) (Nat.le_add_right _ _)] at rows
        exact rows
      · rcases accepted.returned with none | all
        · exact Or.inl none
        · refine Or.inr ?_
          rw [results]
          have rows := @row_putReturns_lane offset _ given returned ⟨step, small⟩
            insideReturns inChunk (by rw [progress.returned, all, counted])
          exact rows

end Progress

/-- The chunks that are run agree with their elements. -/
def ChunksAgree (linked : Linked σ) (invocation : Invocation) (function : Function)
    (globals : RegisterFile globalCapacity) (count : Nat)
    (arguments returns : List Column) (host : σ) : Prop :=
  ∀ offset, laneCount ∣ offset → offset < count →
    linked.Completes invocation offset arguments returns host →
      linked.AgreesAt invocation function globals arguments offset
        (min (count - offset) laneCount)

/-- A call has either passed all its chunks or stopped in a chunk that fails. -/
def Stopped (linked : Linked σ) (invocation : Invocation) (function : Function)
    (globals : RegisterFile globalCapacity) (count : Nat)
    (arguments returns : List Column) (host : σ) (result : Result Column) : Prop :=
  ∃ stop written others,
    linked.Progress invocation function globals count arguments returns host stop
      written others ∧
    ((count ≤ stop ∧ result = ⟨.completed, written, others⟩) ∨
      (stop < count ∧ ∃ failure,
        (Machine.chunked function globals arguments stop
          (min (count - stop) laneCount)).Settles (linked.batch invocation stop)
            (.error failure) ∧
        result = ⟨.failed failure, written, others⟩))

theorem runFrom_ended {budget offset : Nat} {after given : List Column}
    {result : Result Column} {later : σ}
    (accepted : linked.Accepted invocation function globals count arguments returns)
    (agree : linked.ChunksAgree invocation function globals count arguments returns host)
    (progress : linked.Progress invocation function globals count arguments returns host
      offset after given)
    (ended : (linked.runFrom budget invocation function count offset after given).run
      host = (result, later))
    (bounded : result.ending ≠ .exhausted) :
    linked.Stopped invocation function globals count arguments returns host result := by
  have positive : 0 < laneCount := by decide
  generalize remaining : count - offset = distance
  induction distance using Nat.strongRecOn generalizing offset after given with
  | ind distance induction =>
      rw [runFrom_at] at ended
      by_cases within : offset < count
      · have agrees := agree offset progress.aligned within
          (progress.completes accepted (Nat.le_of_lt within))
        rw [if_pos within, progress.runChunk_eq accepted within] at ended
        dsimp only at ended
        cases reached : (Machine.chunked function globals arguments offset
            (min (count - offset) laneCount)).runAt (linked.batch invocation offset)
            budget host with
        | mk outcome state =>
            rw [reached] at ended
            rcases outcome with _ | failure | ⟨final, returned⟩
            · cases ended
              exact absurd rfl bounded
            · have settles := agrees.decided budget host _ _ reached
              cases ended
              exact ⟨offset, after, given, progress,
                Or.inr ⟨within, failure, settles, rfl⟩⟩
            · have settles := agrees.decided budget host _ _ reached
              have same := (settles.of_ended reached).2
              subst same
              exact induction (count - (offset + laneCount)) (by omega)
                (progress.advance accepted within agrees settles)
                (runFrom_lanes.symm.trans ended) rfl
      · rw [if_neg within] at ended
        cases ended
        exact ⟨offset, after, given, progress, Or.inl ⟨Nat.le_of_not_lt within, rfl⟩⟩

/-- A call completes if all its elements finish. -/
theorem runFrom_completes {offset : Nat} {after given : List Column}
    (accepted : linked.Accepted invocation function globals count arguments returns)
    (agree : linked.ChunksAgree invocation function globals count arguments returns host)
    (progress : linked.Progress invocation function globals count arguments returns host
      offset after given)
    (own : ∀ element, element < count → ∃ budget state final answers later,
      (Machine.single function globals (row arguments element)).runAt
        (linked.batch invocation 0) budget state = (some (.ok (final, answers)), later)) :
    ∃ budget written others, ∀ larger, budget ≤ larger →
      (linked.runFrom larger invocation function count offset after given).run host =
        (⟨.completed, written, others⟩, host) := by
  have positive : 0 < laneCount := by decide
  generalize remaining : count - offset = distance
  induction distance using Nat.strongRecOn generalizing offset after given with
  | ind distance induction =>
      by_cases within : offset < count
      · have agrees := agree offset progress.aligned within
          (progress.completes accepted (Nat.le_of_lt within))
        have finished : ∃ final returned, (Machine.chunked function globals arguments
            offset (min (count - offset) laneCount)).Settles
              (linked.batch invocation offset) (.ok (final, returned)) := by
          obtain ⟨result, settles⟩ := agrees.settles fun lane small => by
            obtain ⟨budget, state, final, answers, later, ended⟩ :=
              own (offset + lane.val) (by omega)
            exact ⟨budget, state, _, later, ended⟩
          rcases result with failure | ⟨final, returned⟩
          · obtain ⟨lane, small, refusal, refused, _⟩ := agrees.fails failure settles
            obtain ⟨budget, state, final, answers, later, ended⟩ :=
              own (offset + lane.val) (by omega)
            cases (refused.of_ended ended).1
          · exact ⟨final, returned, settles⟩
        obtain ⟨final, returned, settles⟩ := finished
        obtain ⟨budget, written, others, rest⟩ :=
          induction (count - (offset + laneCount)) (by omega)
            (progress.advance accepted within agrees settles) rfl
        obtain ⟨enough, chunk⟩ := progress.runChunk_settled accepted within settles
        refine ⟨max budget enough, written, others, fun larger more => ?_⟩
        rw [runFrom_of_completed within (chunk larger (by omega))]
        exact rest larger (by omega)
      · exact ⟨0, after, given, fun larger _ => runFrom_of_le (Nat.le_of_not_lt within)⟩

/-! ## From chunks to columns -/

variable {buffers : Nat → List Word} {hosts : Nat → σ}

/-- A call for a single element ends as its machine settles. -/
theorem ends_of_settles {words buffer : List Word}
    {result : Except Failure (Machine × List Register)}
    (prepared : linked.program.prepare invocation words.length (some buffer.length) =
      .ok function)
    (seeded : linked.program.seed (invocation.inputs.getD []) = .ok globals)
    (settles : (Machine.single function globals words).Settles
      (linked.batch invocation 0) result) :
    linked.Ends invocation words buffer host
      (conclude function words buffer (some result)) := by
  obtain ⟨budget, settled⟩ := settles
  constructor
  · rcases result with failure | ⟨final, answers⟩ <;> simp [conclude]
  · refine ⟨budget, ?_⟩
    rw [run_single prepared seeded, settled host]

theorem runAt_of_completed {words buffer : List Word} {own : Result Word}
    (prepared : linked.program.prepare invocation words.length (some buffer.length) =
      .ok function)
    (seeded : linked.program.seed (invocation.inputs.getD []) = .ok globals)
    (ends : linked.Ends invocation words buffer host own)
    (completed : own.ending = .completed) :
    ∃ budget final answers later,
      (Machine.single function globals words).runAt (linked.batch invocation 0) budget
        host = (some (.ok (final, answers)), later) := by
  obtain ⟨_, budget, rfl⟩ := ends
  rw [run_single prepared seeded] at completed
  dsimp only at completed
  cases reached : (Machine.single function globals words).runAt
      (linked.batch invocation 0) budget host with
  | mk outcome later =>
      rw [reached] at completed
      rcases outcome with _ | failure | ⟨final, answers⟩
      · cases completed
      · cases completed
      · exact ⟨budget, final, answers, later, reached⟩

namespace Accepted

variable (accepted : linked.Accepted invocation function globals count arguments returns)
variable (prepared : ∀ element, linked.program.prepare invocation
  (row arguments element).length (some (buffers element).length) = .ok function)
variable (agree : linked.ChunksAgree invocation function globals count arguments returns
  host)

include accepted agree in
theorem stopped {result : Result Column}
    (ends : linked.StripedEnds invocation count arguments returns host result) :
    linked.Stopped invocation function globals count arguments returns host result := by
  obtain ⟨bounded, budget, ended⟩ := ends
  rw [accepted.runStriped_eq (Nat.le_refl count)] at ended
  exact runFrom_ended accepted agree (Progress.start accepted) (Prod.ext ended rfl) bounded

include accepted prepared agree in
/-- The elements of columns that complete come out as from their own calls. -/
theorem agrees {result : Result Column}
    (ends : linked.StripedEnds invocation count arguments returns host result)
    (completed : result.ending = .completed) {element : Nat} (inRange : element < count) :
    ∃ own,
      linked.Ends invocation (row arguments element) (buffers element) (hosts element)
        own ∧
      own.ending = .completed ∧
      own.arguments = row result.arguments element ∧
      (returns = [] ∨ own.returns = row result.returns element) := by
  obtain ⟨stop, written, others, progress, stopped⟩ := accepted.stopped agree ends
  rcases stopped with ⟨past, rfl⟩ | ⟨_, failure, _, rfl⟩
  · obtain ⟨final, answers, settles, arguments, results⟩ :=
      progress.done element (by omega) inRange
    refine ⟨_, ends_of_settles (prepared element) accepted.seeded settles, rfl,
      arguments.symm, ?_⟩
    exact results.imp_right Eq.symm
  · cases completed

include accepted in
/-- A chunk that fails makes the call for the elements up to its end fail. -/
theorem stripedEnds_of_settles {stop : Nat} {written others : List Column}
    {failure : Failure}
    (progress : linked.Progress invocation function globals count arguments returns host
      stop written others)
    (within : stop < count)
    (settles : (Machine.chunked function globals arguments stop
      (min (count - stop) laneCount)).Settles (linked.batch invocation stop)
        (.error failure)) :
    linked.StripedEnds invocation (min (stop + laneCount) count) arguments returns host
      ⟨.failed failure, written, others⟩ := by
  have positive : 0 < laneCount := by decide
  obtain ⟨enough, chunk⟩ := progress.runChunk_settled accepted within settles
  obtain ⟨budget, passed⟩ := progress.passed (Nat.le_of_lt within)
  refine ⟨by simp, max budget enough, ?_⟩
  have lanes : min (min (stop + laneCount) count - stop) laneCount =
      min (count - stop) laneCount := by
    omega
  rw [accepted.runStriped_eq (Nat.min_le_right _ _),
    progress.split (by omega) (passed _ (Nat.le_max_left _ _)), runFrom_at,
    if_pos (by omega), lanes, chunk _ (Nat.le_max_right _ _)]
  rfl

include accepted prepared agree in
theorem laneIndependent :
    linked.LaneIndependent invocation count arguments returns host buffers hosts := by
  constructor
  · constructor
    · rintro ⟨result, ends, completed⟩ element inRange
      obtain ⟨own, ownEnds, ownCompleted, _⟩ :=
        accepted.agrees prepared agree ends completed inRange
      exact ⟨own, ownEnds, ownCompleted⟩
    · intro all
      obtain ⟨budget, written, others, completed⟩ := runFrom_completes accepted agree
        (Progress.start accepted) fun element inRange => by
          obtain ⟨own, ends, completed⟩ := all element inRange
          obtain ⟨budget, final, answers, later, reached⟩ :=
            runAt_of_completed (prepared element) accepted.seeded ends completed
          exact ⟨budget, _, final, answers, later, reached⟩
      refine ⟨⟨.completed, written, others⟩, ⟨by simp, budget, ?_⟩, rfl⟩
      rw [accepted.runStriped_eq (Nat.le_refl count),
        completed budget (Nat.le_refl budget)]
  · intro result ends completed element inRange
    exact accepted.agrees prepared agree ends completed inRange
  · intro result failure ends failed
    obtain ⟨stop, written, others, progress, stopped⟩ := accepted.stopped agree ends
    rcases stopped with ⟨_, rfl⟩ | ⟨within, _, settles, rfl⟩
    · cases failed
    · cases failed
      have chunk := agree stop progress.aligned within
        (progress.completes accepted (Nat.le_of_lt within))
      obtain ⟨lane, small, refusal, own, kind⟩ := chunk.fails _ settles
      refine ⟨stop, stop + lane.val, progress.aligned, Nat.le_add_right _ _, by omega,
        ?_, ⟨_, accepted.stripedEnds_of_settles progress within settles, rfl⟩, _, refusal,
        ends_of_settles (prepared _) accepted.seeded own, rfl, kind⟩
      intro earlier before
      obtain ⟨final, answers, finished, _⟩ := progress.done earlier before (by omega)
      exact ⟨_, ends_of_settles (prepared earlier) accepted.seeded finished, rfl⟩

end Accepted

/-- A call whose chunks agree with their elements is lane independent. -/
theorem laneIndependent_of_agreement (positive : 0 < count)
    (shaped : linked.Matches invocation count arguments returns buffers)
    (agree : ∀ function globals,
      linked.Accepted invocation function globals count arguments returns →
        linked.ChunksAgree invocation function globals count arguments returns host) :
    linked.LaneIndependent invocation count arguments returns host buffers hosts := by
  have prepare := shaped.prepare
  cases prepared : linked.program.prepare invocation arguments.length
      (if returns.isEmpty then none else some returns.length) with
  | error failure =>
      refine @laneIndependent_of_refused σ linked invocation count arguments returns host
        buffers hosts failure positive ?_ ?_
      · intro part _ _ budget
        rw [runStriped_at, prepared]
      · intro element budget
        rw [run_at, prepare element, prepared]
  | ok function =>
      rcases Program.prepare_eq_ok.mp prepared with ⟨known, accepts⟩
      obtain ⟨argumentCount, returned, _⟩ := shaped.shape function known
      have spacious : Spacious function count arguments returns :=
        ⟨argumentCount, returned, shaped.argumentColumns, shaped.returnColumns⟩
      cases seeded : linked.program.seed (invocation.inputs.getD []) with
      | ok globals =>
          have accepted : linked.Accepted invocation function globals count arguments
              returns := ⟨prepared, seeded, spacious, returned⟩
          exact accepted.laneIndependent (fun element => (prepare element).trans prepared)
            (agree function globals accepted)
      | error failure =>
          refine @laneIndependent_of_refused σ linked invocation count arguments returns
            host buffers hosts failure positive ?_ ?_
          · intro part here within budget
            have chunk := (spacious.mono within).chunk here
            rw [runStriped_of_prepared prepared spacious within, runFrom_at, if_pos here,
              runChunk_at (.of_prepared prepared) chunk (Nat.min_le_right _ _),
              runBatch_at accepts.frame (spacious.counted _ _), seeded]
            rfl
          · intro element budget
            rw [run_at, prepare element, prepared]
            dsimp only
            rw [runBatch_at accepts.frame
              (by rw [List.length_map, length_row]; exact argumentCount), seeded]
            rfl

end Linked

end Lockstep
