import Lockstep.Proofs.UniformControl

/-!
# Columns chunk by chunk

What a call for columns leaves behind, however it ends.  A chunk writes to its
own elements only, and only to the columns of parameters that are given back;
a chunk that does not complete writes nothing.  So a call that fails in some
chunk leaves what the call for the elements before that chunk leaves, and
`Linked.Confined` says what no call changes.

A part of a column is seen through a view, which forgets the other elements.
`Linked.runFrom_view` compares a call with the call for a part of its columns:
they do the same as long as the numbers of the elements do not matter, and
they matter only to the host.  A call that asks nothing of the host may
therefore be made in two parts.
-/

namespace Lockstep

variable {σ : Type}

/-! ## Columns that keep words -/

/-- Columns that have kept their lengths and the words of some elements. -/
structure Keeps (kept : Nat → Prop) (before after : List Column) : Prop where
  lengths : after.map List.length = before.map List.length
  words : ∀ element, kept element → row after element = row before element

namespace Keeps

variable {kept fewer : Nat → Prop} {before between after : List Column}

theorem refl (kept : Nat → Prop) (columns : List Column) : Keeps kept columns columns :=
  ⟨rfl, fun _ _ => rfl⟩

theorem trans (first : Keeps kept before between) (second : Keeps kept between after) :
    Keeps kept before after :=
  ⟨second.lengths.trans first.lengths, fun element held =>
    (second.words element held).trans (first.words element held)⟩

theorem mono (keeps : Keeps kept before after)
    (included : ∀ element, fewer element → kept element) : Keeps fewer before after :=
  ⟨keeps.lengths, fun element held => keeps.words element (included element held)⟩

theorem length_eq (keeps : Keeps kept before after) : after.length = before.length := by
  have lengths := congrArg List.length keeps.lengths
  rw [List.length_map, List.length_map] at lengths
  exact lengths

/-- A kept word is the same word of the same column, or there is none. -/
theorem getElem?_eq (keeps : Keeps kept before after) {slot element : Nat}
    (inAfter : slot < after.length) (inBefore : slot < before.length)
    (held : kept element) : after[slot][element]? = before[slot][element]? := by
  have lengths : after[slot].length = before[slot].length := by
    have same := congrArg (·[slot]?) keeps.lengths
    simpa [inAfter, inBefore] using same
  have words : after[slot].getD element 0 = before[slot].getD element 0 := by
    have same := congrArg (·[slot]?) (keeps.words element held)
    simpa [row, inAfter, inBefore] using same
  by_cases inside : element < after[slot].length
  · have insideBefore : element < before[slot].length := lengths ▸ inside
    rw [List.getElem?_eq_getElem inside, List.getElem?_eq_getElem insideBefore]
    simpa [List.getD_eq_getElem?_getD, inside, insideBefore] using words
  · rw [List.getElem?_eq_none (Nat.le_of_not_lt inside),
      List.getElem?_eq_none (lengths ▸ Nat.le_of_not_lt inside)]

/-- Columns of which the same part is the same one by one have these parts in common. -/
theorem map_eq {part : Column → Column} (keeps : Keeps kept before after)
    (same : ∀ (slot : Nat) (inAfter : slot < after.length) (inBefore : slot < before.length)
      (position : Nat), (part after[slot])[position]? = (part before[slot])[position]?) :
    after.map part = before.map part := by
  apply List.ext_getElem
  · simpa using keeps.length_eq
  · intro slot inAfter inBefore
    rw [List.length_map] at inAfter inBefore
    rw [List.getElem_map, List.getElem_map]
    exact List.ext_getElem? (same slot inAfter inBefore)

/-- Columns that keep the elements from an offset on have the same ends. -/
theorem map_drop {offset : Nat} (keeps : Keeps (offset ≤ ·) before after) :
    after.map (List.drop offset) = before.map (List.drop offset) := by
  refine keeps.map_eq fun slot inAfter inBefore position => ?_
  rw [List.getElem?_drop, List.getElem?_drop]
  exact keeps.getElem?_eq inAfter inBefore (Nat.le_add_right _ _)

/-- Columns that keep the elements before an offset have the same beginnings. -/
theorem map_take {offset : Nat} (keeps : Keeps (· < offset) before after) :
    after.map (List.take offset) = before.map (List.take offset) := by
  refine keeps.map_eq fun slot inAfter inBefore position => ?_
  rw [List.getElem?_take, List.getElem?_take]
  split
  · rename_i early
    exact keeps.getElem?_eq inAfter inBefore early
  · rfl

end Keeps

namespace Linked

variable {linked : Linked σ} {budget : Nat} {invocation : Invocation}
variable {function : Function} {host : σ}

/-! ## What chunks leave alone -/

/--
A result that differs from the buffers at some elements only, and not in the
columns of parameters that are not given back.
-/
structure Confined (function : Function) (kept : Nat → Prop)
    (arguments returns : List Column) (result : Result Column) : Prop where
  inputs : ∀ slot, function.isOutSlot slot = false →
    result.arguments[slot]? = arguments[slot]?
  arguments : Keeps kept arguments result.arguments
  returns : Keeps kept returns result.returns

namespace Confined

variable {kept fewer : Nat → Prop} {arguments returns : List Column}

theorem unchanged (ending : Ending) :
    Confined function kept arguments returns ⟨ending, arguments, returns⟩ :=
  ⟨fun _ _ => rfl, .refl kept arguments, .refl kept returns⟩

theorem trans {ending : Ending} {after given : List Column} {result : Result Column}
    (first : Confined function kept arguments returns ⟨ending, after, given⟩)
    (second : Confined function kept after given result) :
    Confined function kept arguments returns result :=
  ⟨fun slot inward => (second.inputs slot inward).trans (first.inputs slot inward),
    first.arguments.trans second.arguments, first.returns.trans second.returns⟩

theorem mono {result : Result Column}
    (confined : Confined function kept arguments returns result)
    (included : ∀ element, fewer element → kept element) :
    Confined function fewer arguments returns result :=
  ⟨confined.inputs, confined.arguments.mono included, confined.returns.mono included⟩

end Confined

/--
The columns of a chunk that does not complete are left as they were: once its
batch has come to the outermost return, nothing fails any more.
-/
theorem runChunk_unchanged (ready : function.Ready linked.program) {count offset : Nat}
    {arguments returns : List Column}
    (spacious : Spacious function count arguments returns) (within : offset < count)
    {result : Result Column} {later : σ}
    (reached : (linked.runChunk budget invocation function offset
      (min (count - offset) laneCount) arguments returns).run host = (result, later))
    (incomplete : result.ending ≠ .completed) :
    result = ⟨result.ending, arguments, returns⟩ := by
  rw [runChunk_at ready (spacious.chunk within) (Nat.min_le_right _ _)] at reached
  dsimp only at reached
  generalize (linked.runBatch budget invocation function offset
    (min (count - offset) laneCount)
    (chunkRegisters arguments offset (min (count - offset) laneCount))).run host =
      batch at reached
  rcases batch with ⟨_ | failure | ⟨machine, returned⟩, state⟩
  · cases reached
    rfl
  · cases reached
    rfl
  · cases reached
    exact absurd rfl incomplete

theorem getElem?_copyBackColumns {machine : Machine} {offset lanes slot : Nat}
    {columns : List Column} (inward : function.isOutSlot slot = false) :
    (function.copyBackColumns machine offset lanes columns)[slot]? = columns[slot]? := by
  simp only [Function.copyBackColumns, List.getElem?_map, List.getElem?_zipIdx,
    Nat.zero_add, Option.map_map]
  cases columns[slot]? with
  | none =>
      rfl
  | some column =>
      simp [inward]

/-- A chunk changes its own elements only. -/
theorem runChunk_confined (ready : function.Ready linked.program) {count offset : Nat}
    {arguments returns : List Column}
    (spacious : Spacious function count arguments returns) (within : offset < count) :
    Confined function
      (fun element => element < offset ∨ offset + min (count - offset) laneCount ≤ element)
      arguments returns
      ((linked.runChunk budget invocation function offset
        (min (count - offset) laneCount) arguments returns).run host).1 := by
  have clean := @runChunk_clean σ linked budget invocation function host ready count
    offset arguments returns spacious within
  have chunk := spacious.chunk within
  have counted := spacious.counted offset (min (count - offset) laneCount)
  have yields := fun result later =>
    @runBatch_yields σ linked budget invocation function host offset
      (min (count - offset) laneCount) _ ready.known ready.frame counted result later
  rw [runChunk_at ready chunk (Nat.min_le_right _ _)] at clean ⊢
  dsimp only at clean ⊢
  generalize (linked.runBatch budget invocation function offset
    (min (count - offset) laneCount)
    (chunkRegisters arguments offset (min (count - offset) laneCount))).run host =
      reached at yields clean ⊢
  rcases reached with ⟨_ | failure | ⟨machine, returned⟩, later⟩
  · exact Confined.unchanged _
  · exact Confined.unchanged _
  · have delivers : Machine.Delivers _ _ _ machine returned := yields _ _ rfl
    refine ⟨fun slot inward => getElem?_copyBackColumns inward,
      ⟨clean.arguments, fun element outside => ?_⟩,
      ⟨clean.returns, fun element outside => ?_⟩⟩
    · exact row_copyBackColumns_outside chunk.argumentColumns outside
    · apply row_putReturns_outside chunk.returnColumns outside
      rw [delivers.counted]
      exact spacious.returns_le

/-! ## Chunk after chunk -/

/-- A call changes the elements from its offset to its count only. -/
theorem runFrom_confined (ready : function.Ready linked.program) {count : Nat}
    (offset : Nat) (arguments returns : List Column) (host : σ)
    (spacious : Spacious function count arguments returns) :
    Confined function (fun element => element < offset ∨ count ≤ element)
      arguments returns
      ((linked.runFrom budget invocation function count offset arguments
        returns).run host).1 := by
  revert spacious
  apply @runFrom_induction σ linked budget invocation function count
    (fun offset arguments returns _ reached =>
      Spacious function count arguments returns →
        Confined function (fun element => element < offset ∨ count ≤ element)
          arguments returns reached.1)
  · intro offset arguments returns host _ _
    exact Confined.unchanged _
  · intro offset arguments returns host result later within chunk incomplete spacious
    rw [runChunk_unchanged ready spacious within chunk incomplete]
    exact Confined.unchanged _
  · intro offset arguments returns host after given state reached within chunk rest spacious
    have first := @runChunk_confined σ linked budget invocation function host ready
      count offset arguments returns spacious within
    rw [chunk] at first
    have roomy := spacious.of_lengths first.arguments.lengths first.returns.lengths
    refine (first.mono ?_).trans ((rest roomy).mono ?_)
    · intro element outside
      omega
    · intro element outside
      omega

/-- A call that does not complete stops in a chunk before which it completes. -/
theorem runFrom_stops {count : Nat} (offset : Nat) (arguments returns : List Column)
    (host : σ)
    (incomplete : ((linked.runFrom budget invocation function count offset arguments
      returns).run host).1.ending ≠ .completed) :
    ∃ chunks after given state, offset + chunks * laneCount < count ∧
      (linked.runFrom budget invocation function (offset + chunks * laneCount) offset
        arguments returns).run host = (⟨.completed, after, given⟩, state) ∧
      (linked.runChunk budget invocation function (offset + chunks * laneCount)
        (min (count - (offset + chunks * laneCount)) laneCount) after given).run state =
        (linked.runFrom budget invocation function count offset arguments
          returns).run host := by
  revert incomplete
  apply @runFrom_induction σ linked budget invocation function count
    (fun offset arguments returns host reached => reached.1.ending ≠ .completed →
      ∃ chunks after given state, offset + chunks * laneCount < count ∧
        (linked.runFrom budget invocation function (offset + chunks * laneCount) offset
          arguments returns).run host = (⟨.completed, after, given⟩, state) ∧
        (linked.runChunk budget invocation function (offset + chunks * laneCount)
          (min (count - (offset + chunks * laneCount)) laneCount) after given).run state =
          reached)
  · intro offset arguments returns host _ incomplete
    exact absurd rfl incomplete
  · intro offset arguments returns host result later within chunk _ _
    refine ⟨0, arguments, returns, host, ?_, ?_, ?_⟩
    · omega
    · rw [Nat.zero_mul, Nat.add_zero]
      exact runFrom_of_le (Nat.le_refl _)
    · rw [Nat.zero_mul, Nat.add_zero]
      exact chunk
  · intro offset arguments returns host after given state reached within chunk rest stops
    obtain ⟨chunks, next, others, later, inside, passed, last⟩ := rest stops
    have middle : offset + (chunks + 1) * laneCount =
        offset + laneCount + chunks * laneCount := by
      rw [Nat.succ_mul]
      omega
    refine ⟨chunks + 1, next, others, later, ?_, ?_, ?_⟩
    · rw [middle]
      exact inside
    · have positive : 0 < laneCount := by decide
      have lanes : min (offset + laneCount + chunks * laneCount - offset) laneCount =
          min (count - offset) laneCount := by
        omega
      rw [← lanes] at chunk
      rw [middle, runFrom_of_completed (by omega) chunk]
      exact passed
    · rw [middle]
      exact last

/-! ## Acceptance -/

/-- The function of a call for columns, if the call is not refused. -/
def accept (linked : Linked σ) (invocation : Invocation) (count : Nat)
    (arguments returns : List Column) : Except Failure Function := do
  let function ← linked.program.prepare invocation arguments.length
    (if returns.isEmpty then none else some returns.length)
  checkColumns .argument arguments count
  checkColumns .result returns count
  return function

/-- A call for columns is refused or starts with its first chunk. -/
theorem runStriped_accept (linked : Linked σ) (budget : Nat) (invocation : Invocation)
    (count : Nat) (arguments returns : List Column) (host : σ) :
    (linked.runStriped budget invocation count arguments returns).run host =
      match linked.accept invocation count arguments returns with
      | .error failure => (⟨.failed failure, arguments, returns⟩, host)
      | .ok function =>
          (linked.runFrom budget invocation function count 0 arguments returns).run
            host := by
  rw [runStriped_at]
  unfold accept
  cases linked.program.prepare invocation arguments.length
      (if returns.isEmpty then none else some returns.length) with
  | error failure =>
      rfl
  | ok function =>
      rw [ok_bind]
      dsimp only
      cases checkColumns .argument arguments count with
      | error failure =>
          rfl
      | ok done =>
          rw [ok_bind]
          dsimp only
          cases checkColumns .result returns count <;> rfl

theorem accept_eq_ok {count : Nat} {arguments returns : List Column} :
    linked.accept invocation count arguments returns = .ok function ↔
      linked.program.prepare invocation arguments.length
          (if returns.isEmpty then none else some returns.length) = .ok function ∧
        (∀ column ∈ arguments, count ≤ column.length) ∧
          ∀ column ∈ returns, count ≤ column.length := by
  unfold accept
  constructor
  · intro accepted
    obtain ⟨found, prepared, accepted⟩ := bind_eq_ok.mp accepted
    obtain ⟨long, accepted⟩ := check_bind_eq_ok.mp accepted
    obtain ⟨wide, ⟨⟩⟩ := check_bind_eq_ok.mp accepted
    exact ⟨prepared, checkColumns_eq_ok.mp long, checkColumns_eq_ok.mp wide⟩
  · rintro ⟨prepared, long, wide⟩
    refine bind_eq_ok.mpr ⟨function, prepared, ?_⟩
    refine check_bind_eq_ok.mpr ⟨checkColumns_eq_ok.mpr long, ?_⟩
    exact check_bind_eq_ok.mpr ⟨checkColumns_eq_ok.mpr wide, rfl⟩

section AcceptedCalls

variable {count : Nat} {arguments returns : List Column}
variable (accepted : linked.accept invocation count arguments returns = .ok function)
include accepted

theorem ready_of_accept : function.Ready linked.program :=
  .of_prepared (accept_eq_ok.mp accepted).1

theorem spacious_of_accept : Spacious function count arguments returns := by
  obtain ⟨prepared, long, wide⟩ := accept_eq_ok.mp accepted
  exact .of_prepared prepared long wide

theorem accept_of_le {part : Nat} (within : part ≤ count) :
    linked.accept invocation part arguments returns = .ok function := by
  obtain ⟨prepared, long, wide⟩ := accept_eq_ok.mp accepted
  exact accept_eq_ok.mpr ⟨prepared, fun column member => within.trans (long column member),
    fun column member => within.trans (wide column member)⟩

/-- An accepted call for some of the elements starts with its first chunk. -/
theorem runStriped_of_accept {part : Nat} (within : part ≤ count) (budget : Nat)
    (host : σ) :
    (linked.runStriped budget invocation part arguments returns).run host =
      (linked.runFrom budget invocation function part 0 arguments returns).run host := by
  rw [runStriped_accept, accept_of_le accepted within]

end AcceptedCalls

end Linked

/-! ## Views -/

/--
A view of columns that shows the elements from a shift on, up to a size, and
through which words can be put.
-/
structure Column.Views (shift size : Nat) (view : Column → Column) : Prop where
  chunk : ∀ column offset lanes, offset + lanes ≤ size →
    ((view column).drop offset).take lanes = (column.drop (shift + offset)).take lanes
  put : ∀ column offset words, shift + size ≤ column.length →
    offset + words.length ≤ size →
      view (Column.put column (shift + offset) words) =
        Column.put (view column) offset words
  long : ∀ column, shift + size ≤ column.length → size ≤ (view column).length

/-- The first elements of a column. -/
theorem Column.views_take (size : Nat) : Column.Views 0 size (List.take size) where
  chunk := by
    intro column offset lanes inside
    rw [List.drop_take, List.take_take, Nat.zero_add, Nat.min_eq_left (by omega)]
  put := by
    intro column offset words long inside
    rw [Nat.zero_add] at long ⊢
    unfold Column.put
    have front : (column.take offset ++ words).length = offset + words.length := by
      rw [List.length_append, List.length_take]
      omega
    rw [List.take_append, front, List.take_of_length_le (by omega), List.take_take,
      Nat.min_eq_left (by omega), List.drop_take]
  long := by
    intro column long
    rw [List.length_take]
    omega

/-- The elements of a column behind the first. -/
theorem Column.views_drop (shift size : Nat) :
    Column.Views shift size (List.drop shift) where
  chunk := by
    intro column offset lanes _
    rw [List.drop_drop]
  put := by
    intro column offset words long inside
    unfold Column.put
    rw [List.append_assoc, List.drop_append_of_le_length (by rw [List.length_take]; omega),
      List.drop_take, Nat.add_sub_cancel_left, List.drop_drop, List.append_assoc,
      Nat.add_assoc]
  long := by
    intro column long
    rw [List.length_drop]
    omega

/-- A result seen through a view. -/
def Result.view (view : Column → Column) (result : Result Column) : Result Column :=
  ⟨result.ending, result.arguments.map view, result.returns.map view⟩

section Views

variable {shift size offset lanes : Nat} {view : Column → Column}
variable {columns : List Column}

theorem Column.Views.chunkRegisters_eq (views : Column.Views shift size view)
    (inside : offset + lanes ≤ size) :
    Linked.chunkRegisters (columns.map view) offset lanes =
      Linked.chunkRegisters columns (shift + offset) lanes := by
  unfold Linked.chunkRegisters
  rw [List.map_map]
  apply List.map_congr_left
  intro column _
  exact congrArg packWords (views.chunk column offset lanes inside)

theorem Column.Views.put_leading (views : Column.Views shift size view) {column : Column}
    (long : shift + size ≤ column.length) (inside : offset + lanes ≤ size)
    (register : Register) :
    view (column.put (shift + offset) (leadingWords register lanes)) =
      Column.put (view column) offset (leadingWords register lanes) := by
  apply views.put column offset _ long
  rw [length_leadingWords]
  omega

theorem Column.Views.copyBackColumns_eq (views : Column.Views shift size view)
    (long : ∀ column ∈ columns, shift + size ≤ column.length)
    (inside : offset + lanes ≤ size) (function : Function) (machine : Machine) :
    function.copyBackColumns machine offset lanes (columns.map view) =
      (function.copyBackColumns machine (shift + offset) lanes columns).map view := by
  apply List.ext_getElem
  · simp [Function.copyBackColumns]
  · intro slot inLeft inRight
    have inRange : slot < columns.length := by
      simpa [Function.copyBackColumns] using inLeft
    simp only [Function.copyBackColumns, List.getElem_map, List.getElem_zipIdx,
      Nat.zero_add]
    split
    · exact (views.put_leading (long _ (List.getElem_mem inRange)) inside _).symm
    · rfl

theorem Column.Views.putReturns_eq (views : Column.Views shift size view)
    (long : ∀ column ∈ columns, shift + size ≤ column.length)
    (inside : offset + lanes ≤ size) (returned : List Register) :
    putReturns offset lanes returned (columns.map view) =
      (putReturns (shift + offset) lanes returned columns).map view := by
  apply List.ext_getElem
  · simp [putReturns]
  · intro slot inLeft inRight
    have inRange : slot < columns.length := by
      simp [putReturns] at inLeft
      omega
    simp only [putReturns, List.getElem_map, List.getElem_zipWith]
    exact (views.put_leading (long _ (List.getElem_mem inRange)) inside _).symm

/-- What a chunk makes of its batch is the same through a view. -/
theorem Column.Views.concludeChunk_eq (views : Column.Views shift size view)
    {arguments returns : List Column}
    (longArguments : ∀ column ∈ arguments, shift + size ≤ column.length)
    (longReturns : ∀ column ∈ returns, shift + size ≤ column.length)
    (inside : offset + lanes ≤ size) (function : Function) (result : BatchResult) :
    Linked.concludeChunk function offset lanes (arguments.map view) (returns.map view)
        result =
      (Linked.concludeChunk function (shift + offset) lanes arguments returns
        result).view view := by
  rcases result with _ | failure | ⟨machine, returned⟩
  · rfl
  · rfl
  · simp only [Linked.concludeChunk, Result.view,
      views.copyBackColumns_eq longArguments inside,
      views.putReturns_eq longReturns inside]

end Views

namespace Linked

variable {linked : Linked σ} {budget : Nat} {invocation : Invocation}
variable {function : Function} {host : σ}

/-- Batches of elements that are numbered differently run alike. -/
def RunsAlike (linked : Linked σ) (budget : Nat) (invocation : Invocation)
    (function : Function) (lanes first other : Nat) (registers : List Register)
    (host : σ) : Prop :=
  (linked.runBatch budget invocation function other lanes registers).run host =
    (linked.runBatch budget invocation function first lanes registers).run host

/-- A view of buffers that are large enough is large enough for what it shows. -/
theorem Spacious.view {shift size : Nat} {view : Column → Column}
    (views : Column.Views shift size view) {arguments returns : List Column}
    (spacious : Spacious function (shift + size) arguments returns) :
    Spacious function size (arguments.map view) (returns.map view) := by
  have shown : ∀ {columns : List Column},
      (∀ column ∈ columns, shift + size ≤ column.length) →
        ∀ column ∈ columns.map view, size ≤ column.length := by
    intro columns enough column member
    obtain ⟨whole, listed, rfl⟩ := List.mem_map.mp member
    exact views.long whole (enough whole listed)
  refine ⟨?_, ?_, shown spacious.argumentColumns, shown spacious.returnColumns⟩
  · rw [List.length_map]
    exact spacious.argumentCount
  · rw [List.length_map, List.map_eq_nil_iff]
    exact spacious.returnCount

theorem runChunk_view (ready : function.Ready linked.program)
    {shift size offset lanes : Nat} {view : Column → Column}
    (views : Column.Views shift size view) {arguments returns : List Column}
    (spacious : Spacious function (shift + size) arguments returns)
    (inside : offset + lanes ≤ size) (narrow : lanes ≤ laneCount)
    (alike : linked.RunsAlike budget invocation function lanes (shift + offset) offset
      (chunkRegisters arguments (shift + offset) lanes) host) :
    (linked.runChunk budget invocation function offset lanes (arguments.map view)
      (returns.map view)).run host =
      let reached := (linked.runChunk budget invocation function (shift + offset) lanes
        arguments returns).run host
      (reached.1.view view, reached.2) := by
  have shown := (spacious.view views).mono inside
  have present : Spacious function (shift + offset + lanes) arguments returns :=
    spacious.mono (by omega)
  rw [runChunk_at ready shown narrow, runChunk_at ready present narrow,
    views.chunkRegisters_eq inside, alike]
  dsimp only
  rw [views.concludeChunk_eq spacious.argumentColumns spacious.returnColumns inside]

/--
A call for a part of some columns does what the call for the columns does
there, if its batches run alike wherever the call gets to.
-/
theorem runFrom_view {shift size : Nat} {view : Column → Column}
    (views : Column.Views shift size view) (ready : function.Ready linked.program)
    (offset : Nat) (arguments returns : List Column) (host : σ)
    (spacious : Spacious function (shift + size) arguments returns)
    (alike : ∀ chunks after given state, offset + chunks * laneCount < size →
      (linked.runFrom budget invocation function (shift + (offset + chunks * laneCount))
        (shift + offset) arguments returns).run host =
          (⟨.completed, after, given⟩, state) →
        linked.RunsAlike budget invocation function
          (min (size - (offset + chunks * laneCount)) laneCount)
          (shift + (offset + chunks * laneCount)) (offset + chunks * laneCount)
          (chunkRegisters after (shift + (offset + chunks * laneCount))
            (min (size - (offset + chunks * laneCount)) laneCount)) state) :
    (linked.runFrom budget invocation function size offset (arguments.map view)
      (returns.map view)).run host =
      let reached := (linked.runFrom budget invocation function (shift + size)
        (shift + offset) arguments returns).run host
      (reached.1.view view, reached.2) := by
  have positive : 0 < laneCount := by decide
  generalize remaining : size - offset = distance
  induction distance using Nat.strongRecOn generalizing offset arguments returns host with
  | ind distance induction =>
      by_cases within : offset < size
      · have lanes : min (shift + size - (shift + offset)) laneCount =
            min (size - offset) laneCount := by
          omega
        have here : linked.RunsAlike budget invocation function
            (min (size - offset) laneCount) (shift + offset) offset
            (chunkRegisters arguments (shift + offset) (min (size - offset) laneCount))
              host := by
          have start := alike 0 arguments returns host
          rw [Nat.zero_mul, Nat.add_zero] at start
          exact start within (runFrom_of_le (Nat.le_refl _))
        have farther : shift + offset < shift + size := by omega
        have confined := @runChunk_confined σ linked budget invocation function host ready
          (shift + size) (shift + offset) arguments returns spacious farther
        have seen := runChunk_view ready views spacious (by omega) (Nat.min_le_right _ _)
          here
        rw [← lanes] at seen
        dsimp only at seen
        cases chunk : (linked.runChunk budget invocation function (shift + offset)
            (min (shift + size - (shift + offset)) laneCount) arguments returns).run
              host with
        | mk result state =>
            rw [chunk] at confined seen
            rw [lanes] at seen
            rcases result with ⟨ending, after, given⟩
            cases ending with
            | failed failure =>
                rw [runFrom_of_stopped within seen (by simp [Result.view]),
                  runFrom_of_stopped farther chunk (by simp)]
            | exhausted =>
                rw [runFrom_of_stopped within seen (by simp [Result.view]),
                  runFrom_of_stopped farther chunk (by simp)]
            | completed =>
                have roomy := spacious.of_lengths confined.arguments.lengths
                  confined.returns.lengths
                rw [runFrom_of_completed within seen, runFrom_of_completed farther chunk,
                  Nat.add_assoc]
                apply induction (size - (offset + laneCount)) (by omega) _ _ _ _ roomy _ rfl
                -- What the call gets to behind this chunk, it gets to from here.
                intro chunks next others later inside passed
                have middle : offset + (chunks + 1) * laneCount =
                    offset + laneCount + chunks * laneCount := by
                  rw [Nat.succ_mul]
                  omega
                have full : min (shift + (offset + laneCount + chunks * laneCount) -
                    (shift + offset)) laneCount =
                      min (shift + size - (shift + offset)) laneCount := by
                  omega
                have before := alike (chunks + 1) next others later
                rw [middle] at before
                rw [← full] at chunk
                apply before inside
                rw [runFrom_of_completed (by omega) chunk]
                exact passed
      · rw [runFrom_of_le (Nat.le_of_not_lt within), runFrom_of_le (by omega)]
        rfl

/-! ## Calls in two parts -/

/-- No instruction in the run of a chunk asks the host. -/
def QuietChunk (linked : Linked σ) (invocation : Invocation) (arguments : List Column)
    (offset lanes : Nat) : Prop :=
  ∀ function start machine,
    linked.program.functions[invocation.handle]? = some function →
      Machine.boot linked.program function lanes invocation.inputs
          (chunkRegisters arguments offset lanes) = .ok start →
        Machine.Reaches (linked.batch invocation offset) start machine → machine.Quiet

/-- No instruction that a call for columns gets to asks the host. -/
def Silent (linked : Linked σ) (invocation : Invocation) (count : Nat)
    (arguments returns : List Column) (host : σ) : Prop :=
  ∀ offset, laneCount ∣ offset → offset < count →
    linked.Completes invocation offset arguments returns host →
      linked.QuietChunk invocation arguments offset (min (count - offset) laneCount)

/--
Run a function for the first elements of some columns and, if that completes,
for the others, in two calls with a part of every column each.
-/
def runInTwo (linked : Linked σ) (budget : Nat) (invocation : Invocation)
    (first count : Nat) (arguments returns : List Column) : StateM σ (Result Column) := do
  let front ← linked.runStriped budget invocation first
    (arguments.map (List.take first)) (returns.map (List.take first))
  match front.ending with
  | .completed =>
      let back ← linked.runStriped budget invocation (count - first)
        (arguments.map (List.drop first)) (returns.map (List.drop first))
      return ⟨back.ending, front.arguments.zipWith (· ++ ·) back.arguments,
        front.returns.zipWith (· ++ ·) back.returns⟩
  | ending =>
      return ⟨ending, front.arguments.zipWith (· ++ ·) (arguments.map (List.drop first)),
        front.returns.zipWith (· ++ ·) (returns.map (List.drop first))⟩

theorem runInTwo_at {first count : Nat} {arguments returns : List Column} :
    (linked.runInTwo budget invocation first count arguments returns).run host =
      let front := (linked.runStriped budget invocation first
        (arguments.map (List.take first)) (returns.map (List.take first))).run host
      match front.1.ending with
      | .completed =>
          let back := (linked.runStriped budget invocation (count - first)
            (arguments.map (List.drop first)) (returns.map (List.drop first))).run front.2
          (⟨back.1.ending, front.1.arguments.zipWith (· ++ ·) back.1.arguments,
            front.1.returns.zipWith (· ++ ·) back.1.returns⟩, back.2)
      | ending =>
          (⟨ending,
            front.1.arguments.zipWith (· ++ ·) (arguments.map (List.drop first)),
            front.1.returns.zipWith (· ++ ·) (returns.map (List.drop first))⟩,
            front.2) := by
  unfold runInTwo
  rw [StateT.run_bind]
  rcases (linked.runStriped budget invocation first (arguments.map (List.take first))
    (returns.map (List.take first))).run host with ⟨⟨ending, after, given⟩, state⟩
  cases ending <;> rfl

/-- Columns are put together again from their parts. -/
theorem zipWith_take_drop (columns : List Column) (offset : Nat) :
    (columns.map (List.take offset)).zipWith (· ++ ·) (columns.map (List.drop offset)) =
      columns := by
  induction columns with
  | nil =>
      rfl
  | cons column columns induction =>
      rw [List.map_cons, List.map_cons, List.zipWith_cons_cons, induction,
        List.take_append_drop]

/-- Batches that ask nothing of the host run alike, however elements are numbered. -/
theorem runsAlike_of_quiet {lanes first other : Nat} {registers : List Register}
    (quiet : ∀ start machine,
      Machine.boot linked.program function lanes invocation.inputs registers = .ok start →
        Machine.Reaches (linked.batch invocation first) start machine → machine.Quiet) :
    linked.RunsAlike budget invocation function lanes first other registers host := by
  unfold RunsAlike runBatch launch
  cases booted : Machine.boot linked.program function lanes invocation.inputs registers with
  | error failure =>
      rfl
  | ok start =>
      change start.runAt (linked.batch invocation other) budget host =
        start.runAt (linked.batch invocation first) budget host
      have ends : ∀ element, start.runAt (linked.batch invocation element) budget host =
          ((start.runAt (linked.batch invocation first).silent budget ()).1, host) :=
        fun element => @Machine.runAt_silent σ (linked.batch invocation first)
          (linked.batch invocation element) start rfl
          (fun machine => quiet start machine booted) budget host
      rw [ends other, ends first]

/-- A call that is accepted is accepted for a part of its columns. -/
theorem accept_view {shift size : Nat} {view : Column → Column}
    {arguments returns : List Column} (views : Column.Views shift size view)
    (accepted : linked.accept invocation (shift + size) arguments returns = .ok function) :
    linked.accept invocation size (arguments.map view) (returns.map view) =
      .ok function := by
  have shown := (spacious_of_accept accepted).view views
  refine accept_eq_ok.mpr ⟨?_, shown.argumentColumns, shown.returnColumns⟩
  rw [List.length_map, List.length_map, List.isEmpty_map]
  exact (accept_eq_ok.mp accepted).1

section InTwo

variable {count chunks : Nat} {arguments returns : List Column}
variable (accepted : linked.accept invocation count arguments returns = .ok function)
variable (within : chunks * laneCount ≤ count)
include accepted within

/-- The call for the first elements shows the beginning of the call for all. -/
theorem runStriped_take :
    (linked.runStriped budget invocation (chunks * laneCount)
      (arguments.map (List.take (chunks * laneCount)))
      (returns.map (List.take (chunks * laneCount)))).run host =
      let reached := (linked.runFrom budget invocation function (chunks * laneCount) 0
        arguments returns).run host
      (reached.1.view (List.take (chunks * laneCount)), reached.2) := by
  have views := Column.views_take (chunks * laneCount)
  have front := accept_of_le accepted within
  rw [← Nat.zero_add (chunks * laneCount)] at front
  rw [runStriped_of_accept (accept_view views front) (Nat.le_refl _)]
  have seen := @runFrom_view σ linked budget invocation function 0 (chunks * laneCount) _
    views (ready_of_accept accepted) 0 arguments returns host (spacious_of_accept front)
    (fun _ _ _ _ _ _ => by simp only [RunsAlike, Nat.zero_add])
  rw [Nat.zero_add, Nat.add_zero] at seen
  exact seen

/-- The call for the other elements shows the rest of a call that asks nothing of the host. -/
theorem runStriped_drop {after given : List Column} {state : σ}
    (silent : linked.Silent invocation count arguments returns host)
    (passed : (linked.runFrom budget invocation function (chunks * laneCount) 0 arguments
      returns).run host = (⟨.completed, after, given⟩, state)) :
    (linked.runStriped budget invocation (count - chunks * laneCount)
      (arguments.map (List.drop (chunks * laneCount)))
      (returns.map (List.drop (chunks * laneCount)))).run state =
      let reached := (linked.runFrom budget invocation function count (chunks * laneCount)
        after given).run state
      (reached.1.view (List.drop (chunks * laneCount)), reached.2) := by
  have ready := ready_of_accept accepted
  have confined : ∀ part, part ≤ count →
      Confined function (fun element => element < 0 ∨ part ≤ element) arguments returns
        ((linked.runFrom budget invocation function part 0 arguments
          returns).run host).1 := fun part inside =>
    runFrom_confined ready 0 arguments returns host
      (spacious_of_accept (accept_of_le accepted inside))
  have kept := confined (chunks * laneCount) within
  rw [passed] at kept
  obtain ⟨rest, rfl⟩ := Nat.exists_eq_add_of_le within
  have views := Column.views_drop (chunks * laneCount) rest
  rw [Nat.add_sub_cancel_left, runStriped_of_accept (accept_view views accepted) (Nat.le_refl _),
    ← (kept.arguments.mono fun _ beyond => Or.inr beyond).map_drop,
    ← (kept.returns.mono fun _ beyond => Or.inr beyond).map_drop]
  have roomy := (spacious_of_accept accepted).of_lengths kept.arguments.lengths
    kept.returns.lengths
  refine @runFrom_view σ linked budget invocation function (chunks * laneCount) rest _
    views ready 0 after given state roomy ?_
  intro others next answers later inside reached
  rw [Nat.zero_add] at inside reached ⊢
  have place : chunks * laneCount + others * laneCount = (chunks + others) * laneCount :=
    (Nat.add_mul _ _ _).symm
  have whole : (linked.runFrom budget invocation function
      (chunks * laneCount + others * laneCount) 0 arguments returns).run host =
        (⟨.completed, next, answers⟩, later) := by
    rw [runFrom_split (Nat.zero_add _).symm (Nat.le_add_right _ _) passed]
    exact reached
  have completes : linked.Completes invocation (chunks * laneCount + others * laneCount)
      arguments returns host := by
    refine ⟨⟨.completed, next, answers⟩, ⟨by simp, budget, ?_⟩, rfl⟩
    rw [runStriped_of_accept accepted (by omega), whole]
  have later := (confined (chunks * laneCount + others * laneCount) (by omega)).arguments
  rw [whole] at later
  have registers := @chunkRegisters_congr (chunks * laneCount + others * laneCount)
    (min (rest - others * laneCount) laneCount) arguments next
    fun element beyond => later.words element (Or.inr beyond)
  rw [registers]
  have lanes : chunks * laneCount + rest - (chunks * laneCount + others * laneCount) =
      rest - others * laneCount := by
    omega
  have quiet := silent _ (place ▸ Nat.dvd_mul_left _ _) (by omega) completes
  rw [lanes] at quiet
  exact runsAlike_of_quiet fun start machine booted => quiet function start machine
    (Program.prepare_eq_ok.mp (accept_eq_ok.mp accepted).1).1 booted

/-- A call that asks nothing of the host may be made in two parts. -/
theorem runStriped_in_two
    (silent : linked.Silent invocation count arguments returns host) :
    (linked.runStriped budget invocation count arguments returns).run host =
      (linked.runInTwo budget invocation (chunks * laneCount) count arguments
        returns).run host := by
  have ready := ready_of_accept accepted
  have spacious := spacious_of_accept accepted
  have front := @runFrom_confined σ linked budget invocation function ready
    (chunks * laneCount) 0 arguments returns host
    (spacious_of_accept (accept_of_le accepted within))
  have first := @runStriped_take σ linked budget invocation function host count chunks
    arguments returns accepted within
  rw [runInTwo_at, first, runStriped_of_accept accepted (Nat.le_refl _),
    runFrom_append (Nat.zero_add _).symm within]
  dsimp only
  cases reached : (linked.runFrom budget invocation function (chunks * laneCount) 0
      arguments returns).run host with
  | mk result state =>
      rw [reached] at front
      rcases result with ⟨ending, after, given⟩
      -- The parts that were not run are those of the columns before the call.
      have unreached :
          (after.map (List.take (chunks * laneCount))).zipWith (· ++ ·)
              (arguments.map (List.drop (chunks * laneCount))) = after ∧
            (given.map (List.take (chunks * laneCount))).zipWith (· ++ ·)
              (returns.map (List.drop (chunks * laneCount))) = given := by
        rw [← (front.arguments.mono fun _ beyond => Or.inr beyond).map_drop,
          ← (front.returns.mono fun _ beyond => Or.inr beyond).map_drop]
        exact ⟨zipWith_take_drop _ _, zipWith_take_drop _ _⟩
      cases ending with
      | failed failure =>
          simp only [Result.view, unreached]
      | exhausted =>
          simp only [Result.view, unreached]
      | completed =>
          have roomy := spacious.of_lengths front.arguments.lengths front.returns.lengths
          have back := @runFrom_confined σ linked budget invocation function ready
            count (chunks * laneCount) after given state roomy
          have second := runStriped_drop accepted within silent reached
          simp only [Result.view] at second ⊢
          rw [second]
          generalize (linked.runFrom budget invocation function count (chunks * laneCount)
            after given).run state = final at back
          rcases final with ⟨⟨ending, last, answers⟩, later⟩
          dsimp only at back ⊢
          rw [← (back.arguments.mono fun _ early => Or.inl early).map_take,
            ← (back.returns.mono fun _ early => Or.inl early).map_take,
            zipWith_take_drop, zipWith_take_drop]

end InTwo

/-! ## Calls for columns -/

/-- A call completes before the chunk at an offset and fails in that chunk. -/
def FailsAt (linked : Linked σ) (budget : Nat) (invocation : Invocation) (count : Nat)
    (arguments returns : List Column) (host : σ) (offset : Nat) (failure : Failure) :
    Prop :=
  ∃ function after given state,
    linked.accept invocation count arguments returns = .ok function ∧ offset < count ∧
      (linked.runStriped budget invocation offset arguments returns).run host =
        (⟨.completed, after, given⟩, state) ∧
      ((linked.runChunk budget invocation function offset (min (count - offset) laneCount)
        after given).run state).1.ending = .failed failure

/-- What a call for columns leaves in its buffers. -/
structure Chunked (linked : Linked σ) (budget : Nat) (invocation : Invocation)
    (count : Nat) (arguments returns : List Column) (host : σ) (result : Result Column) :
    Prop where
  /-- A call that is refused changes nothing. -/
  refused : ∀ failure, linked.accept invocation count arguments returns = .error failure →
    result = ⟨.failed failure, arguments, returns⟩
  /-- Any other call that fails does so in one of its chunks. -/
  fails : ∀ failure, result.ending = .failed failure →
    linked.accept invocation count arguments returns = .error failure ∨
      ∃ chunks, linked.FailsAt budget invocation count arguments returns host
        (chunks * laneCount) failure
  /--
  A call that fails in a chunk leaves what the call for the elements before the
  chunk leaves, and the elements from there on as they were.
  -/
  undone : ∀ chunks failure,
    linked.FailsAt budget invocation count arguments returns host (chunks * laneCount)
        failure →
      (∃ after given state,
        (linked.runStriped budget invocation (chunks * laneCount) arguments returns).run
          host = (⟨.completed, after, given⟩, state) ∧
        result = ⟨.failed failure, after, given⟩) ∧
      Keeps (chunks * laneCount ≤ ·) arguments result.arguments ∧
        Keeps (chunks * laneCount ≤ ·) returns result.returns
  /-- Elements beyond the count are never changed. -/
  beyond : Keeps (count ≤ ·) arguments result.arguments ∧
    Keeps (count ≤ ·) returns result.returns
  /-- Columns of parameters that are not given back are never changed. -/
  inputs : ∀ function slot,
    linked.program.functions[invocation.handle]? = some function →
      function.isOutSlot slot = false → result.arguments[slot]? = arguments[slot]?
  /-- A call that asks nothing of the host may be made in two parts. -/
  inTwo : ∀ function chunks,
    linked.accept invocation count arguments returns = .ok function →
      chunks * laneCount ≤ count →
        linked.Silent invocation count arguments returns host →
          (linked.runStriped budget invocation count arguments returns).run host =
            (linked.runInTwo budget invocation (chunks * laneCount) count arguments
              returns).run host

/-- An accepted call changes elements below its count only. -/
theorem runStriped_confined {count : Nat} {arguments returns : List Column}
    (accepted : linked.accept invocation count arguments returns = .ok function)
    (budget : Nat) (host : σ) :
    Confined function (count ≤ ·) arguments returns
      ((linked.runStriped budget invocation count arguments returns).run host).1 := by
  rw [runStriped_of_accept accepted (Nat.le_refl _)]
  exact (runFrom_confined (ready_of_accept accepted) 0 arguments returns host
    (spacious_of_accept accepted)).mono fun _ beyond => Or.inr beyond

/-- A call that fails in a chunk leaves the columns as they were before the chunk. -/
theorem FailsAt.runStriped_eq {count chunks : Nat} {arguments returns : List Column}
    {failure : Failure}
    (fails : linked.FailsAt budget invocation count arguments returns host
      (chunks * laneCount) failure) :
    ∃ after given state later,
      (linked.runStriped budget invocation (chunks * laneCount) arguments returns).run
        host = (⟨.completed, after, given⟩, state) ∧
      (linked.runStriped budget invocation count arguments returns).run host =
        (⟨.failed failure, after, given⟩, later) := by
  obtain ⟨function, after, given, state, accepted, within, passed, failed⟩ := fails
  have before := passed
  rw [runStriped_of_accept accepted (Nat.le_of_lt within)] at before
  have early := runStriped_confined (accept_of_le accepted (Nat.le_of_lt within)) budget host
  rw [passed] at early
  have roomy := (spacious_of_accept accepted).of_lengths early.arguments.lengths
    early.returns.lengths
  cases chunk : (linked.runChunk budget invocation function (chunks * laneCount)
      (min (count - chunks * laneCount) laneCount) after given).run state with
  | mk result later =>
      rw [chunk] at failed
      have incomplete : result.ending ≠ .completed := by
        rw [failed]
        simp
      have kept := runChunk_unchanged (ready_of_accept accepted) roomy within chunk incomplete
      rw [failed] at kept
      refine ⟨after, given, state, later, passed, ?_⟩
      rw [runStriped_of_accept accepted (Nat.le_refl _),
        runFrom_split (Nat.zero_add _).symm (Nat.le_of_lt within) before,
        runFrom_of_stopped within chunk incomplete, kept]

/-- An accepted call that fails does so in one of its chunks. -/
theorem failsAt_of_failed {count : Nat} {arguments returns : List Column}
    {failure : Failure}
    (accepted : linked.accept invocation count arguments returns = .ok function)
    (failed : ((linked.runStriped budget invocation count arguments returns).run
      host).1.ending = .failed failure) :
    ∃ chunks, linked.FailsAt budget invocation count arguments returns host
      (chunks * laneCount) failure := by
  rw [runStriped_of_accept accepted (Nat.le_refl _)] at failed
  have incomplete : ((linked.runFrom budget invocation function count 0 arguments
      returns).run host).1.ending ≠ .completed := by
    rw [failed]
    simp
  obtain ⟨chunks, after, given, state, within, passed, last⟩ :=
    runFrom_stops 0 arguments returns host incomplete
  rw [Nat.zero_add] at within passed last
  refine ⟨chunks, function, after, given, state, accepted, within, ?_, ?_⟩
  · rw [runStriped_of_accept accepted (Nat.le_of_lt within)]
    exact passed
  · rw [last]
    exact failed

/--
Calls for columns work chunk by chunk: what comes before a failing chunk is
done, what comes after it is untouched, and without a host the elements may be
divided among calls at any chunk.
-/
theorem columns_are_chunked (linked : Linked σ) (budget : Nat) (invocation : Invocation)
    (count : Nat) (arguments returns : List Column) (host : σ) :
    linked.Chunked budget invocation count arguments returns host
      ((linked.runStriped budget invocation count arguments returns).run host).1 := by
  have refused : ∀ failure,
      linked.accept invocation count arguments returns = .error failure →
        ((linked.runStriped budget invocation count arguments returns).run host).1 =
          ⟨.failed failure, arguments, returns⟩ := by
    intro failure rejected
    rw [runStriped_accept, rejected]
  constructor
  · exact refused
  · intro failure failed
    cases accepted : linked.accept invocation count arguments returns with
    | error refusal =>
        rw [refused refusal accepted] at failed
        cases failed
        exact Or.inl rfl
    | ok function =>
        exact Or.inr (failsAt_of_failed accepted failed)
  · intro chunks failure fails
    obtain ⟨after, given, state, later, passed, whole⟩ := fails.runStriped_eq
    obtain ⟨function, _, _, _, accepted, within, _⟩ := fails
    have kept := runStriped_confined (accept_of_le accepted (Nat.le_of_lt within)) budget host
    rw [passed] at kept
    rw [whole]
    exact ⟨⟨after, given, state, passed, rfl⟩, kept.arguments, kept.returns⟩
  · cases accepted : linked.accept invocation count arguments returns with
    | error failure =>
        rw [refused failure accepted]
        exact ⟨.refl _ _, .refl _ _⟩
    | ok function =>
        have kept := runStriped_confined accepted budget host
        exact ⟨kept.arguments, kept.returns⟩
  · intro function slot known inward
    cases accepted : linked.accept invocation count arguments returns with
    | error failure =>
        rw [refused failure accepted]
    | ok found =>
        have same := (Program.prepare_eq_ok.mp (accept_eq_ok.mp accepted).1).1
        rw [known] at same
        cases same
        exact (runStriped_confined accepted budget host).inputs slot inward
  · exact fun function chunks accepted within silent =>
      runStriped_in_two accepted within silent

/-- A function that divides its first argument by its second one, and gives it back. -/
def share : Function where
  name := "share"
  parameterCount := 2
  stackCount := 2
  returnCount := 1
  parameters := [{ slotCount := 1, isOut := true }, { slotCount := 1 }]
  code := (Instruction.load .local 2 0).encode ++ (Instruction.divide .quotientU 1).encode ++
    (Instruction.store .local 1 0).encode ++ (Instruction.load .local 1 0).encode ++
    (Instruction.ret 1).encode

/-- The function `share` alone, without a host. -/
def sharing : Linked Unit :=
  ⟨{ functions := [share] }, []⟩

/--
Nine elements of which the last one divides by zero: the second chunk fails, the
elements of the first one are written, and eight elements and one may as well be
run in two calls.
-/
theorem columns_are_chunked_share :
    let arguments : List Column :=
      [[2, 4, 6, 8, 10, 12, 14, 16, 18], [2, 2, 2, 2, 2, 2, 2, 2, 0]]
    let returns : List Column := [[0, 0, 0, 0, 0, 0, 0, 0, 9]]
    let failure := Failure.fault (.arithmetic (.divide .quotientU) 0)
    sharing.FailsAt 64 ⟨0, [], none⟩ 9 arguments returns () 8 failure ∧
      ((sharing.runStriped 64 ⟨0, [], none⟩ 9 arguments returns).run ()).1 =
        ⟨.failed failure,
          [[1, 2, 3, 4, 5, 6, 7, 8, 18], [2, 2, 2, 2, 2, 2, 2, 2, 0]],
          [[1, 2, 3, 4, 5, 6, 7, 8, 9]]⟩ ∧
      (sharing.runStriped 64 ⟨0, [], none⟩ 9 arguments returns).run () =
        (sharing.runInTwo 64 ⟨0, [], none⟩ 8 9 arguments returns).run () := by
  intro arguments returns failure
  have chunked := columns_are_chunked sharing 64 ⟨0, [], none⟩ 9 arguments returns ()
  have passed : (sharing.runStriped 64 ⟨0, [], none⟩ 8 arguments returns).run () =
      (⟨.completed, [[1, 2, 3, 4, 5, 6, 7, 8, 18], [2, 2, 2, 2, 2, 2, 2, 2, 0]],
        [[1, 2, 3, 4, 5, 6, 7, 8, 9]]⟩, ()) :=
    Prod.ext (by decide +kernel) rfl
  have fails : sharing.FailsAt 64 ⟨0, [], none⟩ 9 arguments returns () 8 failure :=
    ⟨share, _, _, (), rfl, by decide, passed, by decide +kernel⟩
  refine ⟨fails, ?_, ?_⟩
  · obtain ⟨⟨after, given, state, first, whole⟩, _⟩ := chunked.undone 1 failure fails
    rw [Nat.one_mul, show laneCount = 8 from rfl, passed] at first
    cases first
    exact whole
  · have verified : Program.Verified { functions := [share] } 0 :=
      Program.verify_eq_ok.mp rfl
    have straight : Program.Straight { functions := [share] } := by
      decide
    refine chunked.inTwo share 1 rfl (by decide) ?_
    intro offset _ _ _ function start machine known booted reached instruction decoded
    have uniform := uniformChunk_of_straight verified straight (by
      rintro function ⟨⟩
      rfl) function start machine known booted reached
    exact (uniform instruction decoded).1

end Linked

end Lockstep
