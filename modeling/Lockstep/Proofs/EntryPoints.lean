import Lockstep.Proofs.HostCalls

/-!
# The two ways to call a function

A call for a single element and a call for columns with one element do the same
thing: they are refused for the same reason, or run the same machine and write
back the same words, although one collects its results in a buffer and the other
puts them into columns.  The return columns of a call are optional, and to leave
them out changes nothing but that the returned words are dropped: no sink of an
accepted call refuses what the function returns.

Neither fact depends on the host, so both also hold of a host that keeps a
journal: the two calls make the same requests in the same order.
-/

namespace Lockstep

variable {σ : Type}

/-- The outcome of a call for a single element, with a column for each of its words. -/
def Result.inColumns (result : Result Word) : Result Column where
  ending := result.ending
  arguments := result.arguments.map ([·])
  returns := result.returns.map ([·])

namespace Linked

variable {linked : Linked σ} {budget : Nat} {invocation : Invocation}
variable {function : Function} {host : σ}

/-! ## Acceptance -/

/-- How many values a call asks for matters only if it is not what the function returns. -/
theorem prepare_returns {slots : Nat} {given other : Option Nat}
    (wanted : ∀ function, linked.program.functions[invocation.handle]? = some function →
      ∀ number, given = some number ∨ other = some number →
        number = function.returnCount) :
    linked.program.prepare invocation slots given =
      linked.program.prepare invocation slots other := by
  unfold Program.prepare
  cases known : linked.program.functions[invocation.handle]? with
  | none =>
      rfl
  | some function =>
      dsimp only
      rw [checkCall_returns fun number same => wanted function known number (.inl same),
        ← checkCall_returns fun number same => wanted function known number (.inr same)]

/-- A call for columns of one word each is accepted as the call for these words is. -/
theorem accept_singletons {arguments returns : List Word}
    (wanted : returns ≠ [] ∨ ∀ function,
      linked.program.functions[invocation.handle]? = some function →
        function.returnCount = 0) :
    linked.accept invocation 1 (arguments.map ([·])) (returns.map ([·])) =
      linked.program.prepare invocation arguments.length (some returns.length) := by
  have prepared : linked.program.prepare invocation (arguments.map ([·])).length
      (if (returns.map ([·])).isEmpty then none else some (returns.map ([·])).length) =
        linked.program.prepare invocation arguments.length (some returns.length) := by
    rw [List.length_map, List.length_map]
    cases returns with
    | cons word others =>
        rfl
    | nil =>
        refine prepare_returns fun function known number asked => ?_
        rcases asked with unasked | asked
        · cases unasked
        · rw [← Option.some.inj asked]
          exact (wanted.resolve_left (absurd rfl) function known).symm
  have long : ∀ words : List Word, ∀ column ∈ words.map ([·]), 1 ≤ column.length := by
    intro words column member
    obtain ⟨word, _, rfl⟩ := List.mem_map.mp member
    exact Nat.le_refl 1
  unfold accept
  rw [prepared, checkColumns_eq_ok.mpr (long arguments), checkColumns_eq_ok.mpr (long returns)]
  cases linked.program.prepare invocation arguments.length (some returns.length) <;> rfl

/-! ## A single element -/

theorem put_singleton (word : Word) (register : Register) :
    Column.put [word] 0 (leadingWords register 1) = [register.get 0] := by
  have first : leadingWords register 1 = [register.get 0] := by
    apply List.ext_getElem
    · rw [length_leadingWords]
      rfl
    · intro position inRange _
      rw [length_leadingWords] at inRange
      obtain rfl : position = 0 := by omega
      simp [leadingWords, Lanes.toList, Lanes.get]
  rw [first]
  rfl

theorem chunkRegisters_singletons (arguments : List Word) :
    chunkRegisters (arguments.map ([·])) 0 1 =
      arguments.map fun word => packWords [word] := by
  unfold chunkRegisters
  rw [List.map_map]
  rfl

theorem copyBackColumns_singletons (machine : Machine) (arguments : List Word) :
    function.copyBackColumns machine 0 1 (arguments.map ([·])) =
      (function.copyBack machine arguments).map ([·]) := by
  unfold Function.copyBackColumns Function.copyBack
  rw [List.zipIdx_map, List.map_map, List.map_map]
  apply List.map_congr_left
  rintro ⟨word, slot⟩ _
  change (if function.isOutSlot slot then
    Column.put [word] 0 (leadingWords (machine.registers.register slot) 1) else [word]) = _
  rw [put_singleton]
  change _ = [if function.isOutSlot slot then _ else _]
  split <;> rfl

theorem putReturns_singletons {returned : List Register} {returns : List Word}
    (counted : returned.length = returns.length) :
    putReturns 0 1 returned (returns.map ([·])) =
      (returned.map (·.get 0)).map ([·]) := by
  unfold putReturns
  induction returned generalizing returns with
  | nil =>
      rw [List.eq_nil_of_length_eq_zero counted.symm]
      rfl
  | cons register others induction =>
      cases returns with
      | nil =>
          cases counted
      | cons word rest =>
          rw [List.map_cons, List.zipWith_cons_cons, put_singleton,
            induction (Nat.succ.inj counted)]
          rfl

/-- A chunk of one element comes to what a single element comes to. -/
theorem concludeChunk_singletons {arguments returns : List Word} {result : BatchResult}
    (counted : ∀ machine returned, result = some (.ok (machine, returned)) →
      returned.length = returns.length) :
    concludeChunk function 0 1 (arguments.map ([·])) (returns.map ([·])) result =
      (conclude function arguments returns result).inColumns := by
  rcases result with _ | failure | ⟨machine, returned⟩
  · rfl
  · rfl
  · change (⟨.completed, function.copyBackColumns machine 0 1 (arguments.map ([·])),
      putReturns 0 1 returned (returns.map ([·]))⟩ : Result Column) = _
    rw [copyBackColumns_singletons, putReturns_singletons (counted machine returned rfl)]
    rfl

/-- A call for one element in columns does what the call for the element does. -/
theorem runStriped_singletons {arguments returns : List Word}
    (wanted : returns ≠ [] ∨ ∀ function,
      linked.program.functions[invocation.handle]? = some function →
        function.returnCount = 0) :
    (linked.runStriped budget invocation 1 (arguments.map ([·]))
        (returns.map ([·]))).run host =
      let single := (linked.run budget invocation arguments returns).run host
      (single.1.inColumns, single.2) := by
  rw [runStriped_accept, accept_singletons wanted, run_at]
  cases prepared : linked.program.prepare invocation arguments.length
      (some returns.length) with
  | error failure =>
      rfl
  | ok function =>
      obtain ⟨known, accepts⟩ := Program.prepare_eq_ok.mp prepared
      have counted : (arguments.map fun word => packWords [word]).length =
          function.parameterCount := by
        rw [List.length_map]
        exact accepts.arguments
      have accepted := @accept_singletons σ linked invocation arguments returns wanted
      rw [prepared] at accepted
      have yields := fun result later =>
        @runBatch_yields σ linked budget invocation function host 0 1 _
          (List.mem_of_getElem? known) accepts.frame counted result later
      dsimp only
      rw [runFrom_at, if_pos Nat.zero_lt_one, show min (1 - 0) laneCount = 1 from rfl,
        runChunk_at (.of_prepared prepared) (spacious_of_accept accepted) (by decide),
        chunkRegisters_singletons]
      dsimp only
      generalize (linked.runBatch budget invocation function 0 1
        (arguments.map fun word => packWords [word])).run host = reached at yields
      rcases reached with ⟨result, later⟩
      -- Only a chunk that completes is followed by another, which has no elements.
      rw [concludeChunk_singletons (by
        rintro machine returned rfl
        have delivers : Machine.Delivers _ _ _ machine returned := yields _ _ rfl
        rw [delivers.counted]
        exact (accepts.returns _ rfl).symm)]
      rcases result with _ | failure | ⟨machine, returned⟩
      · rfl
      · rfl
      · change (linked.runFrom _ _ _ 1 (0 + 1) _ _).run later = _
        rw [runFrom_of_le (by decide)]
        rfl

/-! ## Return columns that are left out -/

theorem Spacious.omitted {count : Nat} {arguments returns : List Column}
    (spacious : Spacious function count arguments returns) :
    Spacious function count arguments [] :=
  ⟨spacious.argumentCount, Or.inl rfl, spacious.argumentColumns,
    fun _ member => absurd member List.not_mem_nil⟩

/--
A chunk does the same without return columns: the sink that puts results into
columns does not fail, and neither does the sink that drops them.
-/
theorem runChunk_omitted (ready : function.Ready linked.program) {count offset : Nat}
    {arguments returns : List Column}
    (spacious : Spacious function count arguments returns) (within : offset < count) :
    (linked.runChunk budget invocation function offset (min (count - offset) laneCount)
        arguments []).run host =
      let supplied := (linked.runChunk budget invocation function offset
        (min (count - offset) laneCount) arguments returns).run host
      ({ supplied.1 with returns := [] }, supplied.2) := by
  have narrow := Nat.min_le_right (count - offset) laneCount
  rw [runChunk_at ready (spacious.omitted.chunk within) narrow,
    runChunk_at ready (spacious.chunk within) narrow]
  dsimp only
  rcases (linked.runBatch budget invocation function offset
    (min (count - offset) laneCount)
    (chunkRegisters arguments offset (min (count - offset) laneCount))).run host with
      ⟨_ | failure | ⟨machine, returned⟩, later⟩
  · rfl
  · rfl
  · simp [concludeChunk, putReturns]

/-- The chunks of a call do the same without return columns. -/
theorem runFrom_omitted (ready : function.Ready linked.program) {count : Nat}
    (offset : Nat) (arguments returns : List Column) (host : σ)
    (spacious : Spacious function count arguments returns) :
    (linked.runFrom budget invocation function count offset arguments []).run host =
      let supplied := (linked.runFrom budget invocation function count offset arguments
        returns).run host
      ({ supplied.1 with returns := [] }, supplied.2) := by
  revert spacious
  apply @runFrom_induction σ linked budget invocation function count
    (fun offset arguments returns host reached =>
      Spacious function count arguments returns →
        (linked.runFrom budget invocation function count offset arguments []).run host =
          ({ reached.1 with returns := [] }, reached.2))
  · intro offset arguments returns host beyond _
    exact runFrom_of_le beyond
  · intro offset arguments returns host result later within chunk incomplete spacious
    refine runFrom_of_stopped within ?_ incomplete
    rw [runChunk_omitted ready spacious within, chunk]
  · intro offset arguments returns host after given state reached within chunk rest spacious
    have clean := @runChunk_clean σ linked budget invocation function host ready
      count offset arguments returns spacious within
    rw [chunk] at clean
    refine (runFrom_of_completed within ?_).trans
      (rest (spacious.of_lengths clean.arguments clean.returns))
    rw [runChunk_omitted ready spacious within, chunk]

/-- A call for columns does the same without return columns. -/
theorem runStriped_omitted {count : Nat} {arguments returns : List Column}
    (counted : ∀ function, linked.program.functions[invocation.handle]? = some function →
      returns.length = function.returnCount)
    (wide : ∀ column ∈ returns, count ≤ column.length) :
    (linked.runStriped budget invocation count arguments []).run host =
      let supplied := (linked.runStriped budget invocation count arguments
        returns).run host
      ({ supplied.1 with returns := [] }, supplied.2) := by
  have same : linked.accept invocation count arguments [] =
      linked.accept invocation count arguments returns := by
    have prepared : linked.program.prepare invocation arguments.length none =
        linked.program.prepare invocation arguments.length
          (if returns.isEmpty then none else some returns.length) := by
      refine prepare_returns fun function known number asked => ?_
      rcases asked with unasked | asked
      · cases unasked
      · split at asked
        · cases asked
        · rw [← Option.some.inj asked]
          exact counted function known
    unfold accept
    rw [checkColumns_eq_ok.mpr wide, ← prepared]
    rfl
  rw [runStriped_accept, runStriped_accept, same]
  cases accepted : linked.accept invocation count arguments returns with
  | error failure =>
      rfl
  | ok function =>
      exact runFrom_omitted (ready_of_accept accepted) 0 arguments returns host
        (spacious_of_accept accepted)

/-! ## Agreement -/

/--
A call for a single element does what the call for columns of one word each
does: it ends alike, leaves the same words in its buffers and the host in the
same state, and makes the same requests.  The return columns of a call change
nothing of this but the returned words.
-/
theorem entry_points_agree (linked : Linked σ) (budget : Nat) (invocation : Invocation)
    (host : σ) :
    (∀ arguments returns : List Word,
      (returns ≠ [] ∨ ∀ function,
        linked.program.functions[invocation.handle]? = some function →
          function.returnCount = 0) →
      let single := (linked.run budget invocation arguments returns).run host
      (linked.runStriped budget invocation 1 (arguments.map ([·]))
          (returns.map ([·]))).run host = (single.1.inColumns, single.2) ∧
        ∀ entries,
          ((linked.recorded.runStriped budget invocation 1 (arguments.map ([·]))
            (returns.map ([·]))).run (host, entries)).2 =
          ((linked.recorded.run budget invocation arguments returns).run
            (host, entries)).2) ∧
    ∀ count arguments (returns : List Column),
      (∀ function, linked.program.functions[invocation.handle]? = some function →
        returns.length = function.returnCount) →
      (∀ column ∈ returns, count ≤ column.length) →
      let supplied :=
        (linked.runStriped budget invocation count arguments returns).run host
      (linked.runStriped budget invocation count arguments []).run host =
          ({ supplied.1 with returns := [] }, supplied.2) ∧
        ∀ entries,
          ((linked.recorded.runStriped budget invocation count arguments []).run
            (host, entries)).2 =
          ((linked.recorded.runStriped budget invocation count arguments returns).run
            (host, entries)).2 := by
  constructor
  · intro arguments returns wanted
    refine ⟨runStriped_singletons wanted, fun entries => ?_⟩
    rw [@runStriped_singletons _ linked.recorded _ _ _ _ _ wanted]
  · intro count arguments returns counted wide
    refine ⟨runStriped_omitted counted wide, fun entries => ?_⟩
    rw [@runStriped_omitted _ linked.recorded _ _ _ _ _ _ counted wide]

/-- A function that asks the host for a word, keeps it and returns it. -/
def inquire : Function where
  name := "inquire"
  parameterCount := 1
  stackCount := 1
  returnCount := 1
  parameters := [{ slotCount := 1, isOut := true }]
  code := (Instruction.load .local 1 0).encode ++
    (Instruction.callExternal 1 1 0).encode ++ (Instruction.store .local 1 0).encode ++
    (Instruction.load .local 1 0).encode ++ (Instruction.ret 1).encode

/-- The program of `inquire`, with a host that counts its requests. -/
def inquiring : Linked Nat where
  program := { functions := [inquire] }
  externals := [{ call := fun _ _ width => do
    modify (· + 1)
    return Vector.replicate width (UInt32.ofNat (← get)) }]

/--
Alone and in columns, the element gets the seventh answer.  Without return
columns, two elements get the answers that they get with them.
-/
theorem entry_points_agree_inquire :
    ((inquiring.run 9 ⟨0, [], none⟩ [4] [5]).run 6).1.arguments = [7] ∧
      ((inquiring.runStriped 9 ⟨0, [], none⟩ 1 [[4]] [[5]]).run 6).1.arguments = [[7]] ∧
      ((inquiring.runStriped 9 ⟨0, [], none⟩ 2 [[4, 4]] [[5, 5]]).run 6).1.arguments =
        [[7, 8]] ∧
      ((inquiring.runStriped 9 ⟨0, [], none⟩ 2 [[4, 4]] []).run 6).1.arguments =
        [[7, 8]] := by
  obtain ⟨alone, omitted⟩ := entry_points_agree inquiring 9 ⟨0, [], none⟩ 6
  have single : ((inquiring.run 9 ⟨0, [], none⟩ [4] [5]).run 6).1.arguments = [7] := by
    decide +kernel
  have columns :
      ((inquiring.runStriped 9 ⟨0, [], none⟩ 2 [[4, 4]] [[5, 5]]).run 6).1.arguments =
        [[7, 8]] := by
    decide +kernel
  refine ⟨single, ?_, columns, ?_⟩
  · have striped := (alone [4] [5] (.inl (by decide))).1
    rw [List.map_singleton, List.map_singleton] at striped
    rw [striped]
    dsimp only [Result.inColumns]
    rw [single, List.map_singleton]
  · have dropped := (omitted 2 [[4, 4]] [[5, 5]] (by rintro function ⟨⟩; rfl)
      (by decide)).1
    rw [dropped]
    exact columns

end Linked

end Lockstep
