import Lockstep.Machine.Sink
import Lockstep.Proofs.Runs
import Mathlib.Data.List.Basic

/-!
# What sinks write

A sink writes into the buffers of the caller, word after word, and a write
outside of a buffer is a trap.  Buffers that are large enough are written
completely and without a failure, and the outcome is a formula: `putReturns` for
columns, and the words of the lowest lane for the buffer of a single element.

Only the outermost return writes.  `Machine.runInto_at` takes a run into a sink
apart: it is a run that does not touch the buffers, followed by the sink if it
has come to the outermost return.
-/

namespace Lockstep

variable {σ ρ α β : Type}

/-! ## Entries in place -/

theorem replaceAt_of_lt {entries : List α} {position : Nat} (inside : position < entries.length)
    (entry : α) : replaceAt entries position entry = .ok (entries.set position entry) :=
  if_pos inside

theorem writeWord_at {position : Nat} {buffer : List Word}
    (inside : position < buffer.length) (word : Word) :
    (writeWord position word).at buffer = (.ok (), buffer.set position word) := by
  unfold writeWord
  rw [Session.at_bind, Session.at_get]
  dsimp only
  rw [Session.at_bind, replaceAt_of_lt inside]
  rfl

theorem columnAt_at {position : Nat} {columns : List Column} {column : Column}
    (found : columns[position]? = some column) :
    (columnAt position).at columns = (.ok column, columns) := by
  unfold columnAt
  rw [Session.at_bind, Session.at_get]
  dsimp only
  rw [found]
  rfl

theorem writeEntry_at {position element : Nat} {columns : List Column} {column : Column}
    (found : columns[position]? = some column) (inside : element < column.length)
    (word : Word) :
    (writeEntry position element word).at columns =
      (.ok (), columns.set position (column.set element word)) := by
  unfold writeEntry
  rw [Session.at_bind, columnAt_at found]
  dsimp only
  rw [replaceAt_of_lt inside]
  rfl

theorem wordOf_of_lt (register : Register) {number : Nat} (inRange : number < laneCount) :
    wordOf register number = .ok (register.get ⟨number, inRange⟩) := by
  unfold wordOf
  rw [Lanes.get?_of_lt register inRange]
  rfl

/--
Writing some entries of a buffer, each once.  What is written to an entry may
depend on what it was before, and on nothing else of the buffer.
-/
theorem Session.at_forM_slots {slots : List Nat} {act : Nat → Session (List β) Unit}
    {change : Nat → β → β} {entries : List β} (distinct : slots.Nodup)
    (acts : ∀ slot ∈ slots, ∀ state : List β, state[slot]? = entries[slot]? →
      (act slot).at state = (.ok (), state.modify slot (change slot))) :
    (slots.forM act).at entries =
      (.ok (), entries.zipIdx.map fun (entry, slot) =>
        if slot ∈ slots then change slot entry else entry) := by
  -- The state runs ahead of the buffer, but agrees with it on the slots to come.
  suffices general : ∀ state : List β, (∀ slot ∈ slots, state[slot]? = entries[slot]?) →
      (slots.forM act).at state =
        (.ok (), state.zipIdx.map fun (entry, slot) =>
          if slot ∈ slots then change slot entry else entry) from
    general entries fun _ _ => rfl
  induction slots with
  | nil =>
      intro state _
      simp only [List.not_mem_nil, if_false]
      refine congrArg (Prod.mk _) (List.ext_getElem? fun position => ?_)
      simp
  | cons first rest induction =>
      intro state ahead
      obtain ⟨fresh, distinctRest⟩ := List.nodup_cons.mp distinct
      change (act first >>= fun _ => rest.forM act).at state = _
      rw [Session.at_bind, acts first List.mem_cons_self state (ahead first List.mem_cons_self)]
      dsimp only
      rw [induction distinctRest
        (fun slot member => acts slot (List.mem_cons_of_mem first member))]
      · refine congrArg (Prod.mk _) (List.ext_getElem? fun position => ?_)
        simp only [List.getElem?_map, List.getElem?_zipIdx, List.getElem?_modify]
        by_cases here : first = position
        · subst here
          cases state[first]? <;> simp [fresh]
        · have other : position ≠ first := fun same => here same.symm
          cases state[position]? <;> simp [here, other]
      · intro slot member
        have other : first ≠ slot := fun same => fresh (same ▸ member)
        rw [List.getElem?_modify, ← ahead slot (List.mem_cons_of_mem first member)]
        cases state[slot]? <;> simp [other]

/-- The last entry is visited in the state that the entries before it leave. -/
theorem Session.at_forM_concat {entries : List α} {last : α} {act : α → Session σ Unit}
    {state later : σ} (before : (entries.forM act).at state = (.ok (), later)) :
    ((entries ++ [last]).forM act).at state = (act last).at later := by
  have split : (entries ++ [last]).forM act =
      entries.forM act >>= fun _ => act last >>= fun _ => pure () := List.forM_append
  rw [split, Session.at_bind, before, bind_pure_unit]

/-- Visiting entries with their positions is visiting the positions. -/
theorem forM_zipIdx (values : List α) (blank : α) (act : α × Nat → Session σ Unit) :
    values.zipIdx.forM act =
      (List.range values.length).forM fun slot => act (values.getD slot blank, slot) := by
  have listed : values.zipIdx =
      (List.range values.length).map fun slot => (values.getD slot blank, slot) := by
    apply List.ext_getElem
    · simp
    · intro position inLeft inRight
      simp only [List.length_zipIdx] at inLeft
      simp [inLeft]
  rw [listed]
  exact List.forM_map

/-! ## Chunks of columns -/

/-- The column after the words of a chunk of elements have been replaced. -/
def Column.put (column : Column) (offset : Nat) (words : List Word) : Column :=
  column.take offset ++ words ++ column.drop (offset + words.length)

/-- The words of the first lanes of a register. -/
def leadingWords (register : Register) (lanes : Nat) : List Word :=
  register.toList.take lanes

theorem length_leadingWords (register : Register) (lanes : Nat) :
    (leadingWords register lanes).length = min lanes laneCount := by
  simp [leadingWords, Lanes.toList]

theorem leadingWords_succ (register : Register) {lanes : Nat} (inRange : lanes < laneCount) :
    leadingWords register (lanes + 1) =
      leadingWords register lanes ++ [register.get ⟨lanes, inRange⟩] := by
  unfold leadingWords
  rw [List.take_add_one, Lanes.toList, Vector.getElem?_toList,
    Vector.getElem?_eq_getElem inRange]
  rfl

namespace Column

variable {column : Column} {offset : Nat} {words : List Word}

theorem length_put (inside : offset + words.length ≤ column.length) :
    (column.put offset words).length = column.length := by
  unfold put
  simp only [List.length_append, List.length_take, List.length_drop]
  omega

theorem put_nil (column : Column) (offset : Nat) : column.put offset [] = column := by
  simp [put]

/-- A chunk is replaced word by word. -/
theorem set_put (inside : offset + words.length < column.length) (word : Word) :
    (column.put offset words).set (offset + words.length) word =
      column.put offset (words ++ [word]) := by
  have split : column.drop (offset + words.length) =
      column[offset + words.length] :: column.drop (offset + words.length + 1) :=
    List.drop_eq_getElem_cons inside
  have before : (column.take offset ++ words).length = offset + words.length := by
    rw [List.length_append, List.length_take]
    omega
  unfold put
  rw [split, List.set_append_right _ _ (by omega), before, Nat.sub_self, List.set_cons_zero,
    List.length_append, List.length_singleton]
  simp [Nat.add_assoc]

end Column

/-- Writing the words of lanes one after the other replaces a chunk of a column. -/
theorem writeLanes_at {slot offset lanes : Nat} {columns : List Column} {column : Column}
    {register : Register} {word : Nat → Except Failure Word}
    (words : ∀ lane (inRange : lane < laneCount), lane < lanes →
      word lane = .ok (register.get ⟨lane, inRange⟩))
    (found : columns[slot]? = some column) (inside : offset + lanes ≤ column.length)
    (narrow : lanes ≤ laneCount) :
    ((List.range lanes).forM fun lane => do
        let word ← Session.ofExcept (word lane)
        writeEntry slot (offset + lane) word).at columns =
      (.ok (), columns.modify slot (Column.put · offset (leadingWords register lanes))) := by
  induction lanes with
  | zero =>
      refine congrArg (Prod.mk _) (List.ext_getElem? fun position => ?_)
      rw [List.getElem?_modify]
      change _ = Option.map _ columns[position]?
      cases columns[position]? <;> simp [leadingWords, Column.put_nil]
  | succ lanes induction =>
      have inRange : lanes < laneCount := narrow
      have length : (leadingWords register lanes).length = lanes := by
        rw [length_leadingWords]
        omega
      have so := induction
        (fun lane inRange small => words lane inRange (Nat.lt_succ_of_lt small))
        (by omega) (by omega)
      have here : (columns.modify slot
          (Column.put · offset (leadingWords register lanes)))[slot]? =
            some (column.put offset (leadingWords register lanes)) := by
        rw [List.getElem?_modify, found]
        simp
      have room : offset + lanes <
          (column.put offset (leadingWords register lanes)).length := by
        rw [Column.length_put (by omega)]
        omega
      rw [List.range_succ, Session.at_forM_concat so,
        words lanes inRange (Nat.lt_succ_self lanes), Session.at_bind, Session.at_ofExcept]
      dsimp only
      have chunk := @Column.set_put column offset (leadingWords register lanes) (by omega)
        (register.get ⟨lanes, inRange⟩)
      rw [length, ← leadingWords_succ] at chunk
      rw [writeEntry_at here room, chunk]
      refine congrArg (Prod.mk _) (List.ext_getElem? fun position => ?_)
      rw [List.getElem?_set, List.getElem?_modify, List.getElem?_modify]
      by_cases same : slot = position
      · subst same
        obtain ⟨within, entry⟩ := List.getElem?_eq_some_iff.mp found
        simp [within, entry]
      · cases columns[position]? <;> simp [same]

/-- The return columns after a chunk has been written. -/
def putReturns (offset lanes : Nat) (returned : List Register)
    (returns : List Column) : List Column :=
  List.zipWith (fun column register => Column.put column offset (leadingWords register lanes))
    returns returned

/-! ## Sinks -/

namespace Sink

variable {offset lanes : Nat} {returned : List Register}

/-- A buffer with a word for each register receives the words of the lowest lane. -/
theorem interleaved_at {buffer : List Word} (counted : buffer.length = returned.length) :
    (interleaved 1 returned).at buffer = (.ok (), returned.map (·.get 0)) := by
  have writes : ∀ slot ∈ List.range returned.length, ∀ state : List Word,
      state[slot]? = buffer[slot]? →
        ((List.range 1).forM fun lane => do
            let word ← Session.ofExcept (wordOf (returned.getD slot .zero) lane)
            writeWord (lane * returned.length + slot) word).at state =
          (.ok (), state.modify slot fun _ => (returned.getD slot .zero).get 0) := by
    intro slot listed state same
    have inBuffer : slot < buffer.length := by
      rw [counted]
      exact List.mem_range.mp listed
    have inside : 0 * returned.length + slot < state.length := by
      rw [Nat.zero_mul, Nat.zero_add]
      rw [List.getElem?_eq_getElem inBuffer] at same
      exact (List.getElem?_eq_some_iff.mp same).1
    refine (@Session.at_forM_concat _ _ [] _ _ _ _ rfl).trans ?_
    rw [Session.at_bind, wordOf_of_lt _ (by decide), Session.at_ofExcept]
    dsimp only
    rw [writeWord_at inside, Nat.zero_mul, Nat.zero_add, List.set_eq_modify]
    rfl
  unfold interleaved
  rw [Session.at_bind, Session.at_get]
  dsimp only
  rw [if_neg (by omega), forM_zipIdx returned .zero,
    Session.at_forM_slots List.nodup_range writes]
  refine congrArg (Prod.mk _) (List.ext_getElem? fun position => ?_)
  by_cases inside : position < returned.length
  · simp [inside, counted]
  · rw [List.getElem?_eq_none (by simpa [counted] using inside),
      List.getElem?_eq_none (by simpa using inside)]

/-- Columns that hold the chunk receive a register each. -/
theorem striped_at {columns : List Column} (counted : columns.length = returned.length)
    (inside : ∀ column ∈ columns, offset + lanes ≤ column.length)
    (narrow : lanes ≤ laneCount) :
    (striped offset lanes returned).at columns =
      (.ok (), putReturns offset lanes returned columns) := by
  have writes : ∀ slot ∈ List.range returned.length, ∀ state : List Column,
      state[slot]? = columns[slot]? →
        (do
          let held := (← columnAt slot).length
          if held < offset + lanes then
            throw (.fault (.shape (.returnColumn slot held (offset + lanes))))
          (List.range lanes).forM fun lane => do
            let word ← Session.ofExcept (wordOf (returned.getD slot .zero) lane)
            writeEntry slot (offset + lane) word : Session (List Column) Unit).at state =
          (.ok (), state.modify slot
            (Column.put · offset (leadingWords (returned.getD slot .zero) lanes))) := by
    intro slot listed state same
    have inColumns : slot < columns.length := by
      rw [counted]
      exact List.mem_range.mp listed
    rw [List.getElem?_eq_getElem inColumns] at same
    have long := inside _ (List.getElem_mem inColumns)
    rw [Session.at_bind, columnAt_at same]
    dsimp only
    rw [if_neg (by omega)]
    exact writeLanes_at (fun lane inRange _ => wordOf_of_lt _ inRange) same long narrow
  unfold striped
  rw [Session.at_bind, Session.at_get]
  dsimp only
  rw [if_neg (by omega), forM_zipIdx returned .zero,
    Session.at_forM_slots List.nodup_range writes]
  refine congrArg (Prod.mk _) (List.ext_getElem? fun position => ?_)
  unfold putReturns
  by_cases inRange : position < returned.length
  · simp [inRange, counted]
  · rw [List.getElem?_eq_none (by simpa [counted] using inRange),
      List.getElem?_eq_none (by simpa [counted] using inRange)]

end Sink

/-! ## Runs into sinks -/

namespace Machine

variable {batch : Batch σ} {sink : Sink ρ}

/-- What a step into a sink makes of a step that leaves the buffers alone. -/
def sunk (sink : Sink ρ) (buffers : ρ) :
    Except Failure Flow × σ → Except Failure Flow × σ × ρ
  | (.ok (.done final returned), later) =>
      match (sink returned).at buffers with
      | (.ok (), written) => (.ok (.done final returned), later, written)
      | (.error failure, written) => (.error failure, later, written)
  | (outcome, later) => (outcome, later, buffers)

theorem stepInto_at (machine : Machine) (host : σ) (buffers : ρ) :
    (machine.stepInto batch sink).at (host, buffers) =
      sunk sink buffers (machine.stepAt batch host) := by
  have hosted : (machine.step batch).onHost.at (host, buffers) =
      ((machine.stepAt batch host).1, (machine.stepAt batch host).2, buffers) :=
    rfl
  unfold stepInto
  rw [Session.at_bind, hosted]
  rcases machine.stepAt batch host with ⟨failure | after | ⟨final, returned⟩, later⟩
  · rfl
  · rfl
  · have written : ((sink returned).onBuffers : Session (σ × ρ) Unit).at (later, buffers) =
        (((sink returned).at buffers).1, later, ((sink returned).at buffers).2) :=
      rfl
    change ((sink returned).onBuffers >>= fun _ =>
      pure (Flow.done final returned) : Session (σ × ρ) Flow).at (later, buffers) = _
    rw [Session.at_bind, written, sunk]
    rcases (sink returned).at buffers with ⟨failure | done, left⟩ <;> rfl

/--
A run into a sink is a run that leaves the buffers alone, up to the outermost
return; there the sink writes, and its failure is the failure of the run.
-/
theorem runInto_at (budget : Nat) (machine : Machine) (host : σ) (buffers : ρ) :
    (runInto batch sink budget machine).run (host, buffers) =
      match machine.runAt batch budget host with
      | (some (.ok (final, returned)), later) =>
          match (sink returned).at buffers with
          | (.ok (), written) => (some (.ok (final, returned)), later, written)
          | (.error failure, written) => (some (.error failure), later, written)
      | (result, later) => (result, later, buffers) := by
  induction budget generalizing machine host with
  | zero =>
      rfl
  | succ budget induction =>
      have stepped := @stepInto_at σ ρ batch sink machine host buffers
      unfold runInto at induction ⊢
      unfold Session.at at stepped
      rw [iterate, StateT.run_bind, stepped, runAt_succ]
      rcases machine.stepAt batch host with ⟨failure | after | ⟨final, returned⟩, later⟩
      · rfl
      · exact induction after later
      · rw [sunk]
        dsimp only
        rcases (sink returned).at buffers with ⟨failure | done, left⟩ <;> rfl

end Machine

end Lockstep
