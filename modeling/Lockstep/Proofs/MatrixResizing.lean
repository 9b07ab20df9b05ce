import Lockstep.Proofs.StaleRegisters
import Mathlib.Data.List.GetD

/-!
# Matrices of another extent

A matrix that gets another extent keeps the entries that both extents have, and
the others are those of the identity.  So a matrix may go by way of any extent
that holds what its first and its last extent share, and it comes back
unharmed from any extent that is as large as its own.

The kernel copies words with three strides, lane by lane, by way of a scratch
matrix of four columns and four rows.  `Kernel.apply_resize` says that for
extents that fit into it this amounts to one formula on registers, and all that
follows is about registers on the stack: those beneath the matrix stay as they
are, and those that the matrix leaves behind are stale.
-/

namespace Lockstep

/-! ## Entries of another extent -/

namespace Matrix

variable {α β : Type}

theorem map_tabulate (function : α → β) (columns rows : Nat) (entry : Nat → Nat → α) :
    (tabulate columns rows entry).map function =
      tabulate columns rows fun column row => function (entry column row) := by
  simp [tabulate, List.map_flatMap, Function.comp_def]

/-- A list with one entry for each position is the matrix of its entries. -/
theorem eq_tabulate {columns rows : Nat} {entries : List α} (default : α)
    (length : entries.length = columns * rows) :
    tabulate columns rows (fun column row => entries.getD (column * rows + row) default) =
      entries := by
  refine (eq_tabulate_of_getElem? length fun column row inColumns inRows => ?_).symm
  have place := place_lt inColumns inRows
  rw [← length] at place
  rw [List.getElem?_eq_getElem place, List.getD_eq_getElem _ _ place]

section Resize

variable {blank unit : α} {entries : List α}

@[simp]
theorem length_resize (fromColumns fromRows toColumns toRows : Nat) :
    (resize blank unit fromColumns fromRows toColumns toRows entries).length =
      toColumns * toRows :=
  length_tabulate _ _ _

/-- Entries of the matrix stay, and others are those of the identity. -/
theorem getElem?_resize {fromColumns fromRows toColumns toRows column row : Nat}
    (inColumns : column < toColumns) (inRows : row < toRows) :
    (resize blank unit fromColumns fromRows toColumns toRows entries)[
        column * toRows + row]? =
      some (if column < fromColumns ∧ row < fromRows then
          entries.getD (column * fromRows + row) blank
        else if column = row then unit
        else blank) :=
  getElem?_tabulate _ inColumns inRows

/-- The same formula may be read before or after a function of the entries. -/
theorem map_resize (function : α → β) (fromColumns fromRows toColumns toRows : Nat) :
    (resize blank unit fromColumns fromRows toColumns toRows entries).map function =
      resize (function blank) (function unit) fromColumns fromRows toColumns toRows
        (entries.map function) := by
  rw [resize, map_tabulate]
  refine tabulate_congr fun column row _ _ => ?_
  rw [List.getD_map]
  split
  · rfl
  · split <;> rfl

/-- An extent on the way is not noticed if it holds what the first and the last share. -/
theorem resize_resize {firstColumns firstRows columns rows lastColumns lastRows : Nat}
    (inColumns : min firstColumns lastColumns ≤ columns)
    (inRows : min firstRows lastRows ≤ rows) :
    resize blank unit columns rows lastColumns lastRows
        (resize blank unit firstColumns firstRows columns rows entries) =
      resize blank unit firstColumns firstRows lastColumns lastRows entries := by
  refine tabulate_congr fun column row inLastColumns inLastRows => ?_
  by_cases inside : column < columns ∧ row < rows
  · rw [if_pos inside, List.getD_eq_getElem?_getD, getElem?_resize inside.1 inside.2,
      Option.getD_some]
  · have outside : ¬ (column < firstColumns ∧ row < firstRows) := by omega
    rw [if_neg inside, if_neg outside]

theorem resize_self {columns rows : Nat} (length : entries.length = columns * rows) :
    resize blank unit columns rows columns rows entries = entries := by
  rw [resize, ← eq_tabulate blank length]
  refine tabulate_congr fun column row inColumns inRows => ?_
  rw [if_pos ⟨inColumns, inRows⟩, eq_tabulate blank length]

end Resize

end Matrix

/-! ## Registers of another extent -/

/-- Registers are the results of a kernel if their words are, lane by lane. -/
theorem lanewise_eq {results : Nat} {function : List Word → Option (List Word)}
    {operands registers : List Register} (length : registers.length = results)
    (words : ∀ lane,
      function (laneWords operands lane) = some (laneWords registers lane)) :
    lanewise results function operands = some registers := by
  have answers : (lanewise results function operands).isSome = true :=
    isSome_lanewise.mpr fun lane => by rw [words, Option.isSome_some]
  obtain ⟨found, applied⟩ := Option.isSome_iff_exists.mp answers
  obtain ⟨counted, columns⟩ := lanewise_eq_some applied
  rw [applied, Option.some_inj]
  apply List.ext_getElem
  · rw [counted, length]
  · intro position inRange within
    refine Lanes.ext_get fun lane => ?_
    obtain ⟨column, answered, entries⟩ := columns lane
    have inWords : position < (laneWords registers lane).length := by
      simpa [laneWords] using within
    obtain rfl := Option.some.inj (answered.symm.trans (words lane))
    rw [entries position inRange, List.getD_eq_getElem _ _ inWords]
    simp [laneWords]

/-- The kernel that gives a matrix another extent does so register by register. -/
theorem Kernel.apply_resize {fromColumns fromRows toColumns toRows : Nat}
    {operands : List Register} (length : operands.length = fromColumns * fromRows)
    (fromSmall : fromColumns ≤ 4 ∧ fromRows ≤ 4) (toSmall : toColumns ≤ 4 ∧ toRows ≤ 4) :
    (Kernel.resize fromColumns fromRows toColumns toRows).apply operands =
      some (Matrix.resize .zero (.splat Binary32.one) fromColumns fromRows toColumns toRows
        operands) := by
  refine lanewise_eq (Matrix.length_resize _ _ _ _) fun lane => ?_
  have counted : (laneWords operands lane).length = fromColumns * fromRows :=
    (List.length_map _).trans length
  have words : laneWords (Matrix.resize .zero (.splat Binary32.one) fromColumns fromRows
      toColumns toRows operands) lane =
        Matrix.resize 0 Binary32.one fromColumns fromRows toColumns toRows
          (laneWords operands lane) := by
    rw [laneWords, Matrix.map_resize, Lanes.get_zero, Lanes.get_splat]
    rfl
  rw [words]
  exact Matrix.resize?_eq counted fromSmall toSmall

/-! ## Results in the place of operands -/

namespace Machine

variable {machine : Machine} {results others : List Register}

/-- What has just been pushed is on top. -/
theorem topmost_pushed (enough : machine.top + results.length ≤ stackCapacity) :
    (machine.pushed results).topmost results.length = results := by
  apply List.ext_getElem
  · simp
  · intro step inRange within
    rw [getElem_topmost, cell]
    change (machine.registers.overwrite machine.top results).register
      (machine.top + results.length - results.length + step) = _
    rw [Nat.add_sub_cancel, RegisterFile.register_overwrite_add _ enough within]

/-- Pushing over what was pushed and dropped leaves stale registers at most. -/
theorem agreesBelowTop_pushed_again
    (enough : machine.top + results.length ≤ stackCapacity)
    (room : machine.top + others.length ≤ stackCapacity) :
    (machine.pushed others).AgreesBelowTop
      (((machine.pushed results).drop results.length).pushed others) := by
  have lowered : ((machine.pushed results).drop results.length).top = machine.top :=
    Nat.add_sub_cancel ..
  refine ⟨congrArg (· + others.length) lowered, ?_, rfl, rfl, rfl, rfl⟩
  intro position below
  change position < machine.top + others.length at below
  change ((machine.registers.overwrite machine.top results).overwrite _ others).register
    position = (machine.registers.overwrite machine.top others).register position
  rw [lowered, RegisterFile.register_overwrite _ _ _ room,
    RegisterFile.register_overwrite _ _ _ room]
  split
  · rfl
  · exact RegisterFile.register_overwrite_of_lt _ enough (by omega)

/-- Operands that are put back where they were have not been touched. -/
theorem agreesBelowTop_restored {count : Nat} (capacity : machine.top ≤ stackCapacity)
    (present : count ≤ machine.top) :
    machine.AgreesBelowTop ((machine.drop count).pushed (machine.topmost count)) := by
  have total : machine.top - count + count = machine.top := Nat.sub_add_cancel present
  refine ⟨?_, ?_, rfl, rfl, rfl, rfl⟩
  · change machine.top - count + (machine.topmost count).length = machine.top
    rw [length_topmost, total]
  · intro position below
    change (machine.registers.overwrite (machine.top - count)
      (machine.topmost count)).register position = _
    have inside : machine.top - count + (machine.topmost count).length ≤ stackCapacity := by
      rw [length_topmost, total]
      exact capacity
    by_cases beneath : position < machine.top - count
    · exact RegisterFile.register_overwrite_of_lt _ inside beneath
    · obtain ⟨step, rfl⟩ := Nat.exists_eq_add_of_le (Nat.le_of_not_lt beneath)
      rw [RegisterFile.register_overwrite_add _ inside (by rw [length_topmost]; omega),
        getElem_topmost]
      rfl

end Machine

/-! ## Matrices on the stack -/

/-- The numbers of columns and of rows of a matrix, which are two, three or four. -/
structure Extent where
  columns : UInt8
  rows : UInt8
  inColumns : Within 2 4 columns := by decide
  inRows : Within 2 4 rows := by decide

namespace Extent

/-- A matrix fits into a scratch matrix. -/
theorem small (extent : Extent) : extent.columns.toNat ≤ 4 ∧ extent.rows.toNat ≤ 4 :=
  ⟨extent.inColumns.toNat_le, extent.inRows.toNat_le⟩

/-- The number of entries. -/
def size (extent : Extent) : Nat :=
  extent.columns.toNat * extent.rows.toNat

/-- The instruction that gives a matrix another extent. -/
def conversion (source target : Extent) : Instruction :=
  .compute (.resizeMatrix source.columns source.rows target.columns target.rows)

/-- The registers of a matrix once it has another extent. -/
def convert (source target : Extent) (entries : List Register) : List Register :=
  Matrix.resize .zero (.splat Binary32.one) source.columns.toNat source.rows.toNat
    target.columns.toNat target.rows.toNat entries

/-- An extent holds the positions that two extents share. -/
structure HoldsShared (between source target : Extent) : Prop where
  columns : min source.columns.toNat target.columns.toNat ≤ between.columns.toNat
  rows : min source.rows.toNat target.rows.toNat ≤ between.rows.toNat

/-- An extent is at least as large as another in both directions. -/
structure Holds (large small : Extent) : Prop where
  columns : small.columns.toNat ≤ large.columns.toNat
  rows : small.rows.toNat ≤ large.rows.toNat

variable {source target last : Extent} {entries : List Register}

@[simp]
theorem length_convert : (source.convert target entries).length = target.size :=
  Matrix.length_resize _ _ _ _

theorem getElem?_convert (entries : List Register) {column row : Nat}
    (inColumns : column < target.columns.toNat) (inRows : row < target.rows.toNat) :
    (source.convert target entries)[column * target.rows.toNat + row]? =
      some (if column < source.columns.toNat ∧ row < source.rows.toNat then
          entries.getD (column * source.rows.toNat + row) .zero
        else if column = row then .splat Binary32.one
        else .zero) :=
  Matrix.getElem?_resize inColumns inRows

theorem convert_convert (holds : target.HoldsShared source last) :
    target.convert last (source.convert target entries) = source.convert last entries :=
  Matrix.resize_resize holds.columns holds.rows

theorem convert_self (length : entries.length = source.size) :
    source.convert source entries = entries :=
  Matrix.resize_self length

end Extent

namespace Machine

variable {σ : Type} {batch : Batch σ} {host : σ} {machine : Machine}
variable {source target last : Extent}

/-- The machine once the matrix on top of its stack has another extent. -/
def converted (machine : Machine) (source target : Extent) : Machine :=
  (machine.drop source.size).pushed
    (source.convert target (machine.topmost source.size))

/-- A matrix that is there gets another extent if there is room for it. -/
theorem execute_conversion (capacity : machine.top ≤ stackCapacity)
    (present : machine.current.floor + source.size ≤ machine.top)
    (room : machine.top - source.size + target.size ≤ stackCapacity) :
    (machine.execute batch (source.conversion target)).at host =
      (.ok (.next (machine.converted source target)), host) := by
  have computed : machine.compute (Kernel.resize source.columns.toNat source.rows.toNat
      target.columns.toNat target.rows.toNat) =
        .ok (machine.converted source target) := by
    have applied := Kernel.apply_resize (length_topmost machine source.size) source.small
      target.small
    unfold compute
    rw [show (Kernel.resize source.columns.toNat source.rows.toNat target.columns.toNat
      target.rows.toNat).operands = source.size from rfl, peek_of_capacity capacity present,
      ok_bind, applied]
    change (machine.drop source.size).push _ = _
    rw [push_eq, Matrix.length_resize]
    exact if_pos room
  change (Session.ofExcept (Except.map Flow.next (machine.compute _))).at host = _
  rw [Session.at_ofExcept]
  exact congrArg (fun result => (Except.map Flow.next result, host)) computed

/-- A matrix on the stack has another extent, and nothing beneath it has changed. -/
structure Resized (source target : Extent) (before after : Machine) : Prop where
  /-- The top has moved by the difference of the sizes. -/
  top : after.top + source.size = before.top + target.size
  beneath : ∀ position, position < before.top - source.size →
    after.registers.register position = before.registers.register position
  /-- Entries of the matrix stay, and others are those of the identity. -/
  entries : ∀ column row, column < target.columns.toNat → row < target.rows.toNat →
    after.registers.register
        (before.top - source.size + (column * target.rows.toNat + row)) =
      if column < source.columns.toNat ∧ row < source.rows.toNat then
        before.registers.register
          (before.top - source.size + (column * source.rows.toNat + row))
      else if column = row then .splat Binary32.one
      else .zero
  globals : after.globals = before.globals
  predicates : after.predicates = before.predicates
  current : after.current = before.current
  callers : after.callers = before.callers

theorem resized_converted (present : source.size ≤ machine.top)
    (room : machine.top - source.size + target.size ≤ stackCapacity) :
    Resized source target machine (machine.converted source target) := by
  have inside : machine.top - source.size +
      (source.convert target (machine.topmost source.size)).length ≤ stackCapacity := by
    rw [Extent.length_convert]
    exact room
  refine ⟨?_, ?_, ?_, rfl, rfl, rfl, rfl⟩
  · change machine.top - source.size +
      (source.convert target (machine.topmost source.size)).length + source.size = _
    rw [Extent.length_convert]
    omega
  · intro position below
    exact RegisterFile.register_overwrite_of_lt _ inside below
  · intro column row inColumns inRows
    obtain ⟨inList, entry⟩ := List.getElem?_eq_some_iff.mp
      (Extent.getElem?_convert (machine.topmost source.size) inColumns inRows)
    have written := RegisterFile.register_overwrite_add machine.registers inside inList
    refine (written.trans entry).trans ?_
    split
    · rename_i kept
      have inMatrix : column * source.rows.toNat + row <
          (machine.topmost source.size).length := by
        rw [length_topmost]
        exact Matrix.place_lt kept.1 kept.2
      rw [List.getD_eq_getElem _ _ inMatrix, getElem_topmost]
      rfl
    · rfl

/-- By way of another extent a matrix becomes what it becomes directly. -/
theorem converted_converted (holds : target.HoldsShared source last)
    (room : machine.top - source.size + target.size ≤ stackCapacity)
    (lastRoom : machine.top - source.size + last.size ≤ stackCapacity) :
    (machine.converted source last).AgreesBelowTop
      ((machine.converted source target).converted target last) := by
  have lengths : (source.convert target (machine.topmost source.size)).length =
      target.size := Extent.length_convert
  have enough : (machine.drop source.size).top +
      (source.convert target (machine.topmost source.size)).length ≤ stackCapacity := by
    rw [lengths]
    exact room
  have topmost : (machine.converted source target).topmost target.size =
      source.convert target (machine.topmost source.size) := by
    rw [← lengths]
    exact topmost_pushed enough
  have again := @agreesBelowTop_pushed_again (machine.drop source.size)
    (source.convert target (machine.topmost source.size))
    (source.convert last (machine.topmost source.size)) enough (by
      rw [Extent.length_convert]
      exact lastRoom)
  rw [lengths] at again
  rw [converted, converted, topmost, Extent.convert_convert holds]
  exact again

/-- A matrix comes back unharmed from an extent that is as large as its own. -/
theorem converted_back (holds : target.Holds source)
    (capacity : machine.top ≤ stackCapacity) (present : source.size ≤ machine.top)
    (room : machine.top - source.size + target.size ≤ stackCapacity) :
    machine.AgreesBelowTop ((machine.converted source target).converted target source) := by
  have shared : target.HoldsShared source source :=
    ⟨(Nat.min_self _).trans_le holds.columns, (Nat.min_self _).trans_le holds.rows⟩
  have restored : machine.AgreesBelowTop (machine.converted source source) := by
    rw [converted, Extent.convert_self (length_topmost machine source.size)]
    exact agreesBelowTop_restored capacity present
  refine restored.trans (converted_converted shared room ?_)
  rw [Nat.sub_add_cancel present]
  exact capacity

/--
A matrix on the stack that gets another extent keeps the entries that both
extents have and is filled up from the identity.  By way of an extent that
holds what the first and the last extent share, it becomes what it becomes
directly; and from an extent as large as its own it comes back unharmed.
-/
theorem matrices_keep_what_extents_share (batch : Batch σ) (host : σ) (machine : Machine)
    (source target : Extent) (capacity : machine.top ≤ stackCapacity)
    (present : machine.current.floor + source.size ≤ machine.top)
    (room : machine.top - source.size + target.size ≤ stackCapacity) :
    ∃ after,
      (machine.execute batch (source.conversion target)).at host =
          (.ok (.next after), host) ∧
        Resized source target machine after ∧
        (∀ last : Extent, target.HoldsShared source last →
          machine.top - source.size + last.size ≤ stackCapacity →
            ∃ direct onward,
              (machine.execute batch (source.conversion last)).at host =
                  (.ok (.next direct), host) ∧
                (after.execute batch (target.conversion last)).at host =
                  (.ok (.next onward), host) ∧
                direct.AgreesBelowTop onward) ∧
        (target.Holds source →
          ∃ back,
            (after.execute batch (target.conversion source)).at host =
                (.ok (.next back), host) ∧
              machine.AgreesBelowTop back) := by
  have there : source.size ≤ machine.top := by omega
  have resized := resized_converted there room
  have height : (machine.converted source target).top =
      machine.top - source.size + target.size := by
    have top := resized.top
    omega
  -- The matrix that was put down is there for the next instruction.
  have onward : ∀ last : Extent, machine.top - source.size + last.size ≤ stackCapacity →
      ((machine.converted source target).execute batch (target.conversion last)).at host =
        (.ok (.next ((machine.converted source target).converted target last)), host) := by
    intro last lastRoom
    apply execute_conversion
    · rw [height]
      exact room
    · rw [resized.current, height]
      omega
    · rw [height, Nat.add_sub_cancel]
      exact lastRoom
  refine ⟨_, execute_conversion capacity present room, resized, ?_, ?_⟩
  · intro last holds lastRoom
    exact ⟨_, _, execute_conversion capacity present lastRoom, onward last lastRoom,
      converted_converted holds room lastRoom⟩
  · intro holds
    refine ⟨_, onward source ?_, converted_back holds capacity there room⟩
    rw [Nat.sub_add_cancel there]
    exact capacity

/-- A machine with a matrix of three columns and two rows above its frame. -/
def flat : Machine :=
  (booted Linked.echo 1 (.blank globalCapacity) [packWords [7]]).pushed
    (([2, 3, 5, 7, 11, 13] : List Word).map .splat)

/-- The matrix of `flat` gets a third row and a fourth column, and loses them again. -/
theorem matrices_keep_what_extents_share_flat :
    ∃ after back,
      (flat.execute consultation (Extent.conversion { columns := 3, rows := 2 }
          { columns := 4, rows := 3 })).at () =
          (.ok (.next after), ()) ∧
        after.top = 13 ∧ after.registers.register 5 = .splat 7 ∧
        after.registers.register 9 = .splat Binary32.one ∧
        after.registers.register 10 = .zero ∧
        (after.execute consultation (Extent.conversion { columns := 4, rows := 3 }
            { columns := 3, rows := 2 })).at () =
          (.ok (.next back), ()) ∧
        flat.AgreesBelowTop back := by
  obtain ⟨after, executed, resized, _, returns⟩ :=
    matrices_keep_what_extents_share consultation () flat { columns := 3, rows := 2 }
      { columns := 4, rows := 3 } (by decide) (by decide) (by decide)
  obtain ⟨back, reversed, same⟩ := returns ⟨by decide, by decide⟩
  have top : after.top + 6 = 7 + 12 := resized.top
  have kept : after.registers.register 5 = flat.registers.register 4 :=
    resized.entries 1 1 (by decide) (by decide)
  have seven : flat.registers.register 4 = .splat 7 := by decide +kernel
  have unit := resized.entries 2 2 (by decide) (by decide)
  have blank := resized.entries 3 0 (by decide) (by decide)
  exact ⟨after, back, executed, by omega, kept.trans seven, unit, blank, reversed, same⟩

end Machine

end Lockstep
