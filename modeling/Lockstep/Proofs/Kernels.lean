import Lockstep.Kernel
import Lockstep.Proofs.Decoding
import Mathlib.Data.List.GetD
import Mathlib.Tactic.IntervalCases

/-!
# Kernels and their scratch cells

A kernel that collects its results in scratch cells has none if the cells do
not suffice.  `Computation.kernel_total` says that this never happens for the
operands that an instruction may have: every admitted computation has results
for as many operands as it reads.

The one kernel that needs an argument is the one that gives a matrix another
extent.  It copies the matrix into a scratch matrix with columns of four cells,
which holds the identity, and from there into the result.  `Matrix.copy?_spec`
is what a copy does to each cell, whatever its stride, and `Matrix.resize?_eq`
reads the result off: entries of the matrix stay, and others are those of the
identity.
-/

namespace Lockstep

/-! ## Copies with a stride -/

namespace Matrix

universe u

variable {α : Type u}

/-- A list with the entries of a matrix in their places is that matrix. -/
theorem eq_tabulate_of_getElem? {columns rows : Nat} {entries : List α}
    {entry : Nat → Nat → α} (length : entries.length = columns * rows)
    (places : ∀ column row, column < columns → row < rows →
      entries[column * rows + row]? = some (entry column row)) :
    entries = tabulate columns rows entry := by
  apply List.ext_getElem?
  intro position
  by_cases inside : position < columns * rows
  · have positive : 0 < rows := Nat.pos_of_lt_mul_left inside
    have inColumns : position / rows < columns :=
      Nat.div_lt_of_lt_mul (Nat.mul_comm columns rows ▸ inside)
    have inRows := Nat.mod_lt position positive
    have given := places _ _ inColumns inRows
    have found := getElem?_tabulate entry inColumns inRows
    rw [Nat.div_add_mod'] at given found
    rw [given, found]
  · rw [List.getElem?_eq_none (by omega),
      List.getElem?_eq_none (by rw [length_tabulate]; omega)]

section Copy

variable {cells stride columns rows : Nat} {entry : Nat → Nat → Option α}
variable {value : Nat → Nat → α}

theorem put?_of_lt {target : Vector α cells} {position : Nat} {written : α}
    (inside : position < cells) :
    put? target position written = some (target.set position written) :=
  dif_pos inside

/-- A column that has cells is copied into them, and no other cell changes. -/
theorem column_copied {column : Nat}
    (given : ∀ row, row < rows → entry column row = some (value column row))
    (inside : ∀ row, row < rows → column * stride + row < cells)
    (target : Vector α cells) :
    ∃ result,
      (List.range rows).foldlM
          (fun target row => do put? target (column * stride + row) (← entry column row))
          target = some result ∧
        ∀ position, result[position]? =
          if column * stride ≤ position ∧ position < column * stride + rows then
            some (value column (position - column * stride))
          else target[position]? := by
  induction rows with
  | zero =>
      refine ⟨target, rfl, fun position => ?_⟩
      rw [if_neg (by omega)]
  | succ rows induction =>
      obtain ⟨before, copied, places⟩ := induction
        (fun row inRows => given row (Nat.lt_succ_of_lt inRows))
        (fun row inRows => inside row (Nat.lt_succ_of_lt inRows))
      have room := inside rows (Nat.lt_succ_self rows)
      refine ⟨before.set (column * stride + rows) (value column rows), ?_, ?_⟩
      · rw [List.range_succ, List.foldlM_append, copied]
        simp [given rows (Nat.lt_succ_self rows), put?_of_lt room]
      · intro position
        rw [Vector.getElem?_set]
        by_cases here : column * stride + rows = position
        · have covered : column * stride ≤ position ∧
              position < column * stride + (rows + 1) := by omega
          have step : position - column * stride = rows := by omega
          rw [if_pos here, if_pos covered, step]
        · rw [if_neg here, places]
          have same : (column * stride ≤ position ∧ position < column * stride + rows) ↔
              (column * stride ≤ position ∧
                position < column * stride + (rows + 1)) := by omega
          simp only [same]

/--
A copy succeeds if its entries and its cells exist.  With rows that do not exceed
the stride every column has cells of its own, so that each cell holds its entry
in the end, and the cells between the columns are as before.
-/
theorem copy?_spec (narrow : rows ≤ stride)
    (given : ∀ column row, column < columns → row < rows →
      entry column row = some (value column row))
    (inside : ∀ column row, column < columns → row < rows → column * stride + row < cells)
    (target : Vector α cells) :
    ∃ result, copy? stride columns rows entry target = some result ∧
      ∀ column row, row < stride →
        result[column * stride + row]? =
          if column < columns ∧ row < rows then some (value column row)
          else target[column * stride + row]? := by
  induction columns with
  | zero =>
      refine ⟨target, rfl, fun column row _ => ?_⟩
      rw [if_neg (by omega)]
  | succ columns induction =>
      obtain ⟨before, copied, places⟩ := induction
        (fun column row inColumns => given column row (Nat.lt_succ_of_lt inColumns))
        (fun column row inColumns => inside column row (Nat.lt_succ_of_lt inColumns))
      obtain ⟨result, last, cellsOf⟩ := column_copied
        (fun row => given columns row (Nat.lt_succ_self columns))
        (fun row => inside columns row (Nat.lt_succ_self columns)) before
      refine ⟨result, ?_, ?_⟩
      · unfold copy? at copied ⊢
        rw [List.range_succ, List.foldlM_append, copied]
        exact (bind_pure _).trans last
      · intro column row inStride
        rw [cellsOf, places column row inStride]
        rcases Nat.lt_trichotomy column columns with earlier | rfl | later
        · have ends : column * stride + row < columns * stride :=
            place_lt earlier inStride
          rw [if_neg (by omega)]
          simp only [earlier, Nat.lt_succ_of_lt earlier]
        · have step : column * stride + row - column * stride = row := by omega
          simp only [Nat.lt_irrefl, false_and, if_false, Nat.lt_succ_self, true_and, step]
          by_cases inRows : row < rows
          · rw [if_pos inRows, if_pos (by omega)]
          · rw [if_neg inRows, if_neg (by omega)]
        · have starts : (columns + 1) * stride ≤ column * stride :=
            Nat.mul_le_mul_right stride later
          rw [Nat.succ_mul] at starts
          rw [if_neg (by omega), if_neg (by omega), if_neg (by omega)]

end Copy

/-! ## Another extent -/

/--
Keep the part of a matrix that lies inside the new extent, and fill the rest
from the matrix with `unit` on its diagonal and `blank` elsewhere.
-/
def resize (blank unit : α) (fromColumns fromRows toColumns toRows : Nat)
    (entries : List α) : List α :=
  tabulate toColumns toRows fun column row =>
    if column < fromColumns ∧ row < fromRows then
      entries.getD (column * fromRows + row) blank
    else if column = row then unit
    else blank

/-- The scratch matrix starts out as the identity. -/
theorem identity?_spec (blank unit : α) :
    ∃ identity, identity? blank unit = some identity ∧
      ∀ column row, column < 4 → row < 4 →
        identity[column * 4 + row]? = some (if column = row then unit else blank) := by
  refine ⟨_, rfl, ?_⟩
  intro column row inColumns inRows
  interval_cases column <;> interval_cases row <;> rfl

/--
The copies with three strides give a matrix the extent that they should if
neither extent has more than four columns or rows.
-/
theorem resize?_eq {blank unit : α} {fromColumns fromRows toColumns toRows : Nat}
    {entries : List α} (length : entries.length = fromColumns * fromRows)
    (fromSmall : fromColumns ≤ 4 ∧ fromRows ≤ 4) (toSmall : toColumns ≤ 4 ∧ toRows ≤ 4) :
    resize? blank unit fromColumns fromRows toColumns toRows entries =
      some (resize blank unit fromColumns fromRows toColumns toRows entries) := by
  obtain ⟨identity, started, units⟩ := identity?_spec blank unit
  have entriesGiven : ∀ column row, column < fromColumns → row < fromRows →
      entries[column * fromRows + row]? =
        some (entries.getD (column * fromRows + row) blank) := by
    intro column row inColumns inRows
    have place := place_lt inColumns inRows
    rw [← length] at place
    rw [List.getElem?_eq_getElem place, List.getD_eq_getElem _ _ place]
  obtain ⟨buffer, laid, buffered⟩ := copy?_spec fromSmall.2 entriesGiven
    (fun column row inColumns inRows => by
      change _ < 16
      omega) identity
  -- The scratch matrix holds every entry that the result asks for.
  have bufferGiven : ∀ column row, column < toColumns → row < toRows →
      buffer[column * 4 + row]? =
        some (if column < fromColumns ∧ row < fromRows then
            entries.getD (column * fromRows + row) blank
          else if column = row then unit
          else blank) := by
    intro column row inColumns inRows
    rw [buffered column row (by omega), units column row (by omega) (by omega)]
    split <;> rfl
  have size : toColumns * toRows ≤ 16 := Nat.mul_le_mul toSmall.1 toSmall.2
  obtain ⟨target, copied, places⟩ := copy?_spec (Nat.le_refl toRows) bufferGiven
    (fun column row inColumns inRows => (place_lt inColumns inRows).trans_le size)
    (Vector.replicate scratchCells blank)
  have fronted : front? target (toColumns * toRows) =
      some (target.toList.take (toColumns * toRows)) := if_pos size
  unfold resize?
  rw [started, Option.bind_eq_bind, Option.bind_some, laid]
  simp only [Option.bind_some, copied, fronted]
  refine congrArg some (eq_tabulate_of_getElem? ?_ fun column row inColumns inRows => ?_)
  · simpa using size
  · have place := place_lt inColumns inRows
    have found := places column row inRows
    rw [if_pos ⟨inColumns, inRows⟩] at found
    rw [List.getElem?_take, if_pos place, ← found]
    exact Vector.getElem?_toList

end Matrix

/-! ## Kernels with results -/

theorem inCells_of_le {α : Type} {cells : Nat} {values : List α}
    (enough : values.length ≤ cells) : inCells cells values = some values :=
  if_pos enough

/-- A kernel has results for as many operands as it reads. -/
def Kernel.Total (kernel : Kernel) : Prop :=
  ∀ words : List Word, words.length = kernel.operands → (kernel.eval words).isSome = true

/-- A scalar function is applied if it has results in every lane. -/
theorem isSome_lanewise {results : Nat} {function : List Word → Option (List Word)}
    {operands : List Register} :
    (lanewise results function operands).isSome = true ↔
      ∀ lane, (function (laneWords operands lane)).isSome = true := by
  constructor
  · intro applied lane
    obtain ⟨registers, found⟩ := Option.isSome_iff_exists.mp applied
    obtain ⟨column, answered, _⟩ := (lanewise_eq_some found).2 lane
    rw [answered]
    rfl
  · intro answers
    refine Option.isSome_iff_exists.mpr
      ⟨_, if_pos (List.all_eq_true.mpr fun column member => ?_)⟩
    obtain ⟨lane, inRange, rfl⟩ := List.getElem_of_mem member
    have bound : lane < laneCount := by simpa [Lanes.toList] using inRange
    simpa [Lanes.toList, Lanes.ofFn] using answers ⟨lane, bound⟩

namespace Kernel

variable {kernel : Kernel}

theorem Total.apply (total : kernel.Total) {operands : List Register}
    (counted : operands.length = kernel.operands) :
    ∃ registers, kernel.apply operands = some registers ∧
      registers.length = kernel.results := by
  have answers : (kernel.apply operands).isSome = true :=
    isSome_lanewise.mpr fun lane => total _ (by rw [laneWords, List.length_map, counted])
  obtain ⟨registers, applied⟩ := Option.isSome_iff_exists.mp answers
  exact ⟨registers, applied, (lanewise_eq_some applied).1⟩

/-- Whether a kernel has results depends on the number of its operands alone. -/
theorem isSome_apply_congr {left right : List Register} (same : left.length = right.length) :
    (kernel.apply left).isSome = (kernel.apply right).isSome := by
  rw [Bool.eq_iff_iff]
  refine isSome_lanewise.trans (Iff.trans ?_ isSome_lanewise.symm)
  refine forall_congr' fun lane => ?_
  rw [kernel.uniform (laneWords left lane) (laneWords right lane) (by simp [laneWords, same])]

theorem total_swizzle {source : Nat} {picks : List Nat} (few : picks.length ≤ vectorCells)
    (inside : ∀ pick ∈ picks, pick < source) : (swizzle source picks).Total := by
  intro words counted
  change (inCells vectorCells picks >>= fun cells =>
    cells.mapM fun pick => words[pick]?).isSome = true
  rw [inCells_of_le few, Option.bind_eq_bind, Option.bind_some]
  clear few
  induction picks with
  | nil => rfl
  | cons pick picks induction =>
      have here : pick < words.length := by
        rw [counted]
        exact inside pick List.mem_cons_self
      have rest := induction (fun other member => inside other (List.mem_cons_of_mem _ member))
        counted
      obtain ⟨others, found⟩ := Option.isSome_iff_exists.mp rest
      rw [List.mapM_cons, List.getElem?_eq_getElem here, found]
      rfl

theorem total_resize {fromColumns fromRows toColumns toRows : Nat}
    (fromSmall : fromColumns ≤ 4 ∧ fromRows ≤ 4) (toSmall : toColumns ≤ 4 ∧ toRows ≤ 4) :
    (resize fromColumns fromRows toColumns toRows).Total := by
  intro words counted
  exact Option.isSome_iff_exists.mpr ⟨_, Matrix.resize?_eq counted fromSmall toSmall⟩

theorem total_product {shared leftRows rightColumns : Nat}
    (small : leftRows ≤ 4 ∧ rightColumns ≤ 4) :
    (product shared leftRows rightColumns).Total := by
  intro words _
  have size : rightColumns * leftRows ≤ 16 := Nat.mul_le_mul small.2 small.1
  simpa [product, isSome_inCells, Matrix.multiply] using size

end Kernel

theorem Within.toNat_le {low high value : UInt8} (within : Within low high value) :
    value.toNat ≤ high.toNat :=
  UInt8.le_iff_toNat_le.mp within.2

/-- Every computation with admitted operands has results. -/
theorem Computation.kernel_total {computation : Computation}
    (admitted : (Instruction.compute computation).Admitted) :
    computation.kernel.Total := by
  cases computation with
  | swizzle source picks =>
      obtain ⟨_, few, counted, inside⟩ := admitted
      apply Kernel.total_swizzle
      · rw [List.length_map, counted]
        exact few.toNat_le
      · intro pick member
        obtain ⟨byte, listed, rfl⟩ := List.mem_map.mp member
        exact UInt8.lt_iff_toNat_lt.mp (inside byte listed)
  | resizeMatrix fromColumns fromRows toColumns toRows =>
      obtain ⟨columns, rows, newColumns, newRows⟩ := admitted
      exact Kernel.total_resize ⟨columns.toNat_le, rows.toNat_le⟩
        ⟨newColumns.toNat_le, newRows.toNat_le⟩
  | multiplyMatrix leftColumns leftRows rightColumns =>
      obtain ⟨_, rows, columns⟩ := admitted
      exact Kernel.total_product ⟨rows.toNat_le, columns.toNat_le⟩
  | invertMatrix order =>
      cases order <;> exact fun _ _ => rfl
  | _ =>
      exact fun _ _ => rfl

end Lockstep
