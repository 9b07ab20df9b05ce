/-!
# Column-major matrix kernels

A matrix of `columns` columns and `rows` rows is the list of its entries,
column after column: entry `(column, row)` stands at
`column * rows + row`.  The kernels are formulas over any scalar type with the
field operations, so the same definitions run on rounded numbers and can be
studied over exact ones.  The order of the operations is part of each formula,
because rounding makes it visible.

A matrix gets another extent by way of a scratch matrix with a fixed number of
cells.  A copy that addresses a cell that does not exist has no result, and
whether that happens depends on the shapes alone.
-/

namespace Lockstep.Matrix

universe u

variable {α : Type u}

/-- Visit the positions of a matrix, column after column. -/
def tabulate (columns rows : Nat) (entry : Nat → Nat → α) : List α :=
  (List.range columns).flatMap fun column =>
    (List.range rows).map fun row => entry column row

theorem tabulate_succ (columns rows : Nat) (entry : Nat → Nat → α) :
    tabulate (columns + 1) rows entry =
      tabulate columns rows entry ++ (List.range rows).map (entry columns) := by
  simp [tabulate, List.range_succ, List.flatMap_append]

@[simp]
theorem length_tabulate (columns rows : Nat) (entry : Nat → Nat → α) :
    (tabulate columns rows entry).length = columns * rows := by
  induction columns with
  | zero => simp [tabulate]
  | succ columns induction =>
      rw [tabulate_succ, List.length_append, induction, List.length_map,
        List.length_range, Nat.succ_mul]

/-- Every position has its place in the layout. -/
theorem place_lt {columns rows column row : Nat} (inColumns : column < columns)
    (inRows : row < rows) : column * rows + row < columns * rows :=
  calc column * rows + row < (column + 1) * rows := by rw [Nat.succ_mul]; omega
    _ ≤ columns * rows := Nat.mul_le_mul_right rows inColumns

/-- Entry `(column, row)` stands where the layout puts it. -/
theorem getElem?_tabulate {columns rows column row : Nat} (entry : Nat → Nat → α)
    (inColumns : column < columns) (inRows : row < rows) :
    (tabulate columns rows entry)[column * rows + row]? = some (entry column row) := by
  induction columns with
  | zero => exact absurd inColumns (Nat.not_lt_zero column)
  | succ columns induction =>
      rw [tabulate_succ]
      by_cases earlier : column < columns
      · have inside : column * rows + row < (tabulate columns rows entry).length := by
          rw [length_tabulate]
          exact place_lt earlier inRows
        rw [List.getElem?_append_left inside, induction earlier]
      · have last : column = columns := by omega
        subst last
        rw [List.getElem?_append_right (by rw [length_tabulate]; omega), length_tabulate,
          Nat.add_sub_cancel_left]
        simp [inRows]

theorem tabulate_congr {columns rows : Nat} {entry other : Nat → Nat → α}
    (same : ∀ column row, column < columns → row < rows →
      entry column row = other column row) :
    tabulate columns rows entry = tabulate columns rows other := by
  induction columns with
  | zero => rfl
  | succ columns induction =>
      rw [tabulate_succ, tabulate_succ,
        induction fun column row inColumns => same column row (Nat.lt_succ_of_lt inColumns)]
      refine congrArg _ (List.map_congr_left fun row member => ?_)
      exact same columns row (Nat.lt_succ_self columns) (List.mem_range.mp member)

/-! ## Scratch cells -/

/-- Number of cells of a scratch matrix, which has four columns of four cells each. -/
abbrev scratchCells : Nat := 16

/-- Write one cell, if it exists. -/
def put? {cells : Nat} (target : Vector α cells) (position : Nat) (entry : α) :
    Option (Vector α cells) :=
  if inside : position < cells then some (target.set position entry) else none

/--
Write entries into cells, column after column, with a given stride from one
column to the next.  There is no result if an entry or a cell does not exist.
-/
def copy? {cells : Nat} (stride columns rows : Nat) (entry : Nat → Nat → Option α)
    (target : Vector α cells) : Option (Vector α cells) :=
  (List.range columns).foldlM
    (fun target column =>
      (List.range rows).foldlM
        (fun target row => do put? target (column * stride + row) (← entry column row))
        target)
    target

/-- The scratch matrix with `unit` on its diagonal and `blank` elsewhere. -/
def identity? (blank unit : α) : Option (Vector α scratchCells) :=
  (List.range 4).foldlM (fun target step => put? target (step * 4 + step) unit)
    (Vector.replicate scratchCells blank)

/-- The first cells, if there are as many. -/
def front? {cells : Nat} (source : Vector α cells) (count : Nat) : Option (List α) :=
  if count ≤ cells then some (source.toList.take count) else none

/--
Give a matrix another extent.  The matrix is laid over the identity in a scratch
matrix, and the part inside the new extent is copied out of it.  The columns lie
`fromRows` apart in the matrix, four apart in the scratch matrix, and `toRows`
apart in the result.
-/
def resize? (blank unit : α) (fromColumns fromRows toColumns toRows : Nat)
    (entries : List α) : Option (List α) := do
  let identity ← identity? blank unit
  let buffer ← copy? 4 fromColumns fromRows
    (fun column row => entries[column * fromRows + row]?) identity
  let target ← copy? toRows toColumns toRows
    (fun column row => buffer[column * 4 + row]?) (Vector.replicate scratchCells blank)
  front? target (toColumns * toRows)

section Shapes

variable {β α' β' : Type u} {γ : Type}

/-- Whether a partial computation succeeds may not depend on what it carries. -/
theorem isSome_bind_congr {first : Option α} {second : Option β} {next : α → Option α'}
    {other : β → Option β'} (begun : first.isSome = second.isSome)
    (continued : ∀ left right, (next left).isSome = (other right).isSome) :
    (first >>= next).isSome = (second >>= other).isSome := by
  cases first with
  | none =>
      cases second with
      | none => rfl
      | some right => cases begun
  | some left =>
      cases second with
      | none => cases begun
      | some right => exact continued left right

theorem isSome_foldlM_congr {step : α → γ → Option α} {other : β → γ → Option β}
    {entries : List γ}
    (same : ∀ first second entry, (step first entry).isSome = (other second entry).isSome)
    (first : α) (second : β) :
    (entries.foldlM step first).isSome = (entries.foldlM other second).isSome := by
  induction entries generalizing first second with
  | nil => rfl
  | cons entry entries induction =>
      rw [List.foldlM_cons, List.foldlM_cons]
      exact isSome_bind_congr (same first second entry) induction

theorem isSome_put? {cells : Nat} (target : Vector α cells) (position : Nat) (entry : α) :
    (put? target position entry).isSome = decide (position < cells) := by
  unfold put?
  split <;> simp [*]

theorem isSome_copy?_congr {cells stride columns rows : Nat}
    {entry : Nat → Nat → Option α} {other : Nat → Nat → Option β}
    (same : ∀ column row, (entry column row).isSome = (other column row).isSome)
    (first : Vector α cells) (second : Vector β cells) :
    (copy? stride columns rows entry first).isSome =
      (copy? stride columns rows other second).isSome := by
  refine isSome_foldlM_congr (fun first second column => ?_) first second
  refine isSome_foldlM_congr (fun first second row => ?_) first second
  refine isSome_bind_congr (same column row) fun left right => ?_
  rw [isSome_put?, isSome_put?]

/-- Whether a matrix gets another extent depends on its shape alone. -/
theorem isSome_resize?_congr {blank unit : α} {fromColumns fromRows toColumns toRows : Nat}
    {left right : List α} (same : left.length = right.length) :
    (resize? blank unit fromColumns fromRows toColumns toRows left).isSome =
      (resize? blank unit fromColumns fromRows toColumns toRows right).isSome := by
  refine isSome_bind_congr rfl fun first second => ?_
  refine isSome_bind_congr (isSome_copy?_congr (fun column row => ?_) first second)
    fun first second => ?_
  · rw [Bool.eq_iff_iff]
    simp [same]
  refine isSome_bind_congr (isSome_copy?_congr (fun column row => ?_) _ _)
    fun first second => ?_
  · rw [Bool.eq_iff_iff]
    simp
  · unfold front?
    split <;> rfl

end Shapes

/-- The matrix with a given entry on its diagonal and `blank` elsewhere. -/
def diagonal (blank : α) (columns rows : Nat) (entry : α) : List α :=
  tabulate columns rows fun column row => if column = row then entry else blank

section Arithmetic

variable [Add α] [Sub α] [Mul α] [Div α] [Neg α] [OfNat α 0] [OfNat α 1]

/--
The product of a matrix with `shared` columns and `leftRows` rows and a matrix
with `rightColumns` columns and `shared` rows.  Each entry sums its products
from zero, first the first column of the left matrix.
-/
def multiply (shared leftRows rightColumns : Nat) (left right : List α) : List α :=
  tabulate rightColumns leftRows fun column row =>
    (List.range shared).foldl
      (fun total step =>
        total + left.getD (step * leftRows + row) 0 *
          right.getD (column * shared + step) 0)
      0

/-- The determinant of a matrix of order two. -/
def determinant2 (m : Vector α 4) : α :=
  m[0] * m[3] - m[1] * m[2]

/-- The inverse of a matrix of order two. -/
def invert2 (m : Vector α 4) : Vector α 4 :=
  let scale := 1 / determinant2 m
  #v[m[3] * scale, -m[1] * scale, -m[2] * scale, m[0] * scale]

/-- The determinant of a matrix of order three. -/
def determinant3 (m : Vector α 9) : α :=
  m[0] * m[4] * m[8] + m[3] * m[7] * m[2] + m[6] * m[1] * m[5]
    - m[0] * m[7] * m[5] - m[3] * m[1] * m[8] - m[6] * m[4] * m[2]

/-- The inverse of a matrix of order three. -/
def invert3 (m : Vector α 9) : Vector α 9 :=
  let scale := 1 / determinant3 m
  #v[(m[4] * m[8] - m[7] * m[5]) * scale,
    (m[7] * m[2] - m[1] * m[8]) * scale,
    (m[1] * m[5] - m[4] * m[2]) * scale,
    (m[6] * m[5] - m[3] * m[8]) * scale,
    (m[0] * m[8] - m[6] * m[2]) * scale,
    (m[3] * m[2] - m[0] * m[5]) * scale,
    (m[3] * m[7] - m[6] * m[4]) * scale,
    (m[6] * m[1] - m[0] * m[7]) * scale,
    (m[0] * m[4] - m[3] * m[1]) * scale]

/--
The minors of order two of a matrix of order four: `low` of its first two
columns and `high` of its last two, each for the row pairs 01, 02, 03, 12, 13
and 23.
-/
structure Minors (α : Type u) where
  /-- Minors of columns 0 and 1. -/
  low : Vector α 6
  /-- Minors of columns 2 and 3. -/
  high : Vector α 6

/-- The minors of order two of two neighbouring columns. -/
def columnMinors (a b : Vector α 4) : Vector α 6 :=
  #v[a[0] * b[1] - a[1] * b[0],
    a[0] * b[2] - a[2] * b[0],
    a[0] * b[3] - a[3] * b[0],
    a[1] * b[2] - a[2] * b[1],
    a[1] * b[3] - a[3] * b[1],
    a[2] * b[3] - a[3] * b[2]]

/-- The minors of order two of a matrix of order four. -/
def minors (m : Vector α 16) : Minors α where
  low := columnMinors #v[m[0], m[1], m[2], m[3]] #v[m[4], m[5], m[6], m[7]]
  high := columnMinors #v[m[8], m[9], m[10], m[11]] #v[m[12], m[13], m[14], m[15]]

/-- Multiply every minor by a factor. -/
def Minors.scale (minors : Minors α) (factor : α) : Minors α where
  low := minors.low.map (· * factor)
  high := minors.high.map (· * factor)

/-- The determinant of a matrix of order four from its minors of order two. -/
def Minors.determinant (minors : Minors α) : α :=
  let low := minors.low
  let high := minors.high
  low[0] * high[5] - low[1] * high[4] + low[2] * high[3]
    + low[3] * high[2] - low[4] * high[1] + low[5] * high[0]

/-- The determinant of a matrix of order four. -/
def determinant4 (m : Vector α 16) : α :=
  (minors m).determinant

/-- The inverse of a matrix of order four. -/
def invert4 (m : Vector α 16) : Vector α 16 :=
  let scaled := (minors m).scale (1 / determinant4 m)
  let low := scaled.low
  let high := scaled.high
  #v[m[5] * high[5] - m[6] * high[4] + m[7] * high[3],
    m[2] * high[4] - m[1] * high[5] - m[3] * high[3],
    m[13] * low[5] - m[14] * low[4] + m[15] * low[3],
    m[10] * low[4] - m[9] * low[5] - m[11] * low[3],
    m[6] * high[2] - m[4] * high[5] - m[7] * high[1],
    m[0] * high[5] - m[2] * high[2] + m[3] * high[1],
    m[14] * low[2] - m[12] * low[5] - m[15] * low[1],
    m[8] * low[5] - m[10] * low[2] + m[11] * low[1],
    m[4] * high[4] - m[5] * high[2] + m[7] * high[0],
    m[1] * high[2] - m[0] * high[4] - m[3] * high[0],
    m[12] * low[4] - m[13] * low[2] + m[15] * low[0],
    m[9] * low[2] - m[8] * low[4] - m[11] * low[0],
    m[5] * high[1] - m[4] * high[3] - m[6] * high[0],
    m[0] * high[3] - m[1] * high[1] + m[2] * high[0],
    m[13] * low[1] - m[12] * low[3] - m[14] * low[0],
    m[8] * low[3] - m[9] * low[1] + m[10] * low[0]]

end Arithmetic

end Lockstep.Matrix
