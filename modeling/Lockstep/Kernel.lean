import Lockstep.Instruction.Basic
import Lockstep.Matrix

/-!
# Scalar kernels

A computation runs the same scalar function in every lane.  Its `Kernel` says
how many operands it reads, whether they stay on the stack, how many results
it gives, and how the results of one lane follow from the operands of that
lane.  `Kernel.apply` applies the scalar function lane by lane, so that no
lane can see another: `lanewise_eq_some` is the one fact about computations that
reasoning about lanes needs.

Some kernels collect their results in scratch cells, of which there is a fixed
number.  A kernel that addresses a cell that does not exist has no results; it
depends on the number of the operands alone whether it does, so that the lanes
agree about it.
-/

namespace Lockstep

/-- The words of one lane of some registers. -/
def laneWords (registers : List Register) (lane : Lane) : List Word :=
  registers.map (·.get lane)

/-- Number of scratch cells for a vector. -/
def vectorCells : Nat := widestVector.toNat

/-- Values that are collected in scratch cells, if there are enough of them. -/
def inCells {α : Type} (cells : Nat) (values : List α) : Option (List α) :=
  if values.length ≤ cells then some values else none

theorem isSome_inCells {α : Type} (cells : Nat) (values : List α) :
    (inCells cells values).isSome = decide (values.length ≤ cells) := by
  unfold inCells
  split <;> simp [*]

/-- Whether chosen entries of a list exist depends on its length alone. -/
theorem isSome_mapM_getElem?_congr {α : Type} {left right : List α} {picks : List Nat}
    (same : left.length = right.length) :
    (picks.mapM fun pick => left[pick]?).isSome =
      (picks.mapM fun pick => right[pick]?).isSome := by
  induction picks with
  | nil => rfl
  | cons pick picks induction =>
      rw [List.mapM_cons, List.mapM_cons]
      refine Matrix.isSome_bind_congr ?_ fun _ _ => Matrix.isSome_bind_congr induction
        fun _ _ => rfl
      rw [Bool.eq_iff_iff]
      simp [same]

/--
Apply a scalar function in every lane and collect a given number of results.
A result that the function does not give is zero.
-/
def lanewise (results : Nat) (function : List Word → Option (List Word))
    (operands : List Register) : Option (List Register) :=
  let columns : Lanes (Option (List Word)) :=
    .ofFn fun lane => function (laneWords operands lane)
  if columns.toList.all Option.isSome then
    some ((List.range results).map fun position =>
      columns.map fun column => (column.getD []).getD position 0)
  else none

/-- The results of one lane depend on the operands of that lane alone. -/
theorem lanewise_eq_some {results : Nat} {function : List Word → Option (List Word)}
    {operands registers : List Register}
    (applied : lanewise results function operands = some registers) :
    registers.length = results ∧ ∀ lane, ∃ column,
      function (laneWords operands lane) = some column ∧
        ∀ position (inRange : position < registers.length),
          registers[position].get lane = column.getD position 0 := by
  unfold lanewise at applied
  dsimp only at applied
  split at applied
  · rename_i succeeds
    cases applied
    refine ⟨by simp, fun lane => ?_⟩
    have answered : (function (laneWords operands lane)).isSome = true := by
      have member : function (laneWords operands lane) ∈
          (Lanes.ofFn fun lane => function (laneWords operands lane)).toList := by
        rw [← Lanes.get_ofFn (fun lane => function (laneWords operands lane)) lane]
        exact Vector.mem_toList_iff.mpr (Vector.getElem_mem lane.isLt)
      exact List.all_eq_true.mp succeeds _ member
    obtain ⟨column, found⟩ := Option.isSome_iff_exists.mp answered
    refine ⟨column, found, fun position inRange => ?_⟩
    simp [found]
  · cases applied

/--
The scalar function of a computation and its use of the operand stack, where the
operands may stay below the results.  A lane gets its results from its operands,
the lowest one first; only the number of operands decides whether there are any.
-/
structure Kernel where
  operands : Nat
  keep : Bool := false
  results : Nat
  eval : List Word → Option (List Word)
  uniform : ∀ left right, left.length = right.length →
    (eval left).isSome = (eval right).isSome := by
      exact fun _ _ _ => Eq.trans (b := true) rfl rfl

/-- The results of a kernel in all lanes. -/
def Kernel.apply (kernel : Kernel) (operands : List Register) : Option (List Register) :=
  lanewise kernel.results kernel.eval operands

namespace Kernel

/-- Apply a unary function to each of some operands. -/
def unary (count : Nat) (function : Word → Word) : Kernel where
  operands := count
  results := count
  eval := fun words => some (words.map function)

/-- Apply a binary function to two vectors, component by component. -/
def binary (count : Nat) (function : Word → Word → Word) : Kernel where
  operands := 2 * count
  results := count
  eval := fun words => some (List.zipWith function (words.take count) (words.drop count))

/-- Apply a ternary function to three vectors, component by component. -/
def ternary (count : Nat) (function : Word → Word → Word → Word) : Kernel where
  operands := 3 * count
  results := count
  eval := fun words =>
    some (List.zipWith (fun apply third => apply third)
      (List.zipWith function (words.take count) ((words.drop count).take count))
      (words.drop (2 * count)))

/-- The kernel that inverts a matrix with a given number of entries. -/
def inverse (entries : Nat)
    (invert : Vector Float32 entries → Vector Float32 entries) : Kernel where
  operands := entries
  results := entries
  eval := fun words =>
    some ((invert (Vector.ofFn fun entry : Fin entries =>
      Binary32.value (words.getD entry 0))).toList.map Binary32.word)

/-- The kernel that multiplies two matrices and collects the product in a scratch matrix. -/
def product (shared leftRows rightColumns : Nat) : Kernel where
  operands := shared * leftRows + rightColumns * shared
  results := rightColumns * leftRows
  eval := fun words =>
    let numbers := words.map Binary32.value
    inCells Matrix.scratchCells ((Matrix.multiply shared leftRows rightColumns
      (numbers.take (shared * leftRows)) (numbers.drop (shared * leftRows))).map
        Binary32.word)
  uniform := by
    intro left right _
    simp only [isSome_inCells, List.length_map, Matrix.multiply, Matrix.length_tabulate]

/-- The kernel that gives a matrix another extent. -/
def resize (fromColumns fromRows toColumns toRows : Nat) : Kernel where
  operands := fromColumns * fromRows
  results := toColumns * toRows
  eval := Matrix.resize? 0 Binary32.one fromColumns fromRows toColumns toRows
  uniform := fun _ _ => Matrix.isSome_resize?_congr

/-- The kernel that puts a number on the diagonal of a matrix. -/
def diagonal (columns rows : Nat) : Kernel where
  operands := 1
  results := columns * rows
  eval := fun words => some (Matrix.diagonal 0 columns rows (words.getD 0 0))

/-- The kernel that replaces operands by chosen ones of them, by way of scratch cells. -/
def swizzle (source : Nat) (picks : List Nat) : Kernel where
  operands := source
  results := picks.length
  eval := fun words => do
    let cells ← inCells vectorCells picks
    cells.mapM fun pick => words[pick]?
  uniform := by
    intro left right same
    cases inCells vectorCells picks with
    | none => rfl
    | some cells => exact isSome_mapM_getElem?_congr same

/-- The kernel that pushes the same word into every lane. -/
def constant (count : Nat) (word : Word) : Kernel where
  operands := 0
  results := count
  eval := fun _ => some (List.replicate count word)

/-- The kernel that pushes operands again. -/
def duplicate (count : Nat) : Kernel where
  operands := count
  keep := true
  results := count
  eval := some

/-- The kernel that drops operands. -/
def discard (count : Nat) : Kernel where
  operands := count
  results := 0
  eval := fun _ => some []

end Kernel

/-- The kernel that inverts a matrix of a given order. -/
def Order.kernel : Order → Kernel
  | .two => .inverse 4 Matrix.invert2
  | .three => .inverse 9 Matrix.invert3
  | .four => .inverse 16 Matrix.invert4

/-- The kernel of a computation. -/
def Computation.kernel : Computation → Kernel
  | .unary operation count => .unary count.toNat operation.eval
  | .binary operation count => .binary count.toNat operation.eval
  | .lerp count => .ternary count.toNat Binary32.interpolate
  | .mix count => .ternary count.toNat mixWord
  | .logic operation => .binary 1 operation.eval
  | .immediate bits => .constant 1 bits
  | .dup count => .duplicate count.toNat
  | .pop count => .discard count.toNat
  | .reserve count => .constant count.toNat 0
  | .swizzle source picks => .swizzle source.toNat (picks.map UInt8.toNat)
  | .resizeMatrix fromColumns fromRows toColumns toRows =>
      .resize fromColumns.toNat fromRows.toNat toColumns.toNat toRows.toNat
  | .multiplyMatrix leftColumns leftRows rightColumns =>
      .product leftColumns.toNat leftRows.toNat rightColumns.toNat
  | .diagonalMatrix columns rows => .diagonal columns.toNat rows.toNat
  | .invertMatrix order => order.kernel

/-- The kernel of a shift. -/
def Shift.kernel (operation : Shift) (amount : UInt8) : Kernel :=
  .unary 1 (operation.eval amount)

end Lockstep
