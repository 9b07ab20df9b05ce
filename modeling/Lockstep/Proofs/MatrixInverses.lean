import Lockstep.Kernel
import Mathlib.Algebra.Field.Rat
import Mathlib.LinearAlgebra.Matrix.Adjugate
import Mathlib.Tactic.FinCases
import Mathlib.Tactic.Ring

/-!
# Exact inverses

The kernels that invert matrices are formulas over any numbers.  Over the
rational numbers, where nothing is rounded, they give what their name says.
`Matrix.square` reads the entries of a kernel as a matrix.  The number by which
a kernel divides is the determinant of that matrix, and its results are the
cofactors over the determinant, so that both products with the matrix are the
identity whenever the determinant is not zero.
-/

namespace Lockstep

/-! ## The three orders -/

namespace Order

/-- The number of columns, and of rows, of a matrix of a given order. -/
def size : Order → Nat
  | .two => 2
  | .three => 3
  | .four => 4

section Formulas

variable {α : Type} [Add α] [Sub α] [Mul α] [Div α] [Neg α] [OfNat α 0] [OfNat α 1]

/-- The formula that inverts a matrix of a given order. -/
def invert : (order : Order) → Vector α (order.size * order.size) →
    Vector α (order.size * order.size)
  | .two => Matrix.invert2
  | .three => Matrix.invert3
  | .four => Matrix.invert4

/-- The formula by whose value a matrix of a given order is divided. -/
def determinant : (order : Order) → Vector α (order.size * order.size) → α
  | .two => Matrix.determinant2
  | .three => Matrix.determinant3
  | .four => Matrix.determinant4

end Formulas

/-- What runs is the formula of the order on rounded numbers. -/
theorem kernel_eq_inverse (order : Order) :
    order.kernel = .inverse (order.size * order.size) order.invert := by
  cases order <;> rfl

end Order

/-! ## Entries of square matrices -/

namespace Matrix

/-- The matrix that some entries stand for, column after column. -/
def square (size : Nat) (entries : List ℚ) : Matrix (Fin size) (Fin size) ℚ :=
  .of fun row column => entries.getD (column.val * size + row.val) 0

theorem foldl_add_range (count : Nat) (term : Nat → ℚ) :
    (List.range count).foldl (fun total step => total + term step) 0 =
      ∑ step : Fin count, term step := by
  induction count with
  | zero => rfl
  | succ count induction =>
      rw [List.range_succ, List.foldl_append, induction, Fin.sum_univ_castSucc]
      rfl

/-- A product that is the identity is so entry by entry. -/
theorem multiply_eq_diagonal {size : Nat} {left right : List ℚ}
    (product : square size left * square size right = 1) :
    multiply size size size left right = diagonal 0 size size 1 := by
  refine tabulate_congr fun column row inColumns inRows => ?_
  have entry := congrFun (congrFun product ⟨row, inRows⟩) ⟨column, inColumns⟩
  rw [Matrix.mul_apply, Matrix.one_apply] at entry
  rw [foldl_add_range]
  simpa [square, eq_comm] using entry

/-! ## Determinants -/

theorem determinant2_eq_det (m : Vector ℚ 4) :
    determinant2 m = (square 2 m.toList).det := by
  rw [Matrix.det_fin_two]
  simp [square, determinant2]
  ring

theorem determinant3_eq_det (m : Vector ℚ 9) :
    determinant3 m = (square 3 m.toList).det := by
  rw [Matrix.det_fin_three]
  simp [square, determinant3]
  ring

/-- The minors of two columns each make up the determinant. -/
theorem determinant4_eq_det (m : Vector ℚ 16) :
    determinant4 m = (square 4 m.toList).det := by
  rw [Matrix.det_succ_row_zero]
  simp only [Fin.sum_univ_four, Matrix.det_fin_three]
  simp [square, determinant4, minors, columnMinors, Minors.determinant, Fin.succAbove]
  ring

/-! ## Cofactors -/

theorem square_invert2 (m : Vector ℚ 4) :
    square 2 (invert2 m).toList =
      (1 / determinant2 m) • (square 2 m.toList).adjugate := by
  rw [Matrix.adjugate_fin_two]
  ext row column
  fin_cases row <;> fin_cases column <;> simp [square, invert2] <;> ring

theorem square_invert3 (m : Vector ℚ 9) :
    square 3 (invert3 m).toList =
      (1 / determinant3 m) • (square 3 m.toList).adjugate := by
  rw [Matrix.adjugate_fin_three]
  ext row column
  fin_cases row <;> fin_cases column <;> simp [square, invert3] <;> ring

/-- Each entry expands a cofactor by the minors of two columns. -/
theorem square_invert4 (m : Vector ℚ 16) :
    square 4 (invert4 m).toList =
      (1 / determinant4 m) • (square 4 m.toList).adjugate := by
  ext row column
  rw [Matrix.smul_apply, Matrix.adjugate_fin_succ_eq_det_submatrix, Matrix.det_fin_three]
  fin_cases row <;> fin_cases column <;>
    simp [square, invert4, minors, columnMinors, Minors.scale, Fin.succAbove] <;> ring

end Matrix

/-! ## Inverses -/

namespace Order

open Lockstep.Matrix

theorem determinant_eq_det (order : Order) (m : Vector ℚ (order.size * order.size)) :
    order.determinant m = (square order.size m.toList).det := by
  cases order with
  | two => exact determinant2_eq_det m
  | three => exact determinant3_eq_det m
  | four => exact determinant4_eq_det m

/-- The results of a kernel are the cofactors over the determinant. -/
theorem square_invert (order : Order) (m : Vector ℚ (order.size * order.size)) :
    square order.size (order.invert m).toList =
      (1 / order.determinant m) • (square order.size m.toList).adjugate := by
  cases order with
  | two => exact square_invert2 m
  | three => exact square_invert3 m
  | four => exact square_invert4 m

/--
Matrices are inverted exactly.  What a kernel divides by is the determinant of
the matrix, and if that is not zero then the matrix multiplied by what the
formula of the kernel gives is the identity, from either side.
-/
theorem matrices_are_inverted_exactly (order : Order) :
    order.kernel = .inverse (order.size * order.size) order.invert ∧
      ∀ m : Vector ℚ (order.size * order.size),
        order.determinant m = (square order.size m.toList).det ∧
          (order.determinant m ≠ 0 →
            multiply order.size order.size order.size m.toList (order.invert m).toList =
                diagonal 0 order.size order.size 1 ∧
              multiply order.size order.size order.size (order.invert m).toList m.toList =
                diagonal 0 order.size order.size 1) := by
  refine ⟨order.kernel_eq_inverse, fun m => ⟨order.determinant_eq_det m, fun regular => ?_⟩⟩
  have unit : 1 / order.determinant m * (square order.size m.toList).det = 1 := by
    rw [← order.determinant_eq_det m]
    exact one_div_mul_cancel regular
  constructor
  · apply multiply_eq_diagonal
    rw [order.square_invert, Matrix.mul_smul, Matrix.mul_adjugate, smul_smul, unit,
      one_smul]
  · apply multiply_eq_diagonal
    rw [order.square_invert, Matrix.smul_mul, Matrix.adjugate_mul, smul_smul, unit,
      one_smul]

/-- A matrix without zeros and without symmetry. -/
def dense : Vector ℚ 16 :=
  #v[2, -1, 3, 5, 7, 1, -4, 6, 1, 8, 2, -3, -5, 4, 9, 1]

/-- The matrix `dense` has a determinant and so an inverse. -/
theorem matrices_are_inverted_exactly_dense :
    Order.four.determinant dense = 1236 ∧
      multiply 4 4 4 dense.toList (Order.four.invert dense).toList = diagonal 0 4 4 1 ∧
      multiply 4 4 4 (Order.four.invert dense).toList dense.toList = diagonal 0 4 4 1 := by
  have value : Order.four.determinant dense = 1236 := by decide +kernel
  have regular : Order.four.determinant dense ≠ 0 := by
    rw [value]
    decide
  exact ⟨value, ((matrices_are_inverted_exactly .four).2 dense).2 regular⟩

end Order

end Lockstep
