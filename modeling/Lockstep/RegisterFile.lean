import Lockstep.Failure

/-!
# Register files

A register file is a fixed number of registers.  Runs of neighbouring
registers are read and written at once; a run that leaves the file is a trap.
`register_overwrite` says what a written run does to each register.
-/

namespace Lockstep

/-- A fixed number of registers. -/
abbrev RegisterFile (capacity : Nat) : Type := Vector Register capacity

namespace RegisterFile

variable {capacity : Nat}

/-- The file whose registers are all zero. -/
def blank (capacity : Nat) : RegisterFile capacity :=
  Vector.replicate capacity .zero

/-- A register of the file; outside the file every register is zero. -/
def register (file : RegisterFile capacity) (position : Nat) : Register :=
  file[position]?.getD .zero

/-- The registers of a run. -/
def run (file : RegisterFile capacity) (start count : Nat) : List Register :=
  (List.range count).map fun step => register file (start + step)

/-- The file after a run of registers has been overwritten. -/
def overwrite (file : RegisterFile capacity) (start : Nat) :
    List Register → RegisterFile capacity
  | [] => file
  | first :: rest => overwrite (file.setIfInBounds start first) (start + 1) rest

/-- Read a run that has to lie inside the file. -/
def readRun (file : RegisterFile capacity) (start count : Nat) :
    Except Failure (List Register) :=
  if start + count ≤ capacity then .ok (run file start count) else .error .trap

/-- Write a run that has to lie inside the file. -/
def writeRun (file : RegisterFile capacity) (start : Nat) (registers : List Register) :
    Except Failure (RegisterFile capacity) :=
  if start + registers.length ≤ capacity then .ok (overwrite file start registers)
  else .error .trap

@[simp]
theorem length_run (file : RegisterFile capacity) (start count : Nat) :
    (run file start count).length = count := by
  simp [run]

@[simp]
theorem getElem_run (file : RegisterFile capacity) (start count step : Nat)
    (inRange : step < (run file start count).length) :
    (run file start count)[step] = register file (start + step) := by
  simp [run]

theorem register_setIfInBounds (file : RegisterFile capacity) (target : Nat)
    (value : Register) (position : Nat) :
    register (file.setIfInBounds target value) position =
      if position = target ∧ target < capacity then value
      else register file position := by
  unfold register
  rw [Vector.getElem?_setIfInBounds]
  by_cases same : target = position
  · subst same
    by_cases inside : target < capacity
    · simp [inside]
    · simp [inside]
  · have differ : ¬(position = target) := fun equal => same equal.symm
    simp [same, differ]

/-- A written run changes its own registers and no others. -/
theorem register_overwrite (file : RegisterFile capacity) (start : Nat)
    (registers : List Register) (inside : start + registers.length ≤ capacity)
    (position : Nat) :
    register (overwrite file start registers) position =
      if start ≤ position ∧ position < start + registers.length then
        registers.getD (position - start) .zero
      else register file position := by
  induction registers generalizing file start with
  | nil =>
    have outside : ¬(start ≤ position ∧ position < start + 0) := by omega
    rw [List.length_nil, if_neg outside, overwrite]
  | cons first rest ih =>
    simp only [List.length_cons] at inside
    rw [overwrite, ih _ _ (by omega), register_setIfInBounds]
    by_cases here : position = start
    · subst here
      have bound : position < capacity := by omega
      have earlier :
          ¬(position + 1 ≤ position ∧ position < position + 1 + rest.length) := by omega
      rw [if_neg earlier]
      simp [bound]
    · by_cases later : start + 1 ≤ position ∧ position < start + 1 + rest.length
      · have covered : start ≤ position ∧ position < start + (rest.length + 1) := by omega
        have shifted : position - start = (position - (start + 1)) + 1 := by omega
        simp only [later, and_self, if_true, List.length_cons, covered]
        rw [shifted, List.getD_cons_succ]
      · have uncovered :
            ¬(start ≤ position ∧ position < start + (rest.length + 1)) := by omega
        simp only [later, if_false, List.length_cons, uncovered, here, false_and]

end RegisterFile

end Lockstep
