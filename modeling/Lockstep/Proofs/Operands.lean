import Lockstep.Machine.Memory
import Lockstep.Proofs.Kernels
import Lockstep.Proofs.Results

/-!
# What operations leave alone

An operation on the operand stack takes operands from its top and gives
results in their place; an operation on slots also writes some of the cells
of a bank.  `Machine.Operates` is the one account of such an operation: how
many operands it takes and gives, which cells it may have touched, and that
everything else is as before.  Invariants, frames and stack effects are read
off this account, so that no later proof opens an operation again.

The account needs the machine to fit its storage: the frame of the running
function ends at the floor, and the top lies between the floor and the
capacity.  Such a machine never addresses storage that does not exist.
-/

namespace Lockstep

/-! ## Runs of registers -/

namespace RegisterFile

variable {capacity : Nat}

theorem readRun_of_le (file : RegisterFile capacity) {start count : Nat}
    (inside : start + count ≤ capacity) :
    file.readRun start count = .ok (file.run start count) :=
  if_pos inside

theorem writeRun_of_le (file : RegisterFile capacity) {start : Nat}
    {registers : List Register} (inside : start + registers.length ≤ capacity) :
    file.writeRun start registers = .ok (file.overwrite start registers) :=
  if_pos inside

/-- A register before a written run keeps its contents. -/
theorem register_overwrite_of_lt (file : RegisterFile capacity) {start : Nat}
    {registers : List Register} (inside : start + registers.length ≤ capacity)
    {position : Nat} (below : position < start) :
    (file.overwrite start registers).register position = file.register position := by
  rw [register_overwrite file start registers inside, if_neg]
  omega

/-- A register of a written run holds what was written. -/
theorem register_overwrite_add (file : RegisterFile capacity) {start : Nat}
    {registers : List Register} (inside : start + registers.length ≤ capacity)
    {step : Nat} (inRange : step < registers.length) :
    (file.overwrite start registers).register (start + step) = registers[step] := by
  rw [register_overwrite file start registers inside, if_pos (by omega)]
  rw [Nat.add_sub_cancel_left, List.getD_eq_getElem?_getD,
    List.getElem?_eq_getElem inRange, Option.getD_some]

theorem ext_register {left right : RegisterFile capacity}
    (same : ∀ position, left.register position = right.register position) :
    left = right := by
  apply Vector.ext
  intro position inRange
  simpa [register, inRange] using same position

end RegisterFile

namespace Machine

/-! ## Storage that a machine has -/

/-- The frame, the operands and the capacity are in order. -/
structure Fits (machine : Machine) : Prop where
  sized : machine.current.frameSize = machine.current.function.frameSize
  frame : machine.current.base + machine.current.frameSize = machine.current.floor
  floor : machine.current.floor ≤ machine.top
  capacity : machine.top ≤ stackCapacity

theorem Fits.frame_eq {machine : Machine} (fits : machine.Fits) :
    machine.current.base + machine.current.function.frameSize = machine.current.floor :=
  fits.sized ▸ fits.frame

/-- A machine that fits still fits without operands that were present. -/
theorem Fits.drop {machine : Machine} (fits : machine.Fits) {count : Nat}
    (present : machine.current.floor + count ≤ machine.top) :
    (machine.drop count).Fits where
  sized := fits.sized
  frame := fits.frame
  floor := by
    change machine.current.floor ≤ machine.top - count
    omega
  capacity := Nat.le_trans (Nat.sub_le _ _) fits.capacity

/-- A register of a bank, counted from the start of the whole bank. -/
def cell (machine : Machine) : Bank → Nat → Register
  | .local, position => machine.registers.register position
  | .global, position => machine.globals.register position

/-- Where the slots of a bank start for the running function. -/
def origin (machine : Machine) : Bank → Nat
  | .local => machine.current.base
  | .global => 0

@[simp]
theorem cell_drop (machine : Machine) (count : Nat) (bank : Bank) (position : Nat) :
    (machine.drop count).cell bank position = machine.cell bank position := by
  cases bank <;> rfl

@[simp]
theorem origin_drop (machine : Machine) (count : Nat) (bank : Bank) :
    (machine.drop count).origin bank = machine.origin bank := by
  cases bank <;> rfl

/--
The failures that an operation may end in: they depend on the run, and where
they concern one lane, that lane is live.
-/
def Allows (machine : Machine) (failure : Failure) : Prop :=
  failure.runtime = true ∧
    ∀ lane, failure.lane? = some lane → machine.live.get lane = true

/--
The failures of an operation that needs scratch cells: those of any operation,
and a trap if there are not enough of them.
-/
def AllowsUnless (machine : Machine) (enough : Prop) (failure : Failure) : Prop :=
  machine.Allows failure ∨ failure = .trap ∧ ¬ enough

/--
An operation took operands off the top and gave results instead.  Apart from
the touched cells, which belong to live lanes and to slots of the running
function, everything below the operands taken is as before.
-/
structure Operates (before : Machine) (taken given : Nat)
    (touched : Bank → Nat → Lane → Prop) (after : Machine) : Prop where
  /-- The operands taken were present. -/
  present : before.current.floor + taken ≤ before.top
  /-- The results stand in the place of the operands. -/
  top : after.top = before.top - taken + given
  /-- The results had room. -/
  room : after.top ≤ stackCapacity
  /-- The running activation is the same. -/
  current : after.current = before.current
  /-- The waiting activations are the same. -/
  callers : after.callers = before.callers
  /-- The predicates are the same. -/
  predicates : after.predicates = before.predicates
  /-- Only slots of the running function are touched, and only in live lanes. -/
  confined : ∀ bank position lane, touched bank position lane →
    before.live.get lane = true ∧
      (bank = .local → before.current.base ≤ position ∧
        position < before.current.floor)
  /-- A cell below the operands that is not touched keeps its contents. -/
  cells : ∀ bank position lane,
    (bank = .local → position < before.top - taken) →
      ¬ touched bank position lane →
        (after.cell bank position).get lane = (before.cell bank position).get lane

/-- No cell is touched. -/
def untouched : Bank → Nat → Lane → Prop :=
  fun _ _ _ => False

namespace Operates

variable {before after : Machine} {taken given : Nat}
variable {touched : Bank → Nat → Lane → Prop}

/-- A machine that fits still fits after an operation. -/
theorem fits (operates : before.Operates taken given touched after)
    (fitting : before.Fits) : after.Fits where
  sized := by
    rw [operates.current]
    exact fitting.sized
  frame := by
    rw [operates.current]
    exact fitting.frame
  floor := by
    rw [operates.current, operates.top]
    have present := operates.present
    omega
  capacity := operates.room

/-- An operation on a machine without some operands takes these operands too. -/
theorem of_drop {count : Nat}
    (operates : (before.drop count).Operates taken given touched after)
    (present : before.current.floor + count ≤ before.top) :
    before.Operates (taken + count) given touched after where
  present := by
    have rest : before.current.floor + taken ≤ before.top - count := operates.present
    omega
  top := by
    have top : after.top = before.top - count - taken + given := operates.top
    omega
  room := operates.room
  current := operates.current
  callers := operates.callers
  predicates := operates.predicates
  confined := operates.confined
  cells := by
    intro bank position lane below notTouched
    rw [operates.cells bank position lane _ notTouched]
    · cases bank <;> rfl
    · intro isLocal
      have lower := below isLocal
      change position < before.top - count - taken
      omega

/-- A lane that is not live keeps every cell below the operands taken. -/
theorem dead (operates : before.Operates taken given touched after)
    {bank : Bank} {position : Nat} {lane : Lane}
    (idle : before.live.get lane = false)
    (below : bank = .local → position < before.top - taken) :
    (after.cell bank position).get lane =
      (before.cell bank position).get lane := by
  apply operates.cells bank position lane below
  intro wasTouched
  have live := (operates.confined bank position lane wasTouched).1
  rw [idle] at live
  exact absurd live (by simp)

end Operates

/-! ## Operands -/

variable {machine : Machine}

/-- The machine after results have been put on its operand stack. -/
def pushed (machine : Machine) (results : List Register) : Machine :=
  { machine with
    registers := machine.registers.overwrite machine.top results
    top := machine.top + results.length }

/-- The topmost registers of a machine. -/
def topmost (machine : Machine) (count : Nat) : List Register :=
  machine.registers.run (machine.top - count) count

@[simp]
theorem length_topmost (machine : Machine) (count : Nat) :
    (machine.topmost count).length = count := by
  simp [topmost]

@[simp]
theorem getElem_topmost (machine : Machine) (count step : Nat)
    (inRange : step < (machine.topmost count).length) :
    (machine.topmost count)[step] =
      machine.cell .local (machine.top - count + step) := by
  simp [topmost, cell]

theorem allows_underflow (machine : Machine) (need available : Nat) :
    machine.Allows (.fault (.bytecode (.underflow need available))) :=
  ⟨rfl, by simp [Failure.lane?]⟩

theorem allows_stack (machine : Machine) (more : Nat) :
    machine.Allows (.fault (.capacity (.stack more))) :=
  ⟨rfl, by simp [Failure.lane?]⟩

/-- Requiring operands succeeds exactly if they are present. -/
theorem require_yields (machine : Machine) (count : Nat) :
    Yields machine.Allows (fun _ => machine.current.floor + count ≤ machine.top)
      (machine.require count) := by
  unfold require
  split
  · assumption
  · exact allows_underflow machine _ _

/-- Operands that are present and inside the stack can be looked at. -/
theorem peek_of_capacity (capacity : machine.top ≤ stackCapacity) {count : Nat}
    (present : machine.current.floor + count ≤ machine.top) :
    machine.peek count = .ok (machine.topmost count) := by
  unfold peek require
  rw [if_pos present]
  exact machine.registers.readRun_of_le (by omega)

/-- Operands that are present can be looked at. -/
theorem peek_of_present (fits : machine.Fits) {count : Nat}
    (present : machine.current.floor + count ≤ machine.top) :
    machine.peek count = .ok (machine.topmost count) :=
  peek_of_capacity fits.capacity present

theorem peek_yields (fits : machine.Fits) (count : Nat) :
    Yields machine.Allows
      (fun operands =>
        machine.current.floor + count ≤ machine.top ∧
          operands = machine.topmost count)
      (machine.peek count) := by
  by_cases present : machine.current.floor + count ≤ machine.top
  · rw [peek_of_present fits present]
    exact ⟨present, rfl⟩
  · unfold peek require
    rw [if_neg present]
    exact allows_underflow machine _ _

/-- Popping gives the topmost register. -/
theorem pop_yields (fits : machine.Fits) :
    Yields machine.Allows
      (fun popped =>
        machine.current.floor + 1 ≤ machine.top ∧
          popped = (machine.cell .local (machine.top - 1), machine.drop 1))
      machine.pop := by
  unfold pop
  apply Yields.bind (peek_yields fits 1)
  rintro operands ⟨present, rfl⟩
  refine ⟨present, ?_⟩
  simp [topmost, RegisterFile.run, cell]

theorem room_yields (machine : Machine) (count : Nat) :
    Yields machine.Allows (fun _ => machine.top + count ≤ stackCapacity)
      (machine.room count) := by
  unfold room
  split
  · assumption
  · exact allows_stack machine _

theorem push_eq (machine : Machine) (results : List Register) :
    machine.push results =
      if machine.top + results.length ≤ stackCapacity then
        .ok (machine.pushed results)
      else .error (.fault (.capacity (.stack results.length))) := by
  unfold push room
  split
  · rename_i enough
    rw [RegisterFile.writeRun_of_le machine.registers enough]
    rfl
  · rfl

theorem push_yields (machine : Machine) (results : List Register) :
    Yields machine.Allows
      (fun after =>
        machine.top + results.length ≤ stackCapacity ∧
          after = machine.pushed results)
      (machine.push results) := by
  rw [push_eq]
  split
  · rename_i enough
    exact ⟨enough, rfl⟩
  · exact allows_stack machine _

/-- Registers below the top survive a push. -/
theorem cell_pushed (machine : Machine) {results : List Register}
    (enough : machine.top + results.length ≤ stackCapacity)
    {bank : Bank} {position : Nat} (below : bank = .local → position < machine.top) :
    (machine.pushed results).cell bank position = machine.cell bank position := by
  cases bank with
  | «local» =>
      exact RegisterFile.register_overwrite_of_lt _ enough (below rfl)
  | global =>
      rfl

/-- Putting results in the place of operands is an operation that touches nothing. -/
theorem operates_replace {taken : Nat} {results : List Register}
    (present : machine.current.floor + taken ≤ machine.top)
    (enough : machine.top - taken + results.length ≤ stackCapacity) :
    machine.Operates taken results.length untouched
      ((machine.drop taken).pushed results) where
  present := present
  top := rfl
  room := enough
  current := rfl
  callers := rfl
  predicates := rfl
  confined := by
    intro bank position lane impossible
    exact impossible.elim
  cells := by
    intro bank position lane below _
    rw [cell_pushed (machine.drop taken) enough below]
    cases bank <;> rfl

/-- Putting results on top of operands that were looked at. -/
theorem operates_extend {taken : Nat} {results : List Register}
    (present : machine.current.floor + taken ≤ machine.top)
    (enough : machine.top + results.length ≤ stackCapacity) :
    machine.Operates taken (taken + results.length) untouched
      (machine.pushed results) where
  present := present
  top := by
    change machine.top + results.length = _
    omega
  room := enough
  current := rfl
  callers := rfl
  predicates := rfl
  confined := by
    intro bank position lane impossible
    exact impossible.elim
  cells := by
    intro bank position lane below _
    rw [cell_pushed machine enough]
    intro isLocal
    have := below isLocal
    omega

/-! ## Computations -/

end Machine

/-- How many registers a kernel leaves from its lowest operand on. -/
def Kernel.given (kernel : Kernel) : Nat :=
  if kernel.keep then kernel.operands + kernel.results else kernel.results

namespace Machine

variable {machine : Machine}

/-- A computation is an operation that touches nothing. -/
theorem compute_yields (fits : machine.Fits) (kernel : Kernel) :
    Yields (machine.AllowsUnless kernel.Total)
      (machine.Operates kernel.operands kernel.given untouched)
      (machine.compute kernel) := by
  unfold compute
  apply Yields.bind ((peek_yields fits kernel.operands).permit fun _ => Or.inl)
  rintro operands ⟨present, rfl⟩
  cases applied : kernel.apply (machine.topmost kernel.operands) with
  | none =>
      refine Or.inr ⟨rfl, fun total => ?_⟩
      obtain ⟨results, found, _⟩ := total.apply (length_topmost machine _)
      rw [applied] at found
      cases found
  | some results =>
      have counted : results.length = kernel.results := (lanewise_eq_some applied).1
      cases keep : kernel.keep with
      | true =>
          apply ((push_yields machine results).permit fun _ => Or.inl).relax
          rintro after ⟨enough, rfl⟩
          have operates := operates_extend present enough
          rw [counted] at operates
          simpa only [Kernel.given, keep, if_true] using operates
      | false =>
          apply ((push_yields (machine.drop kernel.operands) results).permit
            fun _ => Or.inl).relax
          rintro after ⟨enough, rfl⟩
          have operates := operates_replace present enough
          rw [counted] at operates
          simpa only [Kernel.given, keep, Bool.false_eq_true, if_false] using operates

/-- The components of a vector have scratch cells. -/
theorem scratch_of_le {count : Nat} (few : count ≤ vectorCells) : scratch count = .ok () :=
  if_pos few

theorem scratch_yields (machine : Machine) (count : Nat) :
    Yields (machine.AllowsUnless (count ≤ vectorCells)) (fun _ => True) (scratch count) := by
  unfold scratch
  split
  · trivial
  · rename_i many
    exact Or.inr ⟨rfl, many⟩

/-- A division fails only for a zero divisor in a live lane. -/
theorem checkDivisors_yields (machine : Machine) (operation : Division)
    (divisors : List Register) :
    Yields machine.Allows
      (fun _ => ∀ divisor ∈ divisors, ∀ lane ∈ machine.live.active,
        divisor.get lane ≠ 0)
      (machine.checkDivisors operation divisors) := by
  unfold checkDivisors
  apply Yields.forM
  intro divisor _
  apply Yields.forM
  intro lane active
  split
  · refine ⟨rfl, ?_⟩
    rintro _ ⟨⟩
    exact (Lanes.mem_active _ _).mp active
  · assumption

/-- A division is an operation that touches nothing. -/
theorem divide_yields (fits : machine.Fits) (operation : Division) (count : Nat) :
    Yields machine.Allows (machine.Operates (2 * count) count untouched)
      (machine.divide operation count) := by
  unfold divide
  apply Yields.bind (peek_yields fits (2 * count))
  rintro operands ⟨present, rfl⟩
  apply Yields.bind (checkDivisors_yields machine operation _)
  intro _ _
  apply (push_yields (machine.drop (2 * count)) _).relax
  rintro after ⟨enough, rfl⟩
  have operates := operates_replace present enough
  have shorter : min (min count (2 * count)) (2 * count - count) = count := by
    omega
  simpa only [List.length_zipWith, List.length_take, List.length_drop,
    length_topmost, shorter] using operates

end Machine

end Lockstep
