import Lockstep.Proofs.Operands

/-!
# Slots in their place

Loads, stores and indexed accesses in closed form.  A run of slots inside its
space is always there, so a load pushes `Machine.slots`, an indexed load
pushes `Machine.gathered`, and a store replaces the machine by
`Machine.updated` or, lane after lane, by `Machine.scattered`.  The equations
of `Machine.cell` say what each of them does to one cell.

From the closed forms each access is shown to be an operation in the sense of
`Machine.Operates` that touches the addressed slots in the live lanes.
-/

namespace Lockstep

variable {σ α : Type}

/-- Number of registers of a bank. -/
def Bank.capacity : Bank → Nat
  | .local => stackCapacity
  | .global => globalCapacity

/-- Steps that all succeed give the list of their answers. -/
theorem mapM_ok_of_forall {β : Type} {entries : List α}
    {step : α → Except Failure β} {answer : α → β}
    (all : ∀ entry ∈ entries, step entry = .ok (answer entry)) :
    entries.mapM step = .ok (entries.map answer) := by
  induction entries with
  | nil =>
      rfl
  | cons head tail induction =>
      have tailAnswers := induction fun entry member =>
        all entry (List.mem_cons_of_mem head member)
      rw [List.mapM_cons, all head List.mem_cons_self, tailAnswers]
      rfl

/-- The answer of a lane among answers of distinct lanes. -/
theorem lookup_map_lane (lanes : List Lane) (answer : Lane → α) (wanted : Lane) :
    (lanes.map fun lane => (lane, answer lane)).lookup wanted =
      if wanted ∈ lanes then some (answer wanted) else none := by
  induction lanes with
  | nil =>
      rfl
  | cons head tail induction =>
      rw [List.map_cons, List.lookup_cons, induction]
      by_cases same : wanted = head
      · subst same
        simp
      · have differ : (wanted == head) = false := by simpa using same
        simp [differ, same]

namespace Machine

variable {machine : Machine} {batch : Batch σ}

/-! ## Reading -/

/-- The registers of a run of slots. -/
def slots (machine : Machine) (batch : Batch σ) (space : Space) (slot count : Nat) :
    List Register :=
  match space with
  | .local => machine.registers.run (machine.current.base + slot) count
  | .global => machine.globals.run slot count
  | .uniform => ((batch.uniforms.drop slot).take count).map Lanes.splat

theorem globalLimit_le (program : Program) :
    program.globalLimit ≤ globalCapacity :=
  Nat.min_le_right _ _

/-- A run of slots inside its space can be read. -/
theorem slotRun_of_le (fits : machine.Fits) {space : Space} {slot count : Nat}
    (inside : slot + count ≤ batch.limit machine space) :
    machine.slotRun batch space slot count =
      .ok (machine.slots batch space slot count) := by
  cases space with
  | «local» =>
      have frame := fits.frame
      have floor := fits.floor
      have capacity := fits.capacity
      change slot + count ≤ machine.current.frameSize at inside
      exact machine.registers.readRun_of_le (by omega)
  | global =>
      have limit := globalLimit_le batch.program
      change slot + count ≤ batch.program.globalLimit at inside
      exact machine.globals.readRun_of_le (by omega)
  | uniform =>
      exact if_pos inside

theorem length_slots {space : Space} {slot count : Nat}
    (inside : slot + count ≤ batch.limit machine space) :
    (machine.slots batch space slot count).length = count := by
  cases space with
  | «local» =>
      simp [slots]
  | global =>
      simp [slots]
  | uniform =>
      change slot + count ≤ batch.uniforms.length at inside
      simp only [slots, List.length_map, List.length_take, List.length_drop]
      omega

/-- The failure of a fixed run of slots that leaves its space. -/
def slotFailure (machine : Machine) (batch : Batch σ) (opcode : Opcode)
    (space : Space) (slot count : Nat) (failure : Failure) : Prop :=
  ¬ slot + count ≤ batch.limit machine space ∧
    failure = .fault (.bounds
      (.slots opcode space slot count (batch.limit machine space)))

/-- A load from inside its space is an operation that touches nothing. -/
theorem load_of_le (fits : machine.Fits) {space : Space} {count slot : Nat}
    (inside : slot + count ≤ batch.limit machine space) :
    Yields machine.Allows (machine.Operates 0 count untouched)
      (machine.load batch space count slot) := by
  unfold load checkSlots
  rw [if_pos inside]
  apply Yields.bind (room_yields machine count)
  intro _ _
  rw [slotRun_of_le fits inside]
  apply (push_yields machine _).relax
  rintro after ⟨enough, rfl⟩
  have present : machine.current.floor + 0 ≤ machine.top := fits.floor
  have operates := operates_replace present enough
  rw [length_slots inside] at operates
  exact operates

theorem load_yields (fits : machine.Fits) (space : Space) (count slot : Nat) :
    Yields
      (fun failure => machine.Allows failure ∨
        machine.slotFailure batch (.load space) space slot count failure)
      (machine.Operates 0 count untouched)
      (machine.load batch space count slot) := by
  by_cases inside : slot + count ≤ batch.limit machine space
  · exact (load_of_le fits inside).permit fun _ => Or.inl
  · unfold load checkSlots
    rw [if_neg inside]
    exact Or.inr ⟨inside, rfl⟩

/-! ## Writing runs -/

/-- The machine after a run of slots has been changed, register by register. -/
def updated (machine : Machine) (bank : Bank) (slot : Nat)
    (update : Register → α → Register) (values : List α) : Machine :=
  match bank with
  | .local =>
      let start := machine.current.base + slot
      { machine with
        registers := machine.registers.overwrite start
          (List.zipWith update (machine.registers.run start values.length) values) }
  | .global =>
      { machine with
        globals := machine.globals.overwrite slot
          (List.zipWith update (machine.globals.run slot values.length) values) }

section Updated

variable {bank : Bank} {slot : Nat} {update : Register → α → Register}
variable {values : List α}

@[simp]
theorem updated_top : (machine.updated bank slot update values).top = machine.top := by
  cases bank <;> rfl

@[simp]
theorem updated_current :
    (machine.updated bank slot update values).current = machine.current := by
  cases bank <;> rfl

@[simp]
theorem updated_callers :
    (machine.updated bank slot update values).callers = machine.callers := by
  cases bank <;> rfl

@[simp]
theorem updated_predicates :
    (machine.updated bank slot update values).predicates = machine.predicates := by
  cases bank <;> rfl

/-- Updates that are made one after the other leave all but the cells as it was. -/
theorem foldl_updated_frame {β : Type} {change : Machine → β → Machine}
    {slots : Machine → β → Nat} {entryValues : Machine → β → List α}
    {updates : Machine → β → Register → α → Register}
    (updating : ∀ machine entry, change machine entry =
      machine.updated bank (slots machine entry) (updates machine entry)
        (entryValues machine entry))
    (entries : List β) (machine : Machine) :
    let after := entries.foldl change machine
    after.top = machine.top ∧ after.current = machine.current ∧
      after.callers = machine.callers ∧ after.predicates = machine.predicates := by
  induction entries generalizing machine with
  | nil =>
      exact ⟨rfl, rfl, rfl, rfl⟩
  | cons head tail induction =>
      rcases induction (change machine head) with ⟨top, current, callers, predicates⟩
      rw [updating] at top current callers predicates
      rw [List.foldl_cons, updating]
      exact ⟨top.trans updated_top, current.trans updated_current,
        callers.trans updated_callers, predicates.trans updated_predicates⟩

@[simp]
theorem updated_origin (other : Bank) :
    (machine.updated bank slot update values).origin other = machine.origin other := by
  cases other with
  | «local» =>
      simp [origin]
  | global =>
      rfl

/-- A run of slots inside its bank can be changed. -/
theorem updateRun_of_le
    (inside : machine.origin bank + slot + values.length ≤ bank.capacity) :
    machine.updateRun bank slot update values =
      .ok (machine.updated bank slot update values) := by
  have shorter : min values.length values.length = values.length := Nat.min_self _
  cases bank with
  | «local» =>
      change machine.current.base + slot + values.length ≤ stackCapacity at inside
      unfold updateRun
      simp only [machine.registers.readRun_of_le inside]
      rw [ok_bind, RegisterFile.writeRun_of_le]
      · rfl
      · simpa [shorter] using inside
  | global =>
      change 0 + slot + values.length ≤ globalCapacity at inside
      rw [Nat.zero_add] at inside
      unfold updateRun
      simp only [machine.globals.readRun_of_le inside]
      rw [ok_bind, RegisterFile.writeRun_of_le]
      · rfl
      · simpa [shorter] using inside

/-- A cell of a changed run. -/
theorem cell_updated_of_lt
    (inside : machine.origin bank + slot + values.length ≤ bank.capacity)
    {step : Nat} (inRange : step < values.length) :
    (machine.updated bank slot update values).cell bank
        (machine.origin bank + slot + step) =
      update (machine.cell bank (machine.origin bank + slot + step))
        values[step] := by
  cases bank with
  | «local» =>
      change machine.current.base + slot + values.length ≤ stackCapacity at inside
      simp only [updated, cell, origin]
      rw [RegisterFile.register_overwrite_add]
      · rw [List.getElem_zipWith, RegisterFile.getElem_run]
      · simpa using inside
      · simpa using inRange
  | global =>
      change 0 + slot + values.length ≤ globalCapacity at inside
      rw [Nat.zero_add] at inside
      simp only [updated, cell, origin, Nat.zero_add]
      rw [RegisterFile.register_overwrite_add]
      · rw [List.getElem_zipWith, RegisterFile.getElem_run]
      · simpa using inside
      · simpa using inRange

/-- A cell outside a changed run. -/
theorem cell_updated_of_outside
    (inside : machine.origin bank + slot + values.length ≤ bank.capacity)
    {other : Bank} {position : Nat}
    (outside : other = bank → position < machine.origin bank + slot ∨
      machine.origin bank + slot + values.length ≤ position) :
    (machine.updated bank slot update values).cell other position =
      machine.cell other position := by
  cases bank with
  | «local» =>
      cases other with
      | «local» =>
          change machine.current.base + slot + values.length ≤ stackCapacity at inside
          have beyond := outside rfl
          change position < machine.current.base + slot ∨
            machine.current.base + slot + values.length ≤ position at beyond
          simp only [updated, cell]
          rw [RegisterFile.register_overwrite, if_neg]
          · simp only [List.length_zipWith, RegisterFile.length_run, Nat.min_self]
            omega
          · simpa using inside
      | global =>
          rfl
  | global =>
      cases other with
      | «local» =>
          rfl
      | global =>
          change 0 + slot + values.length ≤ globalCapacity at inside
          have beyond := outside rfl
          change position < 0 + slot ∨ 0 + slot + values.length ≤ position at beyond
          simp only [updated, cell]
          rw [RegisterFile.register_overwrite, if_neg]
          · simp only [List.length_zipWith, RegisterFile.length_run, Nat.min_self]
            omega
          · simpa using inside

end Updated

/-! ## Stores -/

/-- The slots of a bank lie in the bank, and local ones below the floor. -/
theorem slots_inside (fits : machine.Fits) {bank : Bank} {slot count : Nat}
    (inside : slot + count ≤ batch.limit machine bank.space) :
    machine.origin bank + slot + count ≤ bank.capacity ∧
      (bank = .local →
        machine.origin bank + slot + count ≤ machine.current.floor) := by
  cases bank with
  | «local» =>
      have frame := fits.frame
      have floor := fits.floor
      have capacity := fits.capacity
      change slot + count ≤ machine.current.frameSize at inside
      change machine.current.base + slot + count ≤ stackCapacity ∧
        (_ → machine.current.base + slot + count ≤ machine.current.floor)
      omega
  | global =>
      have limit := globalLimit_le batch.program
      change slot + count ≤ batch.program.globalLimit at inside
      refine ⟨?_, fun impossible => absurd impossible (by simp)⟩
      change 0 + slot + count ≤ globalCapacity
      omega

/-- Only cells that are touched have changed. -/
structure Touches (before : Machine) (touched : Bank → Nat → Lane → Prop)
    (after : Machine) : Prop where
  top : after.top = before.top
  current : after.current = before.current
  callers : after.callers = before.callers
  predicates : after.predicates = before.predicates
  cells : ∀ bank position lane, ¬ touched bank position lane →
    (after.cell bank position).get lane = (before.cell bank position).get lane

/-- Dropping operands after cells have been touched is an operation. -/
theorem Touches.operates {after : Machine} {touched : Bank → Nat → Lane → Prop}
    (touches : machine.Touches touched after) (fits : machine.Fits) {taken : Nat}
    (present : machine.current.floor + taken ≤ machine.top)
    (confined : ∀ bank position lane, touched bank position lane →
      machine.live.get lane = true ∧
        (bank = .local → machine.current.base ≤ position ∧
          position < machine.current.floor)) :
    machine.Operates taken 0 touched (after.drop taken) where
  present := present
  top := by
    change after.top - taken = _
    rw [touches.top, Nat.add_zero]
  room := by
    have capacity := fits.capacity
    change after.top - taken ≤ stackCapacity
    rw [touches.top]
    omega
  current := touches.current
  callers := touches.callers
  predicates := touches.predicates
  confined := confined
  cells := by
    intro bank position lane _ notTouched
    rw [← touches.cells bank position lane notTouched]
    cases bank <;> rfl

/-- The cells of a run of slots in the live lanes. -/
def storeCells (machine : Machine) (bank : Bank) (slot count : Nat) :
    Bank → Nat → Lane → Prop :=
  fun other position lane =>
    other = bank ∧ machine.origin bank + slot ≤ position ∧
      position < machine.origin bank + slot + count ∧
        machine.live.get lane = true

instance (machine : Machine) (bank : Bank) (slot count : Nat) (other : Bank)
    (position : Nat) (lane : Lane) :
    Decidable (machine.storeCells bank slot count other position lane) :=
  inferInstanceAs (Decidable (_ ∧ _))

/-- The cells of a masked write of a run. -/
theorem get_cell_masked {bank : Bank} {slot : Nat} {values : List Register}
    (inside : machine.origin bank + slot + values.length ≤ bank.capacity)
    (other : Bank) (position : Nat) (lane : Lane) :
    ((machine.updated bank slot
        (fun before value => .select machine.live value before) values).cell other
          position).get lane =
      if machine.storeCells bank slot values.length other position lane then
        (values.getD (position - (machine.origin bank + slot)) .zero).get lane
      else (machine.cell other position).get lane := by
  by_cases within : other = bank ∧ machine.origin bank + slot ≤ position ∧
      position < machine.origin bank + slot + values.length
  · rcases within with ⟨rfl, lower, upper⟩
    obtain ⟨step, rfl⟩ := Nat.exists_eq_add_of_le lower
    have inRange : step < values.length := by omega
    rw [cell_updated_of_lt inside inRange, Nat.add_sub_cancel_left, Lanes.get_select]
    by_cases live : machine.live.get lane = true
    · rw [if_pos live, if_pos ⟨rfl, lower, upper, live⟩, List.getD_eq_getElem?_getD,
        List.getElem?_eq_getElem inRange, Option.getD_some]
    · rw [if_neg live, if_neg fun met => live met.2.2.2]
  · rw [if_neg fun met => within ⟨met.1, met.2.1, met.2.2.1⟩,
      cell_updated_of_outside inside]
    intro same
    by_contra inRange
    exact within ⟨same, by omega, by omega⟩

/-- A masked write of a run touches the run in the live lanes. -/
theorem updated_touches {bank : Bank} {slot : Nat} {values : List Register}
    (inside : machine.origin bank + slot + values.length ≤ bank.capacity) :
    machine.Touches (machine.storeCells bank slot values.length)
      (machine.updated bank slot
        (fun before value => .select machine.live value before) values) where
  top := updated_top
  current := updated_current
  callers := updated_callers
  predicates := updated_predicates
  cells := by
    intro other position lane notTouched
    rw [get_cell_masked inside, if_neg notTouched]

/-- A store inside its bank touches the addressed slots in the live lanes. -/
theorem store_of_le (fits : machine.Fits) {bank : Bank} {count slot : Nat}
    (inside : slot + count ≤ batch.limit machine bank.space) :
    Yields machine.Allows
      (machine.Operates count 0 (machine.storeCells bank slot count))
      (machine.store batch bank count slot) := by
  have placed := slots_inside fits inside
  unfold store checkSlots
  rw [if_pos inside]
  apply Yields.bind (peek_yields fits count)
  rintro values ⟨present, rfl⟩
  have placedValues : machine.origin bank + slot + (machine.topmost count).length ≤
      bank.capacity := by
    rw [length_topmost]
    exact placed.1
  rw [updateRun_of_le placedValues]
  have touches := updated_touches placedValues
  rw [length_topmost] at touches
  apply touches.operates fits present
  rintro other position lane ⟨rfl, lower, upper, live⟩
  refine ⟨live, ?_⟩
  rintro rfl
  have below := placed.2 rfl
  change machine.current.base + slot ≤ position at lower
  change position < machine.current.base + slot + count at upper
  change machine.current.base + slot + count ≤ _ at below
  omega

theorem store_yields (fits : machine.Fits) (bank : Bank) (count slot : Nat) :
    Yields
      (fun failure => machine.Allows failure ∨
        machine.slotFailure batch (.store bank) bank.space slot count failure)
      (machine.Operates count 0 (machine.storeCells bank slot count))
      (machine.store batch bank count slot) := by
  by_cases inside : slot + count ≤ batch.limit machine bank.space
  · exact (store_of_le fits inside).permit fun _ => Or.inl
  · unfold store checkSlots
    rw [if_neg inside]
    exact Or.inr ⟨inside, rfl⟩

/-! ## Indexed accesses -/

/-- The indices of all live lanes lead to runs inside a space. -/
def IndicesInside (machine : Machine) (index : Register) (count limit : Nat) : Prop :=
  ∀ lane, machine.live.get lane = true → indexSlot (index.get lane) + count ≤ limit

/-- An index is refused only in a live lane. -/
theorem checkIndices_yields (machine : Machine) (opcode : Opcode) (space : Space)
    (index : Register) (count limit : Nat) :
    Yields machine.Allows (fun _ => machine.IndicesInside index count limit)
      (machine.checkIndices opcode space index count limit) := by
  unfold checkIndices
  have checked : ∀ lane ∈ machine.live.active,
      Yields machine.Allows
        (fun _ => indexSlot (index.get lane) + count ≤ limit)
        (if 0 ≤ (signedIndex (index.get lane)).toInt ∧
            (signedIndex (index.get lane)).toInt + count ≤ limit then .ok ()
          else .error (.fault (.bounds (.laneIndex opcode space
            (signedIndex (index.get lane)) count lane limit)))) := by
    intro lane active
    split
    · rename_i inside
      change (signedIndex (index.get lane)).toInt.toNat + count ≤ limit
      omega
    · refine ⟨rfl, ?_⟩
      rintro _ ⟨⟩
      exact (Lanes.mem_active _ _).mp active
  apply (Yields.forM checked).relax
  intro _ all lane live
  exact all lane ((Lanes.mem_active _ _).mpr live)

/-- The registers that an indexed load gives. -/
def gathered (machine : Machine) (batch : Batch σ) (space : Space) (count : Nat)
    (index : Register) : List Register :=
  mergeAnswers count [] (machine.live.active.map fun lane =>
    (lane, laneWords
      (machine.slots batch space (indexSlot (index.get lane)) count) lane))

@[simp]
theorem length_gathered (space : Space) (count : Nat) (index : Register) :
    (machine.gathered batch space count index).length = count := by
  simp [gathered, mergeAnswers]

/-- An indexed load reads the slots of each live lane and gives zero elsewhere. -/
theorem get_gathered (space : Space) (count : Nat) (index : Register)
    (step : Nat) (inRange : step < (machine.gathered batch space count index).length)
    (lane : Lane) :
    ((machine.gathered batch space count index)[step]).get lane =
      if machine.live.get lane = true then
        (laneWords (machine.slots batch space (indexSlot (index.get lane)) count)
          lane).getD step 0
      else 0 := by
  simp only [gathered, mergeAnswers, List.getElem_map, List.getElem_range,
    Lanes.get_ofFn, lookup_map_lane, Lanes.mem_active]
  by_cases live : machine.live.get lane = true
  · simp only [live, if_true]
  · simp only [live, Bool.false_eq_true, if_false, List.getD_nil, Lanes.get_zero]

/-- An indexed load of indices inside their space. -/
theorem gather_eq (fits : machine.Fits) (space : Space) (count : Nat) :
    machine.gather batch space count = (do
      let (index, below) ← machine.pop
      machine.checkIndices (.gather space) space index count
        (batch.limit machine space)
      scratch count
      below.push (machine.gathered batch space count index)) := by
  unfold gather
  congr
  funext popped
  obtain ⟨index, below⟩ := popped
  have checked := checkIndices_yields machine (.gather space) space index count
    (batch.limit machine space)
  simp only
  cases outcome : machine.checkIndices (.gather space) space index count
      (batch.limit machine space) with
  | error failure =>
      rfl
  | ok done =>
      have inside := checked.of_ok outcome
      have answers :
          (machine.live.active.mapM fun lane => do
            let run ← machine.slotRun batch space (indexSlot (index.get lane)) count
            return (lane, laneWords run lane)) =
          .ok (machine.live.active.map fun lane =>
            (lane, laneWords
              (machine.slots batch space (indexSlot (index.get lane)) count) lane)) := by
        apply mapM_ok_of_forall
        intro lane active
        rw [slotRun_of_le fits (inside lane ((Lanes.mem_active _ _).mp active))]
        rfl
      rw [ok_bind, ok_bind, answers, ok_bind, gathered]

/-- An indexed load is an operation that touches nothing. -/
theorem gather_yields (fits : machine.Fits) (space : Space) (count : Nat) :
    Yields (machine.AllowsUnless (count ≤ vectorCells)) (machine.Operates 1 count untouched)
      (machine.gather batch space count) := by
  rw [gather_eq fits]
  apply Yields.bind ((pop_yields fits).permit fun _ => Or.inl)
  rintro popped ⟨present, rfl⟩
  apply Yields.bind ((checkIndices_yields machine _ _ _ _ _).permit fun _ => Or.inl)
  intro _ _
  apply Yields.bind (scratch_yields machine count)
  intro _ _
  apply ((push_yields (machine.drop 1) _).permit fun _ => Or.inl).relax
  rintro after ⟨enough, rfl⟩
  have operates := operates_replace present enough
  rw [length_gathered] at operates
  exact operates

/-- Write the words of one lane into the slots that its index leads to. -/
def scatterLane (bank : Bank) (index : Register) (values : List Register)
    (machine : Machine) (lane : Lane) : Machine :=
  machine.updated bank (indexSlot (index.get lane))
    (fun before word => before.set lane word) (laneWords values lane)

/-- The cells that an indexed store of some lanes addresses. -/
def scatterCells (machine : Machine) (bank : Bank) (index : Register) (count : Nat)
    (lanes : List Lane) : Bank → Nat → Lane → Prop :=
  fun other position lane =>
    other = bank ∧ lane ∈ lanes ∧
      machine.origin bank + indexSlot (index.get lane) ≤ position ∧
        position < machine.origin bank + indexSlot (index.get lane) + count

instance (machine : Machine) (bank : Bank) (index : Register) (count : Nat)
    (lanes : List Lane) (other : Bank) (position : Nat) (lane : Lane) :
    Decidable (machine.scatterCells bank index count lanes other position lane) :=
  inferInstanceAs (Decidable (_ ∧ _))

section Scatter

variable {bank : Bank} {index : Register} {values : List Register}

@[simp]
theorem length_laneWords (registers : List Register) (lane : Lane) :
    (laneWords registers lane).length = registers.length := by
  simp [laneWords]

/-- The cells of one lane of an indexed store. -/
theorem get_cell_scatterLane {lane : Lane}
    (inside : machine.origin bank + indexSlot (index.get lane) + values.length ≤
      bank.capacity)
    (other : Bank) (position : Nat) (reader : Lane) :
    ((scatterLane bank index values machine lane).cell other position).get reader =
      if other = bank ∧ reader = lane ∧
          machine.origin bank + indexSlot (index.get lane) ≤ position ∧
          position < machine.origin bank + indexSlot (index.get lane) + values.length then
        (values.getD (position - (machine.origin bank + indexSlot (index.get lane)))
          .zero).get lane
      else (machine.cell other position).get reader := by
  have wordsInside : machine.origin bank + indexSlot (index.get lane) +
      (laneWords values lane).length ≤ bank.capacity := by
    rw [length_laneWords]
    exact inside
  unfold scatterLane
  by_cases within : other = bank ∧
      machine.origin bank + indexSlot (index.get lane) ≤ position ∧
      position < machine.origin bank + indexSlot (index.get lane) + values.length
  · rcases within with ⟨rfl, lower, upper⟩
    obtain ⟨step, rfl⟩ := Nat.exists_eq_add_of_le lower
    have inRange : step < values.length := by omega
    rw [cell_updated_of_lt wordsInside (by rw [length_laneWords]; exact inRange)]
    rw [Lanes.get_set, Nat.add_sub_cancel_left]
    by_cases same : lane = reader
    · subst same
      rw [if_pos rfl, if_pos ⟨rfl, rfl, lower, upper⟩]
      simp [laneWords, List.getD_eq_getElem?_getD, List.getElem?_eq_getElem inRange]
    · rw [if_neg same, if_neg]
      rintro ⟨_, equal, _⟩
      exact same equal.symm
  · rw [if_neg fun met => within ⟨met.1, met.2.2⟩]
    rw [cell_updated_of_outside wordsInside]
    intro same
    rw [length_laneWords]
    by_contra inRange
    exact within ⟨same, by omega, by omega⟩

@[simp]
theorem scatterLane_origin (lane : Lane) (other : Bank) :
    (scatterLane bank index values machine lane).origin other =
      machine.origin other :=
  updated_origin other

/-- Indexed stores of lanes whose runs lie inside the bank all succeed. -/
theorem foldlM_scatter {lanes : List Lane}
    (inside : ∀ lane ∈ lanes,
      machine.origin bank + indexSlot (index.get lane) + values.length ≤
        bank.capacity) :
    lanes.foldlM
        (fun stored lane =>
          stored.updateRun bank (indexSlot (index.get lane))
            (fun before word => before.set lane word) (laneWords values lane))
        machine =
      .ok (lanes.foldl (scatterLane bank index values) machine) := by
  induction lanes generalizing machine with
  | nil =>
      rfl
  | cons head tail induction =>
      have headInside : machine.origin bank + indexSlot (index.get head) +
          (laneWords values head).length ≤ bank.capacity := by
        rw [length_laneWords]
        exact inside head List.mem_cons_self
      rw [List.foldlM_cons, updateRun_of_le headInside, ok_bind, List.foldl_cons]
      apply induction
      intro lane member
      rw [updated_origin]
      exact inside lane (List.mem_cons_of_mem head member)

/-- The cells of an indexed store of some lanes. -/
theorem get_cell_scattered {lanes : List Lane}
    (inside : ∀ lane ∈ lanes,
      machine.origin bank + indexSlot (index.get lane) + values.length ≤
        bank.capacity)
    (other : Bank) (position : Nat) (reader : Lane) :
    ((lanes.foldl (scatterLane bank index values) machine).cell other position).get
        reader =
      if machine.scatterCells bank index values.length lanes other position reader then
        (values.getD (position - (machine.origin bank + indexSlot (index.get reader)))
          .zero).get reader
      else (machine.cell other position).get reader := by
  induction lanes generalizing machine with
  | nil =>
      simp [scatterCells]
  | cons head tail induction =>
      have tailInside : ∀ lane ∈ tail,
          (scatterLane bank index values machine head).origin bank +
              indexSlot (index.get lane) + values.length ≤ bank.capacity := by
        intro lane member
        rw [scatterLane_origin]
        exact inside lane (List.mem_cons_of_mem head member)
      rw [List.foldl_cons, induction tailInside,
        get_cell_scatterLane (inside head List.mem_cons_self)]
      simp only [scatterCells, scatterLane_origin, List.mem_cons]
      by_cases same : reader = head
      · subst same
        by_cases addressed : other = bank ∧
            machine.origin bank + indexSlot (index.get reader) ≤ position ∧
            position < machine.origin bank + indexSlot (index.get reader) + values.length
        · simp [addressed]
        · simp only [true_or, true_and, addressed, if_false]
          rw [if_neg fun met => addressed ⟨met.1, met.2.2⟩]
      · simp [same]

theorem foldl_scatterLane_frame (lanes : List Lane) (machine : Machine) :
    let after := lanes.foldl (scatterLane bank index values) machine
    after.top = machine.top ∧ after.current = machine.current ∧
      after.callers = machine.callers ∧ after.predicates = machine.predicates :=
  foldl_updated_frame (fun _ _ => rfl) lanes machine

/-- Indexed stores of lanes touch the cells that the lanes address. -/
theorem scatter_touches {lanes : List Lane}
    (inside : ∀ lane ∈ lanes,
      machine.origin bank + indexSlot (index.get lane) + values.length ≤
        bank.capacity) :
    machine.Touches (machine.scatterCells bank index values.length lanes)
      (lanes.foldl (scatterLane bank index values) machine) := by
  rcases @foldl_scatterLane_frame bank index values lanes machine with
    ⟨top, current, callers, predicates⟩
  refine ⟨top, current, callers, predicates, ?_⟩
  intro other position lane notTouched
  rw [get_cell_scattered inside, if_neg notTouched]

/-- An indexed store in closed form. -/
theorem scatter_eq (fits : machine.Fits) (count : Nat) :
    machine.scatter batch bank count = (do
      let (index, below) ← machine.pop
      machine.checkIndices (.scatter bank) bank.space index count
        (batch.limit machine bank.space)
      let values ← below.peek count
      return (machine.live.active.foldl (scatterLane bank index values) below).drop
        count) := by
  unfold scatter
  cases outcome : machine.pop with
  | error failure =>
      rfl
  | ok popped =>
      rcases (pop_yields fits).of_ok outcome with ⟨present, rfl⟩
      have belowFits := fits.drop present
      simp only [ok_bind]
      cases checked : machine.checkIndices (.scatter bank) bank.space
          (machine.cell .local (machine.top - 1)) count
          (batch.limit machine bank.space) with
      | error failure =>
          rfl
      | ok done =>
          have indices := (checkIndices_yields _ _ _ _ _ _).of_ok checked
          simp only [ok_bind]
          cases peeked : (machine.drop 1).peek count with
          | error failure =>
              rfl
          | ok values =>
              rcases (peek_yields belowFits count).of_ok peeked with ⟨_, rfl⟩
              have all : ∀ lane ∈ machine.live.active,
                  (machine.drop 1).origin bank +
                      indexSlot ((machine.cell .local (machine.top - 1)).get lane) +
                      ((machine.drop 1).topmost count).length ≤ bank.capacity := by
                intro lane active
                rw [length_topmost]
                exact (slots_inside fits
                  (indices lane ((Lanes.mem_active _ _).mp active))).1
              rw [ok_bind, foldlM_scatter all]
              rfl

/-- An indexed store touches the addressed slots in the live lanes. -/
theorem scatter_yields (fits : machine.Fits) (bank : Bank) (count : Nat) :
    Yields machine.Allows
      (machine.Operates (count + 1) 0
        (machine.scatterCells bank (machine.cell .local (machine.top - 1)) count
          machine.live.active))
      (machine.scatter batch bank count) := by
  rw [scatter_eq fits]
  apply Yields.bind (pop_yields fits)
  rintro popped ⟨present, rfl⟩
  apply Yields.bind (checkIndices_yields machine _ _ _ _ _)
  intro _ indices
  have belowFits := fits.drop present
  apply Yields.bind (peek_yields belowFits count)
  rintro values ⟨valuesPresent, rfl⟩
  have placed := fun lane active =>
    slots_inside fits (indices lane ((Lanes.mem_active _ _).mp active))
  have touches := @scatter_touches (machine.drop 1) bank
    (machine.cell .local (machine.top - 1)) ((machine.drop 1).topmost count)
    machine.live.active (by
      intro lane active
      rw [length_topmost]
      exact (placed lane active).1)
  rw [length_topmost] at touches
  apply Operates.of_drop _ present
  apply touches.operates belowFits valuesPresent
  rintro other position lane ⟨rfl, active, lower, upper⟩
  refine ⟨(Lanes.mem_active _ _).mp active, ?_⟩
  rintro rfl
  have below := (placed lane active).2 rfl
  change machine.current.base + _ ≤ position at lower
  change position < machine.current.base + _ + count at upper
  change machine.current.base + _ + count ≤ _ at below
  change machine.current.base ≤ position ∧ position < machine.current.floor
  omega

end Scatter

/-- A check of indices changes nothing. -/
theorem clampIndex_yields (fits : machine.Fits) (length : Nat) :
    Yields machine.Allows
      (fun after => after = machine ∧ machine.Operates 1 1 untouched after)
      (machine.clampIndex length) := by
  unfold clampIndex
  apply Yields.bind (peek_yields fits 1)
  rintro operands ⟨present, rfl⟩
  have checked : Yields machine.Allows (fun _ => ∀ lane ∈ machine.live.active, True)
      (machine.live.active.forM fun lane =>
        if 0 ≤ (signedIndex (((machine.topmost 1).headD .zero).get lane)).toInt ∧
            (signedIndex (((machine.topmost 1).headD .zero).get lane)).toInt < length then
          .ok ()
        else .error (.fault (.bounds (.index
          (signedIndex (((machine.topmost 1).headD .zero).get lane)) lane length)))) := by
    apply Yields.forM
    intro lane active
    split
    · trivial
    · refine ⟨rfl, ?_⟩
      rintro _ ⟨⟩
      exact (Lanes.mem_active _ _).mp active
  apply Yields.bind checked
  intro _ _
  refine ⟨rfl, present, ?_, fits.capacity, rfl, rfl, rfl, ?_, fun _ _ _ _ _ => rfl⟩
  · omega
  · intro bank position lane impossible
    exact impossible.elim

end Machine

end Lockstep
