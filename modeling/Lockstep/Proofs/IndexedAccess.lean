import Lockstep.Proofs.Safety

/-!
# Indexed accesses

An indexed access takes an index of each lane from the operand stack and reads
or writes the run of slots that starts there.  Only the indices of live lanes
count, and `Machine.Strays` says that one of them leads out of its space.  An
access fails for bounds exactly then.  Otherwise an indexed load gives each live
lane the words of its own slots, and an indexed store writes them
(`Machine.Gathers` and `Machine.Scatters`).

A failed access leaves no machine behind, so it could not be seen to change a
slot.  The accesses are therefore also carried out in place, one word after the
other, in `InPlace`: there, what is done before a failure stays done.  Both ways
come to the same, and in place a failure finds every slot as it was.
-/

namespace Lockstep

variable {σ α : Type}

/-- Changes that cannot fail are made one after the other. -/
theorem Session.at_forM {entries : List α} {act : α → Session σ Unit}
    {change : σ → α → σ}
    (changes : ∀ state entry, (act entry).at state = (.ok (), change state entry))
    (state : σ) :
    (entries.forM act).at state = (.ok (), entries.foldl change state) := by
  induction entries generalizing state with
  | nil =>
      rfl
  | cons head tail induction =>
      change (act head >>= fun _ => tail.forM act).at state = _
      rw [Session.at_bind, changes]
      exact induction (change state head)

namespace Machine

variable {machine : Machine} {batch : Batch σ} {bank : Bank} {space : Space}

/-- Machines that agree on every cell and on everything else are the same. -/
theorem eq_of_cells {left right : Machine}
    (cells : ∀ bank position lane,
      (left.cell bank position).get lane = (right.cell bank position).get lane)
    (top : left.top = right.top) (current : left.current = right.current)
    (callers : left.callers = right.callers)
    (predicates : left.predicates = right.predicates) :
    left = right := by
  have same : ∀ bank position, left.cell bank position = right.cell bank position :=
    fun bank position => Lanes.ext_get (cells bank position)
  have registers : left.registers = right.registers :=
    RegisterFile.ext_register (same .local)
  have globals : left.globals = right.globals :=
    RegisterFile.ext_register (same .global)
  cases left
  cases right
  simp_all

/-! ## Indices -/

/-- The register that an indexed access takes its indices from. -/
def index (machine : Machine) : Register :=
  machine.cell .local (machine.top - 1)

/-- The word of a lane in a slot of a space. -/
def slotWord (machine : Machine) (batch : Batch σ) (space : Space) (slot : Nat)
    (lane : Lane) : Word :=
  match space with
  | .local => (machine.cell .local (machine.current.base + slot)).get lane
  | .global => (machine.cell .global slot).get lane
  | .uniform => batch.uniforms.getD slot 0

/-- From the index of some live lane a run would leave its space. -/
def Strays (machine : Machine) (batch : Batch σ) (space : Space) (count : Nat) : Prop :=
  ∃ lane, machine.live.get lane = true ∧
    ((signedIndex (machine.index.get lane)).toInt < 0 ∨
      batch.limit machine space < (signedIndex (machine.index.get lane)).toInt + count)

/-- The indices pass unless one of a live lane strays. -/
theorem checkIndices_eq (machine : Machine) (batch : Batch σ) (opcode : Opcode)
    (space : Space) (count : Nat) :
    Yields
      (fun failure => machine.Strays batch space count ∧
        ∃ lane, failure = .fault (.bounds (.laneIndex opcode space
          (signedIndex (machine.index.get lane)) count lane (batch.limit machine space))))
      (fun _ => ¬ machine.Strays batch space count)
      (machine.checkIndices opcode space machine.index count
        (batch.limit machine space)) := by
  unfold checkIndices
  have each : ∀ lane ∈ machine.live.active,
      Yields
        (fun failure => machine.Strays batch space count ∧
          ∃ lane, failure = .fault (.bounds (.laneIndex opcode space
            (signedIndex (machine.index.get lane)) count lane (batch.limit machine space))))
        (fun _ => 0 ≤ (signedIndex (machine.index.get lane)).toInt ∧
          (signedIndex (machine.index.get lane)).toInt + count ≤
            batch.limit machine space)
        (if 0 ≤ (signedIndex (machine.index.get lane)).toInt ∧
            (signedIndex (machine.index.get lane)).toInt + count ≤
              batch.limit machine space then .ok ()
          else .error (.fault (.bounds (.laneIndex opcode space
            (signedIndex (machine.index.get lane)) count lane
            (batch.limit machine space))))) := by
    intro lane active
    split
    · assumption
    · rename_i outside
      exact ⟨⟨lane, (Lanes.mem_active _ _).mp active, by omega⟩, lane, rfl⟩
  apply (Yields.forM each).relax
  rintro _ inside ⟨lane, live, outside⟩
  have within := inside lane ((Lanes.mem_active _ _).mpr live)
  omega

/-- The runs of indices that do not stray lie inside their space. -/
theorem indicesInside_of_not_strays {count : Nat}
    (inside : ¬ machine.Strays batch space count) :
    machine.IndicesInside machine.index count (batch.limit machine space) := by
  intro lane live
  change (signedIndex (machine.index.get lane)).toInt.toNat + count ≤ _
  by_contra outside
  exact inside ⟨lane, live, by omega⟩

theorem pop_of_present (fits : machine.Fits)
    (present : machine.current.floor + 1 ≤ machine.top) :
    machine.pop = .ok (machine.index, machine.drop 1) := by
  unfold pop
  rw [peek_of_present fits present, ok_bind]
  exact congrArg Except.ok (Prod.ext (by simp [topmost, index, RegisterFile.run, cell]) rfl)

/-- The words of a run of slots inside its space. -/
theorem getD_laneWords_slots {slot count step : Nat}
    (inside : slot + count ≤ batch.limit machine space) (inRange : step < count)
    (lane : Lane) :
    (laneWords (machine.slots batch space slot count) lane).getD step 0 =
      machine.slotWord batch space (slot + step) lane := by
  cases space with
  | «local» =>
      simp [laneWords, slots, slotWord, cell, RegisterFile.run, inRange, Nat.add_assoc]
  | global =>
      simp [laneWords, slots, slotWord, cell, RegisterFile.run, inRange]
  | uniform =>
      change slot + count ≤ batch.uniforms.length at inside
      have listed : slot + step < batch.uniforms.length := by omega
      simp [laneWords, slots, slotWord, inRange, listed]

/-! ## Indexed loads -/

/-- The machine after an indexed load. -/
def gatheredFrom (machine : Machine) (batch : Batch σ) (space : Space) (count : Nat) :
    Machine :=
  (machine.drop 1).pushed (machine.gathered batch space count machine.index)

/-- An indexed load with an index there, in closed form. -/
theorem gather_of_present (fits : machine.Fits)
    (present : machine.current.floor + 1 ≤ machine.top) (space : Space) {count : Nat}
    (few : count ≤ vectorCells) :
    machine.gather batch space count = (do
      machine.checkIndices (.gather space) space machine.index count
        (batch.limit machine space)
      if machine.top - 1 + count ≤ stackCapacity then
        return machine.gatheredFrom batch space count
      else throw (.fault (.capacity (.stack count)))) := by
  rw [gather_eq fits, pop_of_present fits present, ok_bind]
  dsimp only
  rw [scratch_of_le few, push_eq, length_gathered]
  rfl

/-- An indexed load fails for bounds exactly if an index strays. -/
theorem gather_outcome (fits : machine.Fits)
    (present : machine.current.floor + 1 ≤ machine.top) (batch : Batch σ) (space : Space)
    {count : Nat} (few : count ≤ vectorCells) :
    (machine.Strays batch space count ∧
      ∃ cause, machine.gather batch space count = .error (.fault (.bounds cause))) ∨
    (¬ machine.Strays batch space count ∧
      machine.gather batch space count =
        if machine.top - 1 + count ≤ stackCapacity then
          .ok (machine.gatheredFrom batch space count)
        else .error (.fault (.capacity (.stack count)))) := by
  have checked := machine.checkIndices_eq batch (.gather space) space count
  rw [gather_of_present fits present space few]
  cases outcome : machine.checkIndices (.gather space) space machine.index count
      (batch.limit machine space) with
  | error failure =>
      obtain ⟨strays, lane, rfl⟩ := checked.of_error outcome
      exact Or.inl ⟨strays, _, rfl⟩
  | ok done =>
      exact Or.inr ⟨checked.of_ok outcome, rfl⟩

/-- What an indexed load gives. -/
theorem get_gatheredFrom {count step : Nat}
    (enough : machine.top - 1 + count ≤ stackCapacity)
    (inside : ¬ machine.Strays batch space count) (inRange : step < count) (lane : Lane) :
    ((machine.gatheredFrom batch space count).cell .local (machine.top - 1 + step)).get
        lane =
      if machine.live.get lane = true then
        machine.slotWord batch space (indexSlot (machine.index.get lane) + step) lane
      else 0 := by
  have listed : step < (machine.gathered batch space count machine.index).length := by
    rw [length_gathered]
    exact inRange
  change (((machine.drop 1).registers.overwrite (machine.top - 1)
    (machine.gathered batch space count machine.index)).register _).get lane = _
  rw [RegisterFile.register_overwrite_add _ (by rw [length_gathered]; exact enough) listed,
    get_gathered]
  by_cases live : machine.live.get lane = true
  · rw [if_pos live, if_pos live]
    exact getD_laneWords_slots (indicesInside_of_not_strays inside lane live) inRange lane
  · rw [if_neg live, if_neg live]

/-! ## Indexed stores -/

/-- The register with a component of what an indexed store writes, below the index. -/
def storedValue (machine : Machine) (count step : Nat) : Register :=
  machine.cell .local (machine.top - 1 - count + step)

/-- The machine after an indexed store. -/
def scatteredInto (machine : Machine) (bank : Bank) (count : Nat) : Machine :=
  (machine.live.active.foldl
    (scatterLane bank machine.index ((machine.drop 1).topmost count))
      (machine.drop 1)).drop count

/-- An indexed store with an index there, in closed form. -/
theorem scatter_of_present (fits : machine.Fits)
    (present : machine.current.floor + 1 ≤ machine.top) (bank : Bank) (count : Nat) :
    machine.scatter batch bank count = (do
      machine.checkIndices (.scatter bank) bank.space machine.index count
        (batch.limit machine bank.space)
      (machine.drop 1).require count
      return machine.scatteredInto bank count) := by
  rw [scatter_eq fits, pop_of_present fits present, ok_bind]
  dsimp only
  congr 1
  funext done
  by_cases enough : (machine.drop 1).current.floor + count ≤ (machine.drop 1).top
  · rw [peek_of_present (fits.drop present) enough, require, if_pos enough]
    rfl
  · unfold peek require
    rw [if_neg enough]
    rfl

/-- An indexed store fails for bounds exactly if an index strays. -/
theorem scatter_outcome (fits : machine.Fits)
    (present : machine.current.floor + 1 ≤ machine.top) (batch : Batch σ) (bank : Bank)
    (count : Nat) :
    (machine.Strays batch bank.space count ∧
      ∃ cause, machine.scatter batch bank count = .error (.fault (.bounds cause))) ∨
    (¬ machine.Strays batch bank.space count ∧
      machine.scatter batch bank count =
        if (machine.drop 1).current.floor + count ≤ (machine.drop 1).top then
          .ok (machine.scatteredInto bank count)
        else .error (.fault (.bytecode (.underflow count
          ((machine.drop 1).top - (machine.drop 1).current.floor))))) := by
  have checked := machine.checkIndices_eq batch (.scatter bank) bank.space count
  rw [scatter_of_present fits present]
  cases outcome : machine.checkIndices (.scatter bank) bank.space machine.index count
      (batch.limit machine bank.space) with
  | error failure =>
      obtain ⟨strays, lane, rfl⟩ := checked.of_error outcome
      exact Or.inl ⟨strays, _, rfl⟩
  | ok done =>
      refine Or.inr ⟨checked.of_ok outcome, ?_⟩
      rw [ok_bind]
      unfold require
      split <;> rfl

theorem scatteredInto_frame (machine : Machine) (bank : Bank) (count : Nat) :
    (machine.scatteredInto bank count).top = machine.top - 1 - count ∧
      (machine.scatteredInto bank count).current = machine.current ∧
      (machine.scatteredInto bank count).callers = machine.callers ∧
      (machine.scatteredInto bank count).predicates = machine.predicates := by
  rcases @foldl_scatterLane_frame bank machine.index ((machine.drop 1).topmost count)
    machine.live.active (machine.drop 1) with ⟨top, current, callers, predicates⟩
  exact ⟨congrArg (· - count) top, current, callers, predicates⟩

theorem getD_topmost_below {count step : Nat} (inRange : step < count) :
    ((machine.drop 1).topmost count).getD step .zero = machine.storedValue count step := by
  have listed : step < ((machine.drop 1).topmost count).length := by
    rw [length_topmost]
    exact inRange
  rw [List.getD_eq_getElem?_getD, List.getElem?_eq_getElem listed, Option.getD_some,
    getElem_topmost]
  rfl

/-- What an indexed store leaves in each cell. -/
theorem get_cell_scatteredInto (fits : machine.Fits) {count : Nat}
    (inside : ¬ machine.Strays batch bank.space count)
    (other : Bank) (position : Nat) (lane : Lane) :
    ((machine.scatteredInto bank count).cell other position).get lane =
      if machine.scatterCells bank machine.index count machine.live.active other position
          lane then
        (machine.storedValue count
          (position - (machine.origin bank + indexSlot (machine.index.get lane)))).get lane
      else (machine.cell other position).get lane := by
  have placed : ∀ lane ∈ machine.live.active,
      (machine.drop 1).origin bank + indexSlot (machine.index.get lane) +
        ((machine.drop 1).topmost count).length ≤ bank.capacity := by
    intro lane active
    rw [length_topmost, origin_drop]
    exact (slots_inside fits (indicesInside_of_not_strays inside lane
      ((Lanes.mem_active _ _).mp active))).1
  unfold scatteredInto
  rw [cell_drop, get_cell_scattered placed, length_topmost, cell_drop, origin_drop]
  simp only [scatterCells, origin_drop]
  refine ite_congr rfl ?_ fun _ => rfl
  rintro ⟨_, _, lower, upper⟩
  rw [getD_topmost_below (by omega)]

/-- An indexed store at one slot in every live lane is a store at that slot. -/
theorem scatteredInto_eq_stored (fits : machine.Fits) {count slot : Nat}
    (inside : ¬ machine.Strays batch bank.space count)
    (bounded : slot + count ≤ batch.limit machine bank.space)
    (same : ∀ lane, machine.live.get lane = true →
      indexSlot (machine.index.get lane) = slot) :
    machine.scatteredInto bank count =
      (((machine.drop 1).updated bank slot
        (fun before value => .select (machine.drop 1).live value before)
        ((machine.drop 1).topmost count))).drop count := by
  obtain ⟨top, current, callers, predicates⟩ := machine.scatteredInto_frame bank count
  have placed : (machine.drop 1).origin bank + slot +
      ((machine.drop 1).topmost count).length ≤ bank.capacity := by
    rw [length_topmost, origin_drop]
    exact (slots_inside fits bounded).1
  apply eq_of_cells
  · intro other position lane
    rw [get_cell_scatteredInto fits inside, cell_drop, get_cell_masked placed,
      length_topmost, cell_drop, origin_drop]
    simp only [scatterCells, storeCells, origin_drop, Lanes.mem_active]
    by_cases live : machine.live.get lane = true
    · rw [same lane live]
      refine ite_congr ?_ ?_ fun _ => rfl
      · exact propext ⟨fun ⟨banks, _, lower, upper⟩ => ⟨banks, lower, upper, live⟩,
          fun ⟨banks, lower, upper, _⟩ => ⟨banks, live, lower, upper⟩⟩
      · rintro ⟨_, lower, upper, _⟩
        rw [getD_topmost_below (by omega)]
    · rw [if_neg fun met => live met.2.1, if_neg fun met => live met.2.2.2]
  · rw [top]
    exact congrArg (· - count) (@updated_top _ (machine.drop 1) bank slot _ _).symm
  · exact current.trans (@updated_current _ (machine.drop 1) bank slot _ _).symm
  · exact callers.trans (@updated_callers _ (machine.drop 1) bank slot _ _).symm
  · exact predicates.trans (@updated_predicates _ (machine.drop 1) bank slot _ _).symm

/-- At one slot in every live lane, an indexed store is a store. -/
theorem scatter_eq_store (fits : machine.Fits)
    (present : machine.current.floor + 1 ≤ machine.top) {count slot : Nat}
    (bounded : slot + count ≤ batch.limit machine bank.space)
    (same : ∀ lane, machine.live.get lane = true →
      (signedIndex (machine.index.get lane)).toInt = slot) :
    machine.scatter batch bank count = (machine.drop 1).store batch bank count slot := by
  have inside : ¬ machine.Strays batch bank.space count := by
    rintro ⟨lane, live, outside⟩
    have index := same lane live
    omega
  have slots : ∀ lane, machine.live.get lane = true →
      indexSlot (machine.index.get lane) = slot := by
    intro lane live
    exact congrArg Int.toNat (same lane live)
  have belowFits := fits.drop present
  have placed : (machine.drop 1).origin bank + slot +
      ((machine.drop 1).topmost count).length ≤ bank.capacity := by
    rw [length_topmost]
    exact (slots_inside belowFits bounded).1
  rcases scatter_outcome fits present batch bank count with ⟨strays, _⟩ | ⟨_, result⟩
  · exact absurd strays inside
  · rw [result]
    unfold store checkSlots
    rw [if_pos (show slot + count ≤ batch.limit (machine.drop 1) bank.space from bounded)]
    by_cases enough : (machine.drop 1).current.floor + count ≤ (machine.drop 1).top
    · rw [if_pos enough, peek_of_present belowFits enough]
      dsimp only
      rw [ok_bind, updateRun_of_le placed, scatteredInto_eq_stored fits inside bounded slots]
      rfl
    · unfold peek require
      rw [if_neg enough, if_neg enough]
      rfl

end Machine

/-! ## Accesses in place -/

namespace InPlace

/-- Work on a machine that may fail halfway: what it has done by then stays done. -/
abbrev Work (α : Type) : Type := Session Machine α

/-- Take an index of each lane, and refuse those that stray. -/
def popIndex (batch : Batch σ) (opcode : Opcode) (space : Space) (count : Nat) :
    Work Register := do
  let machine ← get
  Session.ofExcept (machine.require 1)
  set (machine.drop 1)
  Session.ofExcept (machine.checkIndices opcode space machine.index count
    (batch.limit machine space))
  return machine.index

/-- Replace an index of each lane by the run of slots that starts there, word by word. -/
def gather (batch : Batch σ) (space : Space) (count : Nat) : Work Unit := do
  let index ← popIndex batch (.gather space) space count
  let machine ← get
  let results := (List.range count).map fun step =>
    machine.live.active.foldl
      (fun result lane => result.set lane
        (machine.slotWord batch space (Machine.indexSlot (index.get lane) + step) lane))
      Lanes.zero
  Session.ofExcept (machine.room count)
  set (machine.pushed results)

/-- Write a word of a lane to a slot. -/
def setWord (bank : Bank) (machine : Machine) (slot : Nat) (lane : Lane) (word : Word) :
    Machine :=
  machine.updated bank slot (fun before written => before.set lane written) [word]

/-- Write one component of what is stored, lane after lane. -/
def putComponent (bank : Bank) (index : Register) (start step : Nat) : Work Unit := do
  let machine ← get
  let value := machine.cell .local (start + step)
  machine.live.active.forM fun lane =>
    modify fun reached =>
      setWord bank reached (Machine.indexSlot (index.get lane) + step) lane (value.get lane)

/-- Pop into the runs of slots that start at an index of each live lane, word by word. -/
def scatter (batch : Batch σ) (bank : Bank) (count : Nat) : Work Unit := do
  let index ← popIndex batch (.scatter bank) bank.space count
  let machine ← get
  Session.ofExcept (machine.require count)
  (List.range count).forM (putComponent bank index (machine.top - count))
  modify fun reached => reached.drop count

/--
Work in place comes to the machine that a step gives.  If the step fails, the
work fails alike, and no register and no global has changed by then.
-/
def Agrees (machine : Machine) (outcome : Except Failure Flow) (work : Work Unit) : Prop :=
  match outcome with
  | .ok flow => ∃ after, flow = .next after ∧ work.at machine = (.ok (), after)
  | .error failure => ∃ left, work.at machine = (.error failure, left) ∧
      left.registers = machine.registers ∧ left.globals = machine.globals

variable {machine : Machine} {batch : Batch σ} {bank : Bank} {space : Space}

theorem popIndex_at (present : machine.current.floor + 1 ≤ machine.top) (opcode : Opcode)
    (space : Space) (count : Nat) :
    (popIndex batch opcode space count).at machine =
      ((machine.checkIndices opcode space machine.index count
        (batch.limit machine space)).map fun _ => machine.index, machine.drop 1) := by
  unfold popIndex
  rw [Session.at_bind, Session.at_get]
  dsimp only
  rw [Session.at_bind, Session.at_ofExcept, Machine.require, if_pos present]
  dsimp only
  rw [Session.at_bind, Session.at_set]
  dsimp only
  rw [Session.at_bind, Session.at_ofExcept]
  cases machine.checkIndices opcode space machine.index count
      (batch.limit machine space) with
  | error failure => rfl
  | ok done => rfl

/-! ### Loads -/

/-- Setting a word in one lane after the other sets it in all of them. -/
theorem get_foldl_set (lanes : List Lane) (word : Lane → Word) (result : Register)
    (lane : Lane) :
    (lanes.foldl (fun result lane => result.set lane (word lane)) result).get lane =
      if lane ∈ lanes then word lane else result.get lane := by
  induction lanes generalizing result with
  | nil =>
      rfl
  | cons head tail induction =>
      rw [List.foldl_cons, induction, Lanes.get_set]
      grind

theorem results_eq_gathered {count : Nat}
    (inside : ¬ machine.Strays batch space count) :
    ((List.range count).map fun step =>
      (machine.drop 1).live.active.foldl
        (fun result lane => result.set lane
          ((machine.drop 1).slotWord batch space
            (Machine.indexSlot (machine.index.get lane) + step) lane))
        Lanes.zero) =
      machine.gathered batch space count machine.index := by
  apply List.ext_getElem
  · simp
  · intro step inRange listed
    apply Lanes.ext_get
    intro lane
    rw [Machine.length_gathered] at listed
    rw [List.getElem_map, List.getElem_range, get_foldl_set, Machine.get_gathered]
    change ite (lane ∈ machine.live.active) _ _ = _
    simp only [Lanes.mem_active]
    refine ite_congr rfl (fun live => ?_) fun _ => Lanes.get_zero lane
    rw [Machine.getD_laneWords_slots
      (Machine.indicesInside_of_not_strays inside lane live) listed]
    cases space <;> rfl

theorem gather_agrees (fits : machine.Fits)
    (present : machine.current.floor + 1 ≤ machine.top) (batch : Batch σ) (space : Space)
    {count : Nat} (few : count ≤ vectorCells) :
    Agrees machine ((machine.gather batch space count).map .next)
      (gather batch space count) := by
  have checked := machine.checkIndices_eq batch (.gather space) space count
  rw [Machine.gather_of_present fits present space few]
  unfold Agrees gather
  rw [Session.at_bind, popIndex_at present]
  cases outcome : machine.checkIndices (.gather space) space machine.index count
      (batch.limit machine space) with
  | error failure =>
      exact ⟨machine.drop 1, rfl, rfl, rfl⟩
  | ok done =>
      have inside := checked.of_ok outcome
      dsimp only [Except.map]
      rw [Session.at_bind, Session.at_get]
      dsimp only
      rw [Session.at_bind, Session.at_ofExcept, Machine.room, ok_bind,
        results_eq_gathered inside]
      by_cases enough : machine.top - 1 + count ≤ stackCapacity
      · rw [if_pos enough, if_pos (show (machine.drop 1).top + count ≤ _ from enough)]
        exact ⟨_, rfl, rfl⟩
      · rw [if_neg enough, if_neg (show ¬ (machine.drop 1).top + count ≤ _ from enough)]
        exact ⟨machine.drop 1, rfl, rfl, rfl⟩

/-! ### Stores -/

/-- The machine after one lane has written its word of a component. -/
def putLane (bank : Bank) (index value : Register) (step : Nat) (machine : Machine)
    (lane : Lane) : Machine :=
  setWord bank machine (Machine.indexSlot (index.get lane) + step) lane (value.get lane)

/-- The machine after a component has been written. -/
def putLanes (bank : Bank) (index : Register) (start : Nat) (machine : Machine)
    (step : Nat) : Machine :=
  machine.live.active.foldl
    (putLane bank index (machine.cell .local (start + step)) step) machine

theorem putComponent_at (index : Register) (start : Nat) (machine : Machine) (step : Nat) :
    (putComponent bank index start step).at machine =
      (.ok (), putLanes bank index start machine step) := by
  unfold putComponent
  rw [Session.at_bind, Session.at_get]
  exact Session.at_forM (fun _ _ => Session.at_modify _ _) machine

/-- The cells after one word has been written. -/
theorem get_cell_setWord {slot : Nat} (inside : machine.origin bank + slot < bank.capacity)
    (lane : Lane) (word : Word) (other : Bank) (position : Nat) (reader : Lane) :
    ((setWord bank machine slot lane word).cell other position).get reader =
      if other = bank ∧ reader = lane ∧ position = machine.origin bank + slot then word
      else (machine.cell other position).get reader := by
  have placed : machine.origin bank + slot + [word].length ≤ bank.capacity := inside
  unfold setWord
  by_cases within : other = bank ∧ position = machine.origin bank + slot
  · obtain ⟨rfl, rfl⟩ := within
    have written := @Machine.cell_updated_of_lt _ machine other slot
      (fun before written => before.set lane written) [word] placed 0 Nat.zero_lt_one
    rw [Nat.add_zero] at written
    rw [written, Lanes.get_set, List.getElem_cons_zero]
    refine ite_congr (propext ⟨fun same => ⟨rfl, same.symm, rfl⟩, fun met => met.2.1.symm⟩)
      (fun _ => rfl) fun _ => rfl
  · rw [if_neg fun met => within ⟨met.1, met.2.2⟩, Machine.cell_updated_of_outside placed]
    intro same
    rw [List.length_singleton]
    by_contra inRange
    exact within ⟨same, by omega⟩

/-- What the lanes of a component write. -/
theorem get_cell_foldl_putLane {lanes : List Lane} {index : Register} {step : Nat}
    (inside : ∀ lane ∈ lanes,
      machine.origin bank + (Machine.indexSlot (index.get lane) + step) < bank.capacity)
    (value : Register) (other : Bank) (position : Nat) (reader : Lane) :
    ((lanes.foldl (putLane bank index value step) machine).cell other position).get reader =
      if other = bank ∧ reader ∈ lanes ∧
          position = machine.origin bank + (Machine.indexSlot (index.get reader) + step) then
        value.get reader
      else (machine.cell other position).get reader := by
  induction lanes generalizing machine with
  | nil =>
      simp
  | cons head tail induction =>
      have origins : (putLane bank index value step machine head).origin bank =
          machine.origin bank :=
        Machine.updated_origin bank
      rw [List.foldl_cons, induction fun lane member => by
        rw [origins]
        exact inside lane (List.mem_cons_of_mem head member)]
      unfold putLane at origins ⊢
      rw [origins, get_cell_setWord (inside head List.mem_cons_self)]
      grind

theorem foldl_putLane_frame (lanes : List Lane) (index value : Register) (step : Nat)
    (machine : Machine) :
    let after := lanes.foldl (putLane bank index value step) machine
    after.top = machine.top ∧ after.current = machine.current ∧
      after.callers = machine.callers ∧ after.predicates = machine.predicates :=
  Machine.foldl_updated_frame (fun _ _ => rfl) lanes machine

/-- The words of some components have been written, and nothing else has changed. -/
structure Written (bank : Bank) (index : Register) (start done : Nat)
    (machine reached : Machine) : Prop where
  top : reached.top = machine.top
  current : reached.current = machine.current
  callers : reached.callers = machine.callers
  predicates : reached.predicates = machine.predicates
  cells : ∀ other position lane, (reached.cell other position).get lane =
    if machine.scatterCells bank index done machine.live.active other position lane then
      (machine.cell .local (start +
        (position - (machine.origin bank + Machine.indexSlot (index.get lane))))).get lane
    else (machine.cell other position).get lane

/--
Writing component after component.  The slots that are written lie below the
operands, so each component is read as it was at the beginning.
-/
theorem written_components {index : Register} {start count : Nat}
    (inside : ∀ lane ∈ machine.live.active,
      machine.origin bank + Machine.indexSlot (index.get lane) + count ≤ bank.capacity)
    (apart : bank = .local → ∀ lane ∈ machine.live.active,
      machine.origin bank + Machine.indexSlot (index.get lane) + count ≤ start)
    {done : Nat} (within : done ≤ count) :
    Written bank index start done machine
      ((List.range done).foldl (putLanes bank index start) machine) := by
  induction done with
  | zero =>
      refine ⟨rfl, rfl, rfl, rfl, ?_⟩
      intro other position lane
      rw [if_neg]
      · rfl
      · rintro ⟨_, _, lower, upper⟩
        omega
  | succ done induction =>
      have written := induction (by omega)
      rw [List.range_succ, List.foldl_append, List.foldl_cons, List.foldl_nil]
      generalize (List.range done).foldl (putLanes bank index start) machine = reached
        at written
      have live : reached.live = machine.live := congrArg Predicates.live written.predicates
      have origins : reached.origin bank = machine.origin bank := by
        unfold Machine.origin
        rw [written.current]
      have value : ∀ lane, (reached.cell .local (start + done)).get lane =
          (machine.cell .local (start + done)).get lane := by
        intro lane
        rw [written.cells, if_neg]
        rintro ⟨rfl, active, lower, upper⟩
        have below := apart rfl lane active
        omega
      unfold putLanes
      rw [live]
      rcases @foldl_putLane_frame bank machine.live.active index
        (reached.cell .local (start + done)) done reached with
        ⟨top, current, callers, predicates⟩
      refine ⟨top.trans written.top, current.trans written.current,
        callers.trans written.callers, predicates.trans written.predicates, ?_⟩
      intro other position lane
      rw [get_cell_foldl_putLane (by
        intro lane active
        have bound := inside lane active
        rw [origins]
        omega), origins, value, written.cells]
      by_cases newest : other = bank ∧ lane ∈ machine.live.active ∧
          position = machine.origin bank + (Machine.indexSlot (index.get lane) + done)
      · obtain ⟨rfl, active, rfl⟩ := newest
        rw [if_pos ⟨rfl, active, rfl⟩, if_pos ⟨rfl, active, by omega, by omega⟩,
          ← Nat.add_assoc, Nat.add_sub_cancel_left]
      · rw [if_neg newest]
        refine ite_congr (propext ⟨?_, ?_⟩) (fun _ => rfl) fun _ => rfl
        · rintro ⟨banks, active, lower, upper⟩
          exact ⟨banks, active, lower, by omega⟩
        · rintro ⟨banks, active, lower, upper⟩
          refine ⟨banks, active, lower, ?_⟩
          by_contra beyond
          exact newest ⟨banks, active, by omega⟩

/-- Writing word by word comes to the same as writing lane by lane. -/
theorem foldl_putLanes_eq (fits : machine.Fits) {count : Nat}
    (enough : (machine.drop 1).current.floor + count ≤ (machine.drop 1).top)
    (inside : ¬ machine.Strays batch bank.space count) :
    ((List.range count).foldl
      (putLanes bank machine.index ((machine.drop 1).top - count)) (machine.drop 1)).drop
        count = machine.scatteredInto bank count := by
  have placed := fun lane active => Machine.slots_inside fits
    (Machine.indicesInside_of_not_strays inside lane
      ((Lanes.mem_active machine.live lane).mp active))
  obtain ⟨top, current, callers, predicates⟩ := machine.scatteredInto_frame bank count
  have written := @written_components (machine.drop 1) bank machine.index
    ((machine.drop 1).top - count) count
    (fun lane active => by
      rw [Machine.origin_drop]
      exact (placed lane active).1)
    (fun banks lane active => by
      rw [Machine.origin_drop]
      have below := (placed lane active).2 banks
      change _ ≤ machine.top - 1 - count
      change machine.current.floor + count ≤ machine.top - 1 at enough
      omega)
    count (Nat.le_refl count)
  apply Machine.eq_of_cells
  · intro other position lane
    rw [Machine.cell_drop, written.cells, Machine.get_cell_scatteredInto fits inside,
      Machine.cell_drop, Machine.cell_drop, Machine.origin_drop]
    rfl
  · rw [top]
    exact congrArg (· - count) written.top
  · exact written.current.trans current.symm
  · exact written.callers.trans callers.symm
  · exact written.predicates.trans predicates.symm

theorem scatter_agrees (fits : machine.Fits)
    (present : machine.current.floor + 1 ≤ machine.top) (batch : Batch σ) (bank : Bank)
    (count : Nat) :
    Agrees machine ((machine.scatter batch bank count).map .next)
      (scatter batch bank count) := by
  have checked := machine.checkIndices_eq batch (.scatter bank) bank.space count
  rw [Machine.scatter_of_present fits present]
  unfold Agrees scatter
  rw [Session.at_bind, popIndex_at present]
  cases outcome : machine.checkIndices (.scatter bank) bank.space machine.index count
      (batch.limit machine bank.space) with
  | error failure =>
      exact ⟨machine.drop 1, rfl, rfl, rfl⟩
  | ok done =>
      have inside := checked.of_ok outcome
      dsimp only [Except.map]
      rw [Session.at_bind, Session.at_get]
      dsimp only
      rw [Session.at_bind, Session.at_ofExcept, ok_bind]
      unfold Machine.require
      by_cases enough : (machine.drop 1).current.floor + count ≤ (machine.drop 1).top
      · rw [if_pos enough, ok_bind]
        refine ⟨_, rfl, ?_⟩
        dsimp only
        rw [Session.at_bind, Session.at_forM (putComponent_at _ _)]
        dsimp only
        rw [Session.at_modify, foldl_putLanes_eq fits enough inside]
      · rw [if_neg enough]
        exact ⟨machine.drop 1, rfl, rfl, rfl⟩

end InPlace

/-! ## Steps -/

namespace Machine

variable {machine : Machine} {batch : Batch σ} {bank : Bank} {space : Space}

/-- A machine has an indexed load's results in the place of its index. -/
structure Loaded (batch : Batch σ) (space : Space) (count : Nat)
    (machine after : Machine) : Prop where
  top : after.top = machine.top - 1 + count
  globals : after.globals = machine.globals
  current : after.current = machine.current
  callers : after.callers = machine.callers
  predicates : after.predicates = machine.predicates
  below : ∀ position < machine.top - 1,
    after.cell .local position = machine.cell .local position
  /-- A live lane has the words of its own slots, and the others have zero. -/
  results : ∀ step < count, ∀ lane,
    (after.cell .local (machine.top - 1 + step)).get lane =
      if machine.live.get lane = true then
        machine.slotWord batch space (indexSlot (machine.index.get lane) + step) lane
      else 0

/-- A machine has the values of an indexed store in the slots of each live lane. -/
structure Stored (bank : Bank) (count : Nat) (machine after : Machine) : Prop where
  top : after.top = machine.top - 1 - count
  current : after.current = machine.current
  callers : after.callers = machine.callers
  predicates : after.predicates = machine.predicates
  written : ∀ lane, machine.live.get lane = true → ∀ step < count,
    (after.cell bank (machine.origin bank + (indexSlot (machine.index.get lane) + step))).get
        lane =
      (machine.storedValue count step).get lane
  /-- No other slot has changed, and no other lane of these slots. -/
  kept : ∀ other position lane,
    ¬ (other = bank ∧ machine.live.get lane = true ∧ ∃ step < count,
      position = machine.origin bank + (indexSlot (machine.index.get lane) + step)) →
    (after.cell other position).get lane = (machine.cell other position).get lane

/-- What a step does that loads from an index of each lane. -/
structure Gathers (batch : Batch σ) (host : σ) (space : Space) (count : UInt8)
    (machine : Machine) : Prop where
  refused : (∃ cause, (machine.stepAt batch host).1 = .error (.fault (.bounds cause))) ↔
    machine.Strays batch space count.toNat
  inPlace : InPlace.Agrees (machine.advanced (.gather space count))
    (machine.stepAt batch host).1 (InPlace.gather batch space count.toNat)
  loaded : ¬ machine.Strays batch space count.toNat →
    machine.top - 1 + count.toNat ≤ stackCapacity →
      ∃ after, machine.stepAt batch host = (.ok (.next after), host) ∧
        Loaded batch space count.toNat (machine.advanced (.gather space count)) after

/-- What a step does that stores at an index of each lane. -/
structure Scatters (batch : Batch σ) (host : σ) (bank : Bank) (count : UInt8)
    (machine : Machine) : Prop where
  refused : (∃ cause, (machine.stepAt batch host).1 = .error (.fault (.bounds cause))) ↔
    machine.Strays batch bank.space count.toNat
  inPlace : InPlace.Agrees (machine.advanced (.scatter bank count))
    (machine.stepAt batch host).1 (InPlace.scatter batch bank count.toNat)
  stored : ¬ machine.Strays batch bank.space count.toNat →
    machine.current.floor + (count.toNat + 1) ≤ machine.top →
      ∃ after, machine.stepAt batch host = (.ok (.next after), host) ∧
        Stored bank count.toNat (machine.advanced (.scatter bank count)) after
  /-- At one slot in every live lane it is a store at that slot. -/
  uniform : ∀ slot : Nat, slot + count.toNat ≤ batch.limit machine bank.space →
    (∀ lane, machine.live.get lane = true →
      (signedIndex (machine.index.get lane)).toInt = slot) →
    machine.stepAt batch host =
      (((machine.advanced (.scatter bank count)).drop 1).execute batch
        (.store bank count (UInt8.ofNat slot))).at host

theorem stored_scatteredInto (fits : machine.Fits) {count : Nat}
    (inside : ¬ machine.Strays batch bank.space count) :
    Stored bank count machine (machine.scatteredInto bank count) := by
  obtain ⟨top, current, callers, predicates⟩ := machine.scatteredInto_frame bank count
  refine ⟨top, current, callers, predicates, ?_, ?_⟩
  · intro lane live step inRange
    rw [get_cell_scatteredInto fits inside, if_pos, ← Nat.add_assoc,
      Nat.add_sub_cancel_left]
    exact ⟨rfl, (Lanes.mem_active _ _).mpr live, by omega, by omega⟩
  · intro other position lane outside
    rw [get_cell_scatteredInto fits inside, if_neg]
    rintro ⟨banks, active, lower, upper⟩
    exact outside ⟨banks, (Lanes.mem_active _ _).mp active,
      position - (machine.origin bank + indexSlot (machine.index.get lane)), by omega,
      by omega⟩

theorem loaded_gatheredFrom {count : Nat}
    (enough : machine.top - 1 + count ≤ stackCapacity)
    (inside : ¬ machine.Strays batch space count) :
    Loaded batch space count machine (machine.gatheredFrom batch space count) where
  top := by
    change machine.top - 1 + _ = _
    rw [length_gathered]
  globals := rfl
  current := rfl
  callers := rfl
  predicates := rfl
  below := fun position lower => by
    unfold gatheredFrom
    rw [cell_pushed (machine.drop 1) (by rw [length_gathered]; exact enough)
      fun _ => lower, cell_drop]
  results := fun step inRange lane => get_gatheredFrom enough inside inRange lane

/-- A step that loads from an index of each lane. -/
theorem Fits.gathers (fits : machine.Fits)
    (present : machine.current.floor + 1 ≤ machine.top) {count : UInt8}
    (decoded : machine.upcoming = .ok (.gather space count)) (host : σ) :
    Gathers batch host space count machine := by
  have pastFits : (machine.advanced (.gather space count)).Fits :=
    ⟨fits.sized, fits.frame, fits.floor, fits.capacity⟩
  have admitted : Within 1 widestVector count := (Instruction.decode_eq_ok decoded).2
  have few : count.toNat ≤ vectorCells := admitted.toNat_le
  have stepped : machine.stepAt batch host =
      (((machine.advanced (.gather space count)).gather batch space count.toNat).map .next,
        host) :=
    stepAt_of_decoded decoded rfl host
  have agrees : InPlace.Agrees (machine.advanced (.gather space count))
      (machine.stepAt batch host).1 (InPlace.gather batch space count.toNat) := by
    rw [stepped]
    exact InPlace.gather_agrees pastFits present batch space few
  rcases gather_outcome pastFits present batch space few with
    ⟨strays, cause, failed⟩ | ⟨inside, result⟩
  · rw [failed] at stepped
    refine ⟨?_, agrees, fun inside => absurd strays inside⟩
    exact iff_of_true ⟨cause, congrArg Prod.fst stepped⟩ strays
  · rw [result] at stepped
    refine ⟨iff_of_false ?_ inside, agrees, ?_⟩
    · rintro ⟨cause, failed⟩
      rw [stepped] at failed
      split at failed <;> cases failed
    · intro _ enough
      have past : (machine.advanced (.gather space count)).top - 1 + count.toNat ≤
          stackCapacity := enough
      rw [if_pos past] at stepped
      exact ⟨_, stepped, loaded_gatheredFrom past inside⟩

/-- A step that stores at an index of each lane. -/
theorem Fits.scatters (fits : machine.Fits)
    (present : machine.current.floor + 1 ≤ machine.top) {count : UInt8}
    (decoded : machine.upcoming = .ok (.scatter bank count)) (host : σ) :
    Scatters batch host bank count machine := by
  have pastFits : (machine.advanced (.scatter bank count)).Fits :=
    ⟨fits.sized, fits.frame, fits.floor, fits.capacity⟩
  have stepped : machine.stepAt batch host =
      (((machine.advanced (.scatter bank count)).scatter batch bank count.toNat).map .next,
        host) :=
    stepAt_of_decoded decoded rfl host
  have agrees : InPlace.Agrees (machine.advanced (.scatter bank count))
      (machine.stepAt batch host).1 (InPlace.scatter batch bank count.toNat) := by
    rw [stepped]
    exact InPlace.scatter_agrees pastFits present batch bank count.toNat
  have uniform : ∀ slot : Nat, slot + count.toNat ≤ batch.limit machine bank.space →
      (∀ lane, machine.live.get lane = true →
        (signedIndex (machine.index.get lane)).toInt = slot) →
      machine.stepAt batch host =
        (((machine.advanced (.scatter bank count)).drop 1).execute batch
          (.store bank count (UInt8.ofNat slot))).at host := by
    intro slot bounded same
    have capacity : bank.capacity < 256 := by cases bank <;> decide
    have byte : (UInt8.ofNat slot).toNat = slot := by
      have placed := (slots_inside fits bounded).1
      have small : slot < 256 := by omega
      exact UInt8.toNat_ofNat_of_lt small
    rw [stepped, scatter_eq_store pastFits present bounded same]
    change _ = ((((machine.advanced (.scatter bank count)).drop 1).store batch bank
      count.toNat (UInt8.ofNat slot).toNat).map Flow.next, host)
    rw [byte]
  rcases scatter_outcome pastFits present batch bank count.toNat with
    ⟨strays, cause, failed⟩ | ⟨inside, result⟩
  · rw [failed] at stepped
    refine ⟨?_, agrees, fun inside => absurd strays inside, uniform⟩
    exact iff_of_true ⟨cause, congrArg Prod.fst stepped⟩ strays
  · rw [result] at stepped
    refine ⟨iff_of_false ?_ inside, agrees, ?_, uniform⟩
    · rintro ⟨cause, failed⟩
      rw [stepped] at failed
      split at failed <;> cases failed
    · intro _ enough
      have past : ((machine.advanced (.scatter bank count)).drop 1).current.floor +
          count.toNat ≤ ((machine.advanced (.scatter bank count)).drop 1).top := by
        change machine.current.floor + count.toNat ≤ machine.top - 1
        omega
      rw [if_pos past] at stepped
      exact ⟨_, stepped, stored_scatteredInto pastFits inside⟩

end Machine

namespace Linked

/--
Indexed accesses heed the live lanes in every machine that occurs.  They fail
for bounds exactly if the index of a live lane strays, and then no slot has
changed.  Otherwise a load gives each live lane the words of its slots, and a
store writes each live lane's words to its slots and nothing else.
-/
theorem indexed_accesses_heed_live_lanes (linked : Linked σ) (invocation : Invocation)
    (function : Function) (firstElement lanes : Nat) (machine : Machine)
    (occurs : linked.Occurs invocation function firstElement lanes machine)
    (present : machine.current.floor + 1 ≤ machine.top) (host : σ) (count : UInt8) :
    (∀ space, machine.upcoming = .ok (.gather space count) →
      Machine.Gathers (linked.batch invocation firstElement) host space count machine) ∧
      ∀ bank, machine.upcoming = .ok (.scatter bank count) →
        Machine.Scatters (linked.batch invocation firstElement) host bank count machine :=
  have fits := occurs.serves.sound.fits
  ⟨fun _ decoded => fits.gathers present decoded host,
    fun _ decoded => fits.scatters present decoded host⟩

/-- A function that stores its first argument in the slot that its second one names. -/
def place : Function where
  name := "place"
  parameterCount := 2
  stackCount := 2
  parameters := [{ slotCount := 1 }, { slotCount := 1 }]
  code := (Instruction.load .local 1 0).encode ++ (Instruction.load .local 1 1).encode ++
    (Instruction.scatter .local 1).encode ++ (Instruction.ret 0).encode

def placing : Linked Unit :=
  ⟨{ functions := [place] }, []⟩

/-- Two elements store at different slots. -/
theorem indexed_accesses_heed_live_lanes_place :
    ∃ machine, placing.Occurs ⟨0, [], none⟩ place 0 2 machine ∧
      machine.current.floor + 2 ≤ machine.top ∧
      machine.upcoming = .ok (.scatter .local 1) ∧
      ¬ machine.Strays (placing.batch ⟨0, [], none⟩ 0) .local 1 ∧
      ∃ after, machine.stepAt (placing.batch ⟨0, [], none⟩ 0) () = (.ok (.next after), ()) ∧
        Machine.Stored .local 1 (machine.advanced (.scatter .local 1)) after := by
  obtain ⟨first, machine, loads, loadsAgain, present, decoded, indices, limit⟩ :
      ∃ first machine,
        Machine.Steps (placing.batch ⟨0, [], none⟩ 0)
            (Machine.booted place 2 (.blank globalCapacity)
              [packWords [7, 8], packWords [0, 1]]) first ∧
          Machine.Steps (placing.batch ⟨0, [], none⟩ 0) first machine ∧
          machine.current.floor + 2 ≤ machine.top ∧
          machine.upcoming = .ok (.scatter .local 1) ∧
          machine.index = packWords [0, 1] ∧
          (placing.batch ⟨0, [], none⟩ 0).limit machine .local = 2 :=
    ⟨_, _, ⟨(), (), rfl⟩, ⟨(), (), rfl⟩, by decide, rfl, by decide +kernel, rfl⟩
  have occurs : placing.Occurs ⟨0, [], none⟩ place 0 2 machine :=
    occurs_iff.mpr ⟨none, [packWords [7, 8], packWords [0, 1]], .blank globalCapacity,
      by decide, rfl, (Relation.ReflTransGen.single loads).tail loadsAgain⟩
  have inside : ¬ machine.Strays (placing.batch ⟨0, [], none⟩ 0) .local 1 := by
    rintro ⟨lane, -, outside⟩
    rw [indices, limit] at outside
    revert lane
    decide
  have scatters := (indexed_accesses_heed_live_lanes placing ⟨0, [], none⟩ place 0 2 machine
    occurs (by omega) () 1).2 .local decoded
  exact ⟨machine, occurs, present, decoded, inside, scatters.stored inside present⟩

end Linked

end Lockstep
