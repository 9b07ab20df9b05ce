import Lockstep.Proofs.Blocks
import Lockstep.Proofs.Scalar

/-!
# The element in a lane

Each lane of a machine holds an element: its own words of the frame, of the
globals and of the operands.  `Machine.element` reads it off, with the operands
from some entry on; other words may stand in for the operands below the entry,
which structured code does not reach.

`Machine.step?_element` says that an instruction does to a live lane what it
does to the element in it.
-/

namespace Lockstep

variable {σ : Type}

namespace Machine

/-! ## Words of a lane -/

/-- The words of a lane in a run of cells. -/
def words (machine : Machine) (lane : Lane) (bank : Bank) (start count : Nat) : List Word :=
  (List.range count).map fun step => (machine.cell bank (start + step)).get lane

/-- The element in a lane, with other words in the place of the operands below an entry. -/
def element (batch : Batch σ) (lane : Lane) (entry : Nat) (lower : List Word)
    (machine : Machine) : Element where
  slots := machine.words lane .local machine.current.base machine.current.function.frameSize
  globals := machine.words lane .global 0 batch.program.globalLimit
  operands := lower ++ machine.words lane .local entry (machine.top - entry)

variable {batch : Batch σ} {lane : Lane} {entry : Nat} {lower : List Word}
variable {machine after : Machine}

@[simp]
theorem length_words (bank : Bank) (start count : Nat) :
    (machine.words lane bank start count).length = count := by
  simp [words]

@[simp]
theorem getElem_words {bank : Bank} {start count step : Nat}
    (inRange : step < (machine.words lane bank start count).length) :
    (machine.words lane bank start count)[step] =
      (machine.cell bank (start + step)).get lane := by
  simp [words]

theorem words_congr {bank : Bank} {start count : Nat}
    (same : ∀ position, start ≤ position → position < start + count →
      (after.cell bank position).get lane = (machine.cell bank position).get lane) :
    after.words lane bank start count = machine.words lane bank start count := by
  apply List.map_congr_left
  intro step inRange
  have bounded := List.mem_range.mp inRange
  exact same _ (by omega) (by omega)

theorem words_append (bank : Bank) (start first second : Nat) :
    machine.words lane bank start (first + second) =
      machine.words lane bank start first ++
        machine.words lane bank (start + first) second := by
  unfold words
  rw [List.range_add, List.map_append, List.map_map]
  congr 1
  apply List.map_congr_left
  intro step _
  change (machine.cell bank (start + (first + step))).get lane = _
  rw [Nat.add_assoc]

theorem laneWords_run {capacity : Nat} (file : RegisterFile capacity) (start count : Nat) :
    laneWords (file.run start count) lane =
      (List.range count).map fun step => (file.register (start + step)).get lane := by
  unfold laneWords RegisterFile.run
  rw [List.map_map]
  rfl

theorem laneWords_topmost (count : Nat) :
    laneWords (machine.topmost count) lane =
      machine.words lane .local (machine.top - count) count :=
  laneWords_run machine.registers _ _

theorem getD_laneWords (registers : List Register) (position : Nat) :
    (laneWords registers lane).getD position 0 = (registers.getD position .zero).get lane := by
  simp only [laneWords, List.getD_eq_getElem?_getD, List.getElem?_map]
  cases registers[position]? with
  | none =>
      exact (Lanes.get_zero lane).symm
  | some register =>
      rfl

/-! ## Operands -/

theorem take?_element {count : Nat} (present : entry + count ≤ machine.top) :
    (machine.element batch lane entry lower).take? count =
      some (laneWords (machine.topmost count) lane,
        (machine.drop count).element batch lane entry lower) := by
  have split : machine.words lane .local entry (machine.top - entry) =
      machine.words lane .local entry (machine.top - count - entry) ++
        laneWords (machine.topmost count) lane := by
    rw [laneWords_topmost, show machine.top - entry = machine.top - count - entry + count
      by omega, words_append, show entry + (machine.top - count - entry) =
        machine.top - count by omega]
  have operands : (machine.element batch lane entry lower).operands =
      ((machine.drop count).element batch lane entry lower).operands ++
        laneWords (machine.topmost count) lane := by
    change lower ++ machine.words lane .local entry (machine.top - entry) =
      lower ++ machine.words lane .local entry (machine.top - count - entry) ++ _
    rw [split, List.append_assoc]
  have length : (machine.element batch lane entry lower).operands.length - count =
      ((machine.drop count).element batch lane entry lower).operands.length := by
    rw [operands, List.length_append, length_laneWords, length_topmost,
      Nat.add_sub_cancel]
  unfold Element.take?
  rw [if_pos (by rw [operands]; simp), length, operands, List.drop_left, List.take_left]
  rfl

theorem words_pushed {results : List Register}
    (enough : machine.top + results.length ≤ stackCapacity) :
    (machine.pushed results).words lane .local machine.top results.length =
      laneWords results lane := by
  apply List.ext_getElem
  · simp
  · intro step inRange listed
    have inside : step < results.length := by
      rw [length_words] at inRange
      exact inRange
    have written : (laneWords results lane)[step] = results[step].get lane := by
      simp [laneWords]
    rw [getElem_words, written]
    exact congrArg (·.get lane)
      (RegisterFile.register_overwrite_add machine.registers enough inside)

/-- Results on the operands of a machine are results on the operands of its elements. -/
theorem element_pushed {results : List Register} (fits : machine.Fits)
    (level : entry ≤ machine.top)
    (enough : machine.top + results.length ≤ stackCapacity) :
    (machine.pushed results).element batch lane entry lower =
      (machine.element batch lane entry lower).push (laneWords results lane) := by
  have floor := fits.floor
  have frame := fits.frame_eq
  have below : ∀ bank position, (bank = .local → position < machine.top) →
      ((machine.pushed results).cell bank position).get lane =
        (machine.cell bank position).get lane := by
    intro bank position lower
    rw [cell_pushed machine enough lower]
  unfold element Element.push
  rw [Element.mk.injEq]
  refine ⟨words_congr fun position _ _ => below _ _ fun _ => ?_,
    words_congr fun position _ _ => below _ _ (by rintro ⟨⟩), ?_⟩
  · change position < machine.current.base + machine.current.function.frameSize at *
    omega
  · change lower ++ (machine.pushed results).words lane .local entry
      (machine.top + results.length - entry) = _
    rw [show machine.top + results.length - entry =
      machine.top - entry + results.length by omega, words_append,
      show entry + (machine.top - entry) = machine.top by omega, words_pushed enough,
      words_congr fun position _ _ => below _ _ fun _ => (by omega), List.append_assoc]

/-- Operands that are replaced in a machine are replaced in its elements. -/
theorem element_replaced {count : Nat} {results : List Register} (fits : machine.Fits)
    (level : machine.current.floor ≤ entry) (present : entry + count ≤ machine.top)
    (enough : machine.top - count + results.length ≤ stackCapacity) :
    ((machine.drop count).pushed results).element batch lane entry lower =
      ((machine.drop count).element batch lane entry lower).push
        (laneWords results lane) := by
  refine element_pushed (fits.drop (by omega)) ?_ enough
  change entry ≤ machine.top - count
  omega

/-! ## Slots -/

theorem take_words (bank : Bank) (start : Nat) {count total : Nat} (inside : count ≤ total) :
    (machine.words lane bank start total).take count = machine.words lane bank start count := by
  obtain ⟨rest, rfl⟩ := Nat.exists_eq_add_of_le inside
  rw [words_append, List.take_left' (length_words _ _ _)]

theorem drop_words (bank : Bank) (start : Nat) {count total : Nat} (inside : count ≤ total) :
    (machine.words lane bank start total).drop count =
      machine.words lane bank (start + count) (total - count) := by
  obtain ⟨rest, rfl⟩ := Nat.exists_eq_add_of_le inside
  rw [words_append, List.drop_left' (length_words _ _ _), Nat.add_sub_cancel_left]

theorem run_words (bank : Bank) (start : Nat) {slot count total : Nat}
    (inside : slot + count ≤ total) :
    ((machine.words lane bank start total).drop slot).take count =
      machine.words lane bank (start + slot) count := by
  rw [drop_words bank start (by omega), take_words bank _ (by omega)]

theorem read?_element (fits : machine.Fits) {space : Space} {slot count : Nat}
    (inside : slot + count ≤ batch.limit machine space) :
    (machine.element batch lane entry lower).read? batch.uniforms space slot count =
      some (laneWords (machine.slots batch space slot count) lane) := by
  unfold Element.read?
  cases space with
  | «local» =>
      change slot + count ≤ machine.current.frameSize at inside
      rw [fits.sized] at inside
      simp only [Element.words, element, length_words, if_pos inside,
        run_words _ _ inside]
      exact congrArg some (laneWords_run _ _ _).symm
  | global =>
      change slot + count ≤ batch.program.globalLimit at inside
      simp only [Element.words, element, length_words, if_pos inside,
        run_words _ _ inside, Nat.zero_add]
      exact congrArg some (laneWords_run _ _ _).symm
  | uniform =>
      change slot + count ≤ batch.uniforms.length at inside
      have splats : ((fun register : Register => register.get lane) ∘ Lanes.splat) =
          fun word : Word => word := funext fun word => Lanes.get_splat word lane
      simp [Element.words, slots, laneWords, inside, splats]

/-- A run that was written over some cells of a lane. -/
theorem splice_words {bank : Bank} {start slot total : Nat} {run : List Word}
    (inside : slot + run.length ≤ total)
    (cells : ∀ position, start ≤ position → position < start + total →
      (after.cell bank position).get lane =
        if start + slot ≤ position ∧ position < start + slot + run.length then
          run.getD (position - (start + slot)) 0
        else (machine.cell bank position).get lane) :
    splice (machine.words lane bank start total) slot run =
      after.words lane bank start total := by
  have written : after.words lane bank (start + slot) run.length = run := by
    apply List.ext_getElem
    · simp
    · intro step inRange listed
      rw [getElem_words, cells _ (by omega) (by omega), if_pos (by omega),
        Nat.add_sub_cancel_left, List.getD, List.getElem?_eq_getElem listed]
      rfl
  have left : after.words lane bank start slot = machine.words lane bank start slot := by
    refine words_congr fun position lower upper => ?_
    rw [cells position lower (by omega), if_neg (by omega)]
  have right : after.words lane bank (start + (slot + run.length))
      (total - (slot + run.length)) = machine.words lane bank
        (start + (slot + run.length)) (total - (slot + run.length)) := by
    refine words_congr fun position lower upper => ?_
    rw [cells position (by omega) (by omega), if_neg (by omega)]
  unfold splice
  rw [take_words bank start (by omega), drop_words bank start inside, ← left, ← right,
    ← List.append_assoc]
  conv_lhs => rw [← written]
  rw [← words_append, length_words, ← words_append, Nat.add_sub_cancel' inside]

/-- A run of slots that is written in a machine is written in the element of a lane. -/
theorem write?_element {bank : Bank} {slot : Nat} {run : List Word} (fits : machine.Fits)
    (level : machine.current.floor ≤ entry)
    (inside : slot + run.length ≤ batch.limit machine bank.space)
    (top : after.top = machine.top) (current : after.current = machine.current)
    (cells : ∀ other position, (after.cell other position).get lane =
      if other = bank ∧ machine.origin bank + slot ≤ position ∧
          position < machine.origin bank + slot + run.length then
        run.getD (position - (machine.origin bank + slot)) 0
      else (machine.cell other position).get lane) :
    (machine.element batch lane entry lower).write? bank slot run =
      some (after.element batch lane entry lower) := by
  have placed := (slots_inside fits inside).2
  have frame := fits.frame_eq
  unfold element
  rw [top, current]
  cases bank with
  | «local» =>
      change slot + run.length ≤ machine.current.frameSize at inside
      rw [fits.sized] at inside
      have below : machine.current.base + slot + run.length ≤ machine.current.floor :=
        placed rfl
      simp only [Element.write?, length_words, if_pos inside]
      congr 2
      · refine splice_words inside fun position _ _ => ?_
        simp only [cells .local position, true_and, origin]
      · refine (words_congr fun position _ _ => ?_).symm
        rw [cells, if_neg (by simp)]
      · congr 1
        refine (words_congr fun position _ _ => ?_).symm
        rw [cells, if_neg]
        simp only [origin]
        omega
  | global =>
      change slot + run.length ≤ batch.program.globalLimit at inside
      simp only [Element.write?, length_words, if_pos inside]
      congr 2
      · refine (words_congr fun position _ _ => ?_).symm
        rw [cells, if_neg (by simp)]
      · refine splice_words inside fun position _ _ => ?_
        simp only [cells .global position, true_and, origin]
      · congr 1
        refine (words_congr fun position _ _ => ?_).symm
        rw [cells, if_neg (by simp)]

/-! ## Instructions -/

/-- The results of a kernel in a lane. -/
theorem column_of_apply {kernel : Kernel} {operands results : List Register}
    (applied : kernel.apply operands = some results) :
    kernel.column (laneWords operands lane) = some (laneWords results lane) := by
  obtain ⟨counted, columns⟩ := lanewise_eq_some applied
  obtain ⟨column, found, entries⟩ := columns lane
  rw [Kernel.column, found, Option.map_some, Option.some_inj]
  apply List.ext_getElem
  · simp [laneWords, counted]
  · intro position _ listed
    have inRange : position < results.length := by simpa [laneWords] using listed
    simpa [laneWords] using (entries position inRange).symm

theorem compute?_element {kernel : Kernel} (fits : machine.Fits)
    (level : machine.current.floor ≤ entry)
    (present : entry + kernel.operands ≤ machine.top)
    (result : machine.compute kernel = .ok after) :
    (machine.element batch lane entry lower).compute? kernel =
      some (after.element batch lane entry lower) := by
  obtain ⟨operands, peeked, computed⟩ := bind_eq_ok.mp result
  obtain ⟨_, rfl⟩ := (peek_yields fits kernel.operands).of_ok peeked
  obtain ⟨results, applied, pushed⟩ := bind_eq_ok.mp computed
  obtain ⟨enough, rfl⟩ := (push_yields _ _).of_ok pushed
  unfold Element.compute?
  rw [take?_element present]
  simp only [Option.bind_eq_bind, Option.bind_some,
    column_of_apply (orTrap_eq_ok.mp applied)]
  cases keep : kernel.keep with
  | true =>
      rw [keep] at enough
      exact congrArg some (element_pushed fits (by omega) enough).symm
  | false =>
      rw [keep] at enough
      exact congrArg some (element_replaced fits level present enough).symm

theorem divide?_element {operation : Division} {count : Nat} (fits : machine.Fits)
    (level : machine.current.floor ≤ entry) (present : entry + 2 * count ≤ machine.top)
    (live : machine.live.get lane = true)
    (result : machine.divide operation count = .ok after) :
    (machine.element batch lane entry lower).divide? operation count =
      some (after.element batch lane entry lower) := by
  obtain ⟨operands, peeked, result⟩ := bind_eq_ok.mp result
  obtain ⟨_, rfl⟩ := (peek_yields fits _).of_ok peeked
  obtain ⟨_, checked, pushed⟩ := bind_eq_ok.mp result
  have divisors := (checkDivisors_yields _ _ _).of_ok checked
  obtain ⟨enough, rfl⟩ := (push_yields _ _).of_ok pushed
  have nonzero : 0 ∉ (laneWords (machine.topmost (2 * count)) lane).drop count := by
    rw [laneWords, ← List.map_drop, List.mem_map]
    rintro ⟨divisor, member, zero⟩
    exact divisors divisor member lane ((Lanes.mem_active _ _).mpr live) zero
  unfold Element.divide?
  rw [take?_element present]
  simp only [Option.bind_eq_bind, Option.bind_some, if_neg nonzero]
  rw [element_replaced fits level present enough]
  simp [laneWords, List.map_zipWith, List.zipWith_map, live, ← List.map_take,
    ← List.map_drop]

theorem load?_element {space : Space} {count slot : Nat} (fits : machine.Fits)
    (present : entry ≤ machine.top)
    (result : machine.load batch space count slot = .ok after) :
    (machine.element batch lane entry lower).load? batch.uniforms space count slot =
      some (after.element batch lane entry lower) := by
  unfold load checkSlots at result
  by_cases inside : slot + count ≤ batch.limit machine space
  · rw [if_pos inside] at result
    obtain ⟨_, _, result⟩ := bind_eq_ok.mp result
    rw [slotRun_of_le fits inside] at result
    obtain ⟨enough, rfl⟩ := (push_yields _ _).of_ok result
    unfold Element.load?
    rw [read?_element fits inside, element_pushed fits present enough]
    rfl
  · rw [if_neg inside] at result
    cases result

/-- The cells of a live lane after a masked write of a run. -/
theorem get_cell_stored {bank : Bank} {count slot : Nat} {values : List Register}
    (placed : machine.origin bank + slot + values.length ≤ bank.capacity)
    (live : machine.live.get lane = true) (other : Bank) (position : Nat) :
    ((((machine.updated bank slot
        (fun before value => .select machine.live value before) values)).drop count).cell
          other position).get lane =
      if other = bank ∧ (machine.drop count).origin bank + slot ≤ position ∧
          position < (machine.drop count).origin bank + slot +
            (laneWords values lane).length then
        (laneWords values lane).getD
          (position - ((machine.drop count).origin bank + slot)) 0
      else ((machine.drop count).cell other position).get lane := by
  rw [length_laneWords, origin_drop, cell_drop, cell_drop, getD_laneWords,
    get_cell_masked placed]
  simp only [storeCells, live, and_true]

theorem store?_element {bank : Bank} {count slot : Nat} (fits : machine.Fits)
    (level : machine.current.floor ≤ entry) (present : entry + count ≤ machine.top)
    (live : machine.live.get lane = true)
    (result : machine.store batch bank count slot = .ok after) :
    (machine.element batch lane entry lower).store? bank count slot =
      some (after.element batch lane entry lower) := by
  unfold store checkSlots at result
  by_cases inside : slot + count ≤ batch.limit machine bank.space
  · rw [if_pos inside] at result
    obtain ⟨values, peeked, result⟩ := bind_eq_ok.mp result
    obtain ⟨here, rfl⟩ := (peek_yields fits _).of_ok peeked
    have placed : machine.origin bank + slot + (machine.topmost count).length ≤
        bank.capacity := by
      rw [length_topmost]
      exact (slots_inside fits inside).1
    rw [updateRun_of_le placed] at result
    cases result
    unfold Element.store?
    rw [take?_element present]
    refine write?_element (fits.drop here) level ?_ ?_ ?_ fun other position => ?_
    · rw [length_laneWords, length_topmost]
      exact inside
    · exact congrArg (· - count) updated_top
    · exact updated_current
    · exact get_cell_stored placed live other position
  · rw [if_neg inside] at result
    cases result

theorem index?_of_checked {opcode : Opcode} {space : Space} {index : Register}
    {count limit : Nat} {done : Unit} (live : machine.live.get lane = true)
    (checked : machine.checkIndices opcode space index count limit = .ok done) :
    index? (index.get lane) = some (indexSlot (index.get lane)) := by
  have passed := forM_eq_ok.mp checked lane ((Lanes.mem_active _ _).mpr live)
  dsimp only at passed
  split at passed
  · rename_i inside
    exact if_pos inside.1
  · cases passed

/-- The topmost operand of a lane. -/
theorem headD_topmost :
    (laneWords (machine.topmost 1) lane).headD 0 =
      (machine.cell .local (machine.top - 1)).get lane := by
  rfl

theorem gather?_element {space : Space} {count : Nat} (fits : machine.Fits)
    (level : machine.current.floor ≤ entry) (present : entry + 1 ≤ machine.top)
    (live : machine.live.get lane = true)
    (result : machine.gather batch space count = .ok after) :
    (machine.element batch lane entry lower).gather? batch.uniforms space count =
      some (after.element batch lane entry lower) := by
  rw [gather_eq fits] at result
  obtain ⟨popped, taken, result⟩ := bind_eq_ok.mp result
  obtain ⟨here, rfl⟩ := (pop_yields fits).of_ok taken
  obtain ⟨_, checked, result⟩ := bind_eq_ok.mp result
  obtain ⟨_, _, pushed⟩ := bind_eq_ok.mp result
  have inside := (checkIndices_yields _ _ _ _ _ _).of_ok checked lane live
  obtain ⟨enough, rfl⟩ := (push_yields _ _).of_ok pushed
  have words : laneWords (machine.gathered batch space count
      (machine.cell .local (machine.top - 1))) lane =
      laneWords (machine.slots batch space
        (indexSlot ((machine.cell .local (machine.top - 1)).get lane)) count) lane := by
    apply List.ext_getElem
    · simp [length_slots inside]
    · intro step inRange listed
      have bounded : step < (machine.gathered batch space count
          (machine.cell .local (machine.top - 1))).length := by
        simpa using inRange
      have written : (laneWords (machine.gathered batch space count
          (machine.cell .local (machine.top - 1))) lane)[step] =
            ((machine.gathered batch space count
              (machine.cell .local (machine.top - 1)))[step]).get lane := by
        simp [laneWords]
      rw [written, get_gathered, if_pos live, List.getD,
        List.getElem?_eq_getElem listed]
      rfl
  unfold Element.gather?
  rw [take?_element present, element_replaced fits level present enough, words]
  simp only [Option.bind_eq_bind, Option.bind_some, headD_topmost,
    index?_of_checked live checked]
  rw [@read?_element σ batch lane entry lower (machine.drop 1) (fits.drop here) space _ count
    inside]
  rfl

theorem scatter?_element {bank : Bank} {count : Nat} (fits : machine.Fits)
    (level : machine.current.floor ≤ entry) (present : entry + (count + 1) ≤ machine.top)
    (live : machine.live.get lane = true)
    (result : machine.scatter batch bank count = .ok after) :
    (machine.element batch lane entry lower).scatter? bank count =
      some (after.element batch lane entry lower) := by
  rw [scatter_eq fits] at result
  obtain ⟨popped, taken, result⟩ := bind_eq_ok.mp result
  obtain ⟨here, rfl⟩ := (pop_yields fits).of_ok taken
  obtain ⟨_, checked, result⟩ := bind_eq_ok.mp result
  have indices := (checkIndices_yields _ _ _ _ _ _).of_ok checked
  obtain ⟨values, peeked, result⟩ := bind_eq_ok.mp result
  have lowered := fits.drop here
  obtain ⟨valuesHere, rfl⟩ := (peek_yields lowered _).of_ok peeked
  cases result
  have above : entry + count ≤ (machine.drop 1).top := by
    change entry + count ≤ machine.top - 1
    omega
  have placed : ∀ writer ∈ machine.live.active, (machine.drop 1).origin bank +
      indexSlot ((machine.cell .local (machine.top - 1)).get writer) +
        ((machine.drop 1).topmost count).length ≤ bank.capacity := by
    intro writer active
    rw [length_topmost]
    exact (slots_inside fits (indices writer ((Lanes.mem_active _ _).mp active))).1
  obtain ⟨top, current, -, -⟩ := @foldl_scatterLane_frame bank
    (machine.cell .local (machine.top - 1)) ((machine.drop 1).topmost count)
    machine.live.active (machine.drop 1)
  unfold Element.scatter?
  rw [take?_element (show entry + 1 ≤ machine.top by omega)]
  simp only [Option.bind_eq_bind, Option.bind_some, headD_topmost,
    index?_of_checked live checked]
  rw [take?_element above]
  refine write?_element (lowered.drop valuesHere) level ?_ (congrArg (· - count) top)
    current fun other position => ?_
  · rw [length_laneWords, length_topmost]
    exact indices lane live
  · have active : lane ∈ machine.live.active := (Lanes.mem_active _ _).mpr live
    rw [cell_drop, cell_drop, get_cell_scattered placed, length_laneWords, getD_laneWords]
    simp only [scatterCells, active, true_and, origin_drop]

theorem clampIndex?_element {length : Nat} (fits : machine.Fits)
    (present : entry + 1 ≤ machine.top) (live : machine.live.get lane = true)
    (result : machine.clampIndex length = .ok after) :
    (machine.element batch lane entry lower).clampIndex? length =
      some (after.element batch lane entry lower) := by
  obtain ⟨operands, peeked, result⟩ := bind_eq_ok.mp result
  obtain ⟨_, rfl⟩ := (peek_yields fits _).of_ok peeked
  obtain ⟨_, checked, result⟩ := bind_eq_ok.mp result
  cases result
  have passed := forM_eq_ok.mp checked lane ((Lanes.mem_active _ _).mpr live)
  dsimp only at passed
  split at passed
  · rename_i inside
    have bounded : indexSlot ((machine.cell .local (machine.top - 1)).get lane) <
        length := by
      have upper := inside.2
      change (signedIndex ((machine.cell .local (machine.top - 1)).get lane)).toInt <
        length at upper
      unfold indexSlot
      omega
    have found : index? ((machine.cell .local (machine.top - 1)).get lane) =
        some (indexSlot ((machine.cell .local (machine.top - 1)).get lane)) :=
      if_pos inside.1
    unfold Element.clampIndex?
    rw [take?_element present]
    simp only [Option.bind_eq_bind, Option.bind_some, headD_topmost, found,
      if_pos bounded]
  · cases passed

theorem ok_of_map_next {result : Except Failure Machine} {flow : Flow}
    (mapped : result.map Flow.next = .ok flow) : result = .ok flow.machine := by
  cases result with
  | error failure =>
      cases mapped
  | ok following =>
      cases mapped
      rfl

/-- An instruction does to a live lane what it does to the element in it. -/
theorem step?_element {instruction : Instruction} {flow : Flow} (fits : machine.Fits)
    (isPlain : instruction.plain = true) (level : machine.current.floor ≤ entry)
    (present : entry + instruction.taken ≤ machine.top)
    (live : machine.live.get lane = true)
    (carried : machine.carry batch instruction = .ok flow) :
    (machine.element batch lane entry lower).step? batch.uniforms instruction =
      some (flow.machine.element batch lane entry lower) := by
  cases instruction with
  | compute computation =>
      exact compute?_element fits level present (ok_of_map_next carried)
  | divide operation count =>
      exact divide?_element fits level present live (ok_of_map_next carried)
  | shift operation amount =>
      unfold carry at carried
      unfold Element.step?
      dsimp only [execute] at carried ⊢
      cases checked : checkShift operation amount with
      | ok done =>
          rw [checked] at carried
          exact compute?_element fits level present (ok_of_map_next carried)
      | error fault =>
          rw [checked] at carried
          cases carried
  | load space count slot =>
      exact load?_element fits present (ok_of_map_next carried)
  | store bank count slot =>
      exact store?_element fits level present live (ok_of_map_next carried)
  | gather space count =>
      exact gather?_element fits level present live (ok_of_map_next carried)
  | scatter bank count =>
      exact scatter?_element fits level present live (ok_of_map_next carried)
  | clampIndex length =>
      exact clampIndex?_element fits present live (ok_of_map_next carried)
  | loadFragCoord =>
      cases carried
  | sampleExplicit child =>
      cases carried
  | sampleMatrix child =>
      cases carried
  | _ =>
      cases isPlain

/-! ## Conditions -/

/-- A condition that is taken off the operands of a lane. -/
theorem test?_element (present : entry + 1 ≤ machine.top) :
    (machine.element batch lane entry lower).test? =
      some ((machine.cell .local (machine.top - 1)).get lane != 0,
        (machine.drop 1).element batch lane entry lower) := by
  unfold Element.test?
  rw [take?_element present]
  simp only [Option.bind_eq_bind, Option.bind_some, headD_topmost]
  rfl

/-- The results of a blend are those of the part that the condition of a lane chose. -/
theorem words_blended {count : Nat} {scope : Scope} {outer : List Scope}
    (fits : machine.Fits) (nested : machine.predicates.scopes = scope :: outer)
    (result : machine.blend count = .ok after) :
    after.words lane .local (machine.top - 2 * count) count =
      machine.words lane .local
        (machine.top - 2 * count + if scope.condition.get lane = true then 0 else count)
        count := by
  obtain ⟨⟨condition, predicates⟩, closed, result⟩ := bind_eq_ok.mp result
  unfold Predicates.maskBlend at closed
  rw [nested] at closed
  cases closed
  obtain ⟨operands, peeked, pushed⟩ := bind_eq_ok.mp result
  obtain ⟨_, rfl⟩ := (peek_yields fits _).of_ok peeked
  obtain ⟨enough, rfl⟩ := (push_yields _ _).of_ok pushed
  have counted : (List.zipWith (Lanes.select scope.condition)
      ((machine.topmost (2 * count)).take count)
      ((machine.topmost (2 * count)).drop count)).length = count := by
    simp only [List.length_zipWith, List.length_take, List.length_drop, length_topmost]
    omega
  have written := @words_pushed lane
    { machine.drop (2 * count) with predicates := { machine.predicates with scopes := outer } }
    _ enough
  rw [counted] at written
  refine written.trans (List.ext_getElem (by simp [counted]) fun step inRange listed => ?_)
  have inside : step < (List.zipWith (Lanes.select scope.condition)
      ((machine.topmost (2 * count)).take count)
      ((machine.topmost (2 * count)).drop count)).length := by
    rw [length_laneWords] at inRange
    exact inRange
  have chosen := get_blended machine scope.condition inside lane
  simp only [laneWords, List.getElem_map]
  rw [chosen, getElem_words]
  congr 2
  omega

end Machine

end Lockstep
