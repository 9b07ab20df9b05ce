import Lockstep.Proofs.Invariant

/-!
# Integer division on the live lanes

A division fails only if a live lane divides by zero.  Otherwise the live lanes
hold quotients or remainders, and the other lanes keep their dividends, whatever
their divisors are.

`Divided` says what makes two words a quotient and a remainder, for both ways of
reading a word as a number: `Division.eval` gives such words for every divisor
other than zero, on the full range of dividends.
-/

namespace Lockstep

variable {σ : Type}

/-! ## Quotients and remainders of words -/

/-- The two ways of reading a word as a number. -/
inductive Signedness where
  | signed
  | unsigned
deriving DecidableEq

namespace Signedness

/-- The number that a word stands for. -/
def value : Signedness → Word → Int
  | .signed, word => word.toInt32.toInt
  | .unsigned, word => word.toNat

/-- The division that gives quotients. -/
def quotient : Signedness → Division
  | .signed => .quotientS
  | .unsigned => .quotientU

/-- The division that gives remainders. -/
def remainder : Signedness → Division
  | .signed => .remainderS
  | .unsigned => .remainderU

/-- The one division whose quotient is no word: the least number by minus one. -/
def Overflows (signedness : Signedness) (dividend divisor : Word) : Prop :=
  signedness.value dividend = -0x80000000 ∧ signedness.value divisor = -1

end Signedness

/-- Words that are the quotient and the remainder of others. -/
structure Divided (signedness : Signedness)
    (dividend divisor quotient remainder : Word) : Prop where
  /-- Modulo the size of a word, the dividend is put together again. -/
  recomposed : quotient * divisor + remainder = dividend
  /-- The remainder is smaller than the divisor. -/
  smaller : (signedness.value remainder).natAbs < (signedness.value divisor).natAbs
  /-- A remainder other than zero has the sign of the dividend. -/
  sign : signedness.value remainder = 0 ∨
    (signedness.value remainder).sign = (signedness.value dividend).sign
  /-- The quotient is truncated toward zero. -/
  truncated : ¬ signedness.Overflows dividend divisor →
    signedness.value quotient =
      (signedness.value dividend).tdiv (signedness.value divisor)
  /-- The quotient that is no word wraps around, and leaves nothing. -/
  wrapped : signedness.Overflows dividend divisor →
    signedness.value quotient = -0x80000000 ∧ signedness.value remainder = 0

/-- What the remainder of a truncated division is like. -/
theorem tmod_small (dividend : Int) {divisor : Int} (nonzero : divisor ≠ 0) :
    (dividend.tmod divisor).natAbs < divisor.natAbs ∧
      (dividend.tmod divisor = 0 ∨ (dividend.tmod divisor).sign = dividend.sign) := by
  constructor
  · rw [Int.natAbs_tmod]
    exact Nat.mod_lt _ (Int.natAbs_pos.mpr nonzero)
  · rw [Int.sign_tmod]
    by_cases divides : divisor ∣ dividend
    · exact Or.inl (Int.tmod_eq_zero_of_dvd divides)
    · rw [if_neg divides]
      exact Or.inr rfl

theorem divided_signed (dividend : Word) {divisor : Word} (nonzero : divisor ≠ 0) :
    Divided .signed dividend divisor (Division.quotientS.eval dividend divisor)
      (Division.remainderS.eval dividend divisor) := by
  have divides : divisor.toInt32.toInt ≠ 0 := by
    intro zero
    apply nonzero
    rw [← divisor.toUInt32_toInt32, Int32.toInt_inj.mp (zero.trans Int32.toInt_zero.symm)]
    rfl
  have quotient : Signedness.value .signed (Division.quotientS.eval dividend divisor) =
      (dividend.toInt32 / divisor.toInt32).toInt :=
    congrArg Int32.toInt (Int32.toInt32_toUInt32 _)
  have remainder : Signedness.value .signed (Division.remainderS.eval dividend divisor) =
      dividend.toInt32.toInt.tmod divisor.toInt32.toInt := by
    rw [← Int32.toInt_mod]
    exact congrArg Int32.toInt (Int32.toInt32_toUInt32 _)
  obtain ⟨smaller, sign⟩ := tmod_small dividend.toInt32.toInt divides
  rw [← remainder] at smaller sign
  refine ⟨?_, smaller, sign, ?_, ?_⟩
  · have whole : dividend.toInt32 / divisor.toInt32 * divisor.toInt32 +
        dividend.toInt32 % divisor.toInt32 = dividend.toInt32 := by
      apply Int32.toInt_inj.mp
      rw [Int32.toInt_add, Int32.toInt_mul, Int32.toInt_div, Int32.toInt_mod,
        Int.bmod_mul_bmod, Int.bmod_add_bmod, Int.tdiv_mul_add_tmod]
      exact dividend.toInt32.toInt_bmod
    have words := congrArg Int32.toUInt32 whole
    rw [Int32.toUInt32_add, Int32.toUInt32_mul, divisor.toUInt32_toInt32,
      dividend.toUInt32_toInt32] at words
    exact words
  · intro fits
    rw [quotient]
    by_cases least : dividend.toInt32 = Int32.minValue
    · apply Int32.toInt_div_of_ne_right
      rintro negated
      exact fits ⟨congrArg Int32.toInt least, congrArg Int32.toInt negated⟩
    · exact Int32.toInt_div_of_ne_left _ _ least
  · rintro ⟨least, negated⟩
    have leastWord : dividend.toInt32 = Int32.minValue := Int32.toInt_inj.mp least
    have negatedWord : divisor.toInt32 = -1 := Int32.toInt_inj.mp negated
    rw [quotient, remainder, leastWord, negatedWord]
    exact ⟨rfl, rfl⟩

theorem divided_unsigned (dividend : Word) {divisor : Word} (nonzero : divisor ≠ 0) :
    Divided .unsigned dividend divisor (Division.quotientU.eval dividend divisor)
      (Division.remainderU.eval dividend divisor) := by
  have divides : (divisor.toNat : Int) ≠ 0 := by
    intro zero
    exact nonzero (UInt32.toNat_inj.mp (Int.ofNat_inj.mp zero))
  have remainder : Signedness.value .unsigned (Division.remainderU.eval dividend divisor) =
      (dividend.toNat : Int).tmod divisor.toNat := by
    change ((dividend % divisor).toNat : Int) = _
    rw [UInt32.toNat_mod, Int.ofNat_tmod]
  obtain ⟨smaller, sign⟩ := tmod_small (dividend.toNat : Int) divides
  rw [← remainder] at smaller sign
  refine ⟨?_, smaller, sign, ?_, ?_⟩
  · apply UInt32.toNat_inj.mp
    change (dividend / divisor * divisor + dividend % divisor).toNat = _
    rw [UInt32.toNat_add, UInt32.toNat_mul, UInt32.toNat_div, UInt32.toNat_mod,
      Nat.mod_add_mod, Nat.div_add_mod']
    exact Nat.mod_eq_of_lt dividend.toNat_lt
  · intro _
    change ((dividend / divisor).toNat : Int) = (dividend.toNat : Int).tdiv divisor.toNat
    rw [UInt32.toNat_div, Int.ofNat_tdiv]
  · rintro ⟨least, _⟩
    change (dividend.toNat : Int) = -0x80000000 at least
    omega

/-- The two divisions of a signedness divide, by every divisor other than zero. -/
theorem Signedness.divided (signedness : Signedness) (dividend : Word) {divisor : Word}
    (nonzero : divisor ≠ 0) :
    Divided signedness dividend divisor (signedness.quotient.eval dividend divisor)
      (signedness.remainder.eval dividend divisor) := by
  cases signedness with
  | signed => exact divided_signed dividend nonzero
  | unsigned => exact divided_unsigned dividend nonzero

namespace Machine

variable {machine : Machine}

/-! ## Divisions of registers -/

/-- The register with a component of the dividend, below those of the divisor. -/
def dividend (machine : Machine) (count step : Nat) : Register :=
  machine.cell .local (machine.top - 2 * count + step)

/-- The topmost registers hold the components of the divisor. -/
def divisor (machine : Machine) (count step : Nat) : Register :=
  machine.cell .local (machine.top - count + step)

/-- A live lane has a zero divisor in some component. -/
def DividesByZero (machine : Machine) (count : Nat) : Prop :=
  ∃ step < count, ∃ lane, machine.live.get lane = true ∧
    (machine.divisor count step).get lane = 0

/-- The results of a division: the live lanes divide, the others keep the dividend. -/
def quotients (machine : Machine) (operation : Division) (count : Nat) : List Register :=
  (List.range count).map fun step =>
    Lanes.select machine.live
      (.ofFn fun lane => operation.eval ((machine.dividend count step).get lane)
        ((machine.divisor count step).get lane))
      (machine.dividend count step)

/-- The machine after a division. -/
def dividedBy (machine : Machine) (operation : Division) (count : Nat) : Machine :=
  (machine.drop (2 * count)).pushed (machine.quotients operation count)

/-- The operands of a division are the dividends and, above them, the divisors. -/
theorem topmost_double (machine : Machine) (count : Nat) (deep : 2 * count ≤ machine.top) :
    (machine.topmost (2 * count)).take count =
        (List.range count).map (machine.dividend count) ∧
      (machine.topmost (2 * count)).drop count =
        (List.range count).map (machine.divisor count) := by
  constructor
  · apply List.ext_getElem
    · simp
      omega
    · intro step inRange other
      simp [dividend]
  · apply List.ext_getElem
    · simp
      omega
    · intro step inRange other
      simp only [List.getElem_drop, getElem_topmost, List.getElem_map, List.getElem_range,
        divisor]
      congr 1
      omega

/-- The divisors pass unless a live lane would divide by zero. -/
theorem checkDivisors_eq (machine : Machine) (operation : Division) (count : Nat) :
    Yields (fun failure => ∃ lane, failure = .fault (.arithmetic (.divide operation) lane) ∧
        machine.DividesByZero count)
      (fun _ => ¬ machine.DividesByZero count)
      (machine.checkDivisors operation ((List.range count).map (machine.divisor count))) := by
  unfold checkDivisors
  have each : ∀ divisor ∈ (List.range count).map (machine.divisor count),
      Yields (fun failure => ∃ lane,
          failure = .fault (.arithmetic (.divide operation) lane) ∧
            machine.DividesByZero count)
        (fun _ => ∀ lane ∈ machine.live.active, divisor.get lane ≠ 0)
        (machine.live.active.forM fun lane =>
          if divisor.get lane = 0 then
            .error (.fault (.arithmetic (.divide operation) lane))
          else .ok ()) := by
    intro divisor listed
    obtain ⟨step, inRange, rfl⟩ := List.mem_map.mp listed
    apply Yields.forM
    intro lane active
    split
    · rename_i zero
      exact ⟨lane, rfl, step, List.mem_range.mp inRange, lane,
        (Lanes.mem_active _ _).mp active, zero⟩
    · assumption
  apply (Yields.forM each).relax
  rintro _ nonzero ⟨step, inRange, lane, live, zero⟩
  exact nonzero _ (List.mem_map_of_mem (List.mem_range.mpr inRange)) lane
    ((Lanes.mem_active _ _).mpr live) zero

/-- A division of operands that are there, in closed form. -/
theorem divide_eq (capacity : machine.top ≤ stackCapacity) {count : Nat}
    (present : machine.current.floor + 2 * count ≤ machine.top) (operation : Division) :
    machine.divide operation count = (do
      machine.checkDivisors operation ((List.range count).map (machine.divisor count))
      return machine.dividedBy operation count) := by
  obtain ⟨dividends, divisors⟩ := topmost_double machine count (by omega)
  have results : List.zipWith (fun dividend divisor => Lanes.select machine.live
        (.ofFn fun lane => operation.eval (dividend.get lane) (divisor.get lane)) dividend)
      ((List.range count).map (machine.dividend count))
      ((List.range count).map (machine.divisor count)) =
        machine.quotients operation count := by
    rw [List.zipWith_map_left, List.zipWith_map_right, List.zipWith_self]
    rfl
  have enough : (machine.drop (2 * count)).top +
      (machine.quotients operation count).length ≤ stackCapacity := by
    simp only [quotients, List.length_map, List.length_range, drop]
    omega
  unfold divide
  rw [peek_of_capacity capacity present, ok_bind]
  dsimp only
  rw [dividends, divisors, results, push_eq, if_pos enough]
  rfl

/-- The components of the results, lane by lane. -/
theorem get_dividedBy (capacity : machine.top ≤ stackCapacity) {count step : Nat}
    (deep : 2 * count ≤ machine.top) (inRange : step < count) (operation : Division)
    (lane : Lane) :
    ((machine.dividedBy operation count).cell .local (machine.top - 2 * count + step)).get
        lane =
      if machine.live.get lane = true then
        operation.eval ((machine.dividend count step).get lane)
          ((machine.divisor count step).get lane)
      else (machine.dividend count step).get lane := by
  have counted : (machine.quotients operation count).length = count := by
    simp [quotients]
  change (((machine.drop (2 * count)).registers.overwrite (machine.top - 2 * count)
    (machine.quotients operation count)).register _).get lane = _
  rw [RegisterFile.register_overwrite_add _ (by omega) (by omega)]
  simp [quotients]

/-! ## Steps -/

/-- Carrying out a division does not involve the host. -/
theorem execute_divide (batch : Batch σ) (host : σ) (machine : Machine)
    (operation : Division) (count : UInt8) :
    (machine.execute batch (.divide operation count)).at host =
      ((machine.divide operation count.toNat).map .next, host) :=
  rfl

theorem execute_divide_eq (batch : Batch σ) (host : σ) {count : UInt8}
    (capacity : machine.top ≤ stackCapacity)
    (present : machine.current.floor + 2 * count.toNat ≤ machine.top)
    (operation : Division) :
    ((∃ lane, (machine.execute batch (.divide operation count)).at host =
        (.error (.fault (.arithmetic (.divide operation) lane)), host)) ∧
      machine.DividesByZero count.toNat) ∨
    ((machine.execute batch (.divide operation count)).at host =
        (.ok (.next (machine.dividedBy operation count.toNat)), host) ∧
      ¬ machine.DividesByZero count.toNat) := by
  have checked := machine.checkDivisors_eq operation count.toNat
  rw [execute_divide, divide_eq capacity present]
  cases outcome : machine.checkDivisors operation
      ((List.range count.toNat).map (machine.divisor count.toNat)) with
  | error failure =>
      obtain ⟨lane, rfl, zero⟩ := checked.of_error outcome
      exact Or.inl ⟨⟨lane, rfl⟩, zero⟩
  | ok done =>
      exact Or.inr ⟨rfl, checked.of_ok outcome⟩

/-- What a quotient and a remainder leave of a machine in which no live lane fails. -/
structure MaskedDivision (batch : Batch σ) (host : σ) (machine : Machine) (count : UInt8)
    (signedness : Signedness) (quotients remainders : Machine) : Prop where
  quotient : (machine.execute batch (.divide signedness.quotient count)).at host =
    (.ok (.next quotients), host)
  remainder : (machine.execute batch (.divide signedness.remainder count)).at host =
    (.ok (.next remainders), host)
  top : quotients.top = machine.top - count.toNat ∧
    remainders.top = machine.top - count.toNat
  /-- A lane that is not live keeps the dividend, whatever its divisor is. -/
  idle : ∀ step < count.toNat, ∀ lane, machine.live.get lane = false →
    (quotients.cell .local (machine.top - 2 * count.toNat + step)).get lane =
        (machine.dividend count.toNat step).get lane ∧
      (remainders.cell .local (machine.top - 2 * count.toNat + step)).get lane =
        (machine.dividend count.toNat step).get lane
  /-- A live lane divides. -/
  live : ∀ step < count.toNat, ∀ lane, machine.live.get lane = true →
    Divided signedness ((machine.dividend count.toNat step).get lane)
      ((machine.divisor count.toNat step).get lane)
      ((quotients.cell .local (machine.top - 2 * count.toNat + step)).get lane)
      ((remainders.cell .local (machine.top - 2 * count.toNat + step)).get lane)

theorem maskedDivision_of_nonzero (batch : Batch σ) (host : σ) {count : UInt8}
    (capacity : machine.top ≤ stackCapacity)
    (present : machine.current.floor + 2 * count.toNat ≤ machine.top)
    (nonzero : ¬ machine.DividesByZero count.toNat) (signedness : Signedness) :
    MaskedDivision batch host machine count signedness
      (machine.dividedBy signedness.quotient count.toNat)
      (machine.dividedBy signedness.remainder count.toNat) := by
  have succeeds : ∀ operation,
      (machine.execute batch (.divide operation count)).at host =
        (.ok (.next (machine.dividedBy operation count.toNat)), host) := by
    intro operation
    rcases execute_divide_eq batch host capacity present operation with
      ⟨_, zero⟩ | ⟨executed, _⟩
    · exact absurd zero nonzero
    · exact executed
  have height : ∀ operation,
      (machine.dividedBy operation count.toNat).top = machine.top - count.toNat := by
    intro operation
    change machine.top - 2 * count.toNat +
      (machine.quotients operation count.toNat).length = _
    simp only [Machine.quotients, List.length_map, List.length_range]
    omega
  refine ⟨succeeds _, succeeds _, ⟨height _, height _⟩, ?_, ?_⟩
  · intro step inRange lane idle
    rw [get_dividedBy capacity (by omega) inRange, get_dividedBy capacity (by omega) inRange,
      idle]
    exact ⟨rfl, rfl⟩
  · intro step inRange lane live
    rw [get_dividedBy capacity (by omega) inRange, get_dividedBy capacity (by omega) inRange,
      if_pos live, if_pos live]
    exact signedness.divided _ fun zero => nonzero ⟨step, inRange, lane, live, zero⟩

/--
Integer division is masked.  It fails for arithmetic exactly if a live lane has
a zero divisor in some component; otherwise the live lanes hold a quotient and a
remainder, and the other lanes the dividend.  The machine is past the
instruction, as a step leaves it.
-/
theorem divisions_are_masked (batch : Batch σ) (host : σ) (machine : Machine)
    (count : UInt8) (capacity : machine.top ≤ stackCapacity)
    (present : machine.current.floor + 2 * count.toNat ≤ machine.top) :
    (∀ (before : Machine) (operation : Division),
      before.upcoming = .ok (.divide operation count) →
        before.advanced (.divide operation count) = machine →
          before.stepAt batch host =
            (machine.execute batch (.divide operation count)).at host) ∧
      (∀ operation,
        (∃ opcode lane, ((machine.execute batch (.divide operation count)).at host).1 =
          .error (.fault (.arithmetic opcode lane))) ↔
            machine.DividesByZero count.toNat) ∧
      (¬ machine.DividesByZero count.toNat → ∀ signedness, ∃ quotients remainders,
        MaskedDivision batch host machine count signedness quotients remainders) := by
  refine ⟨?_, ?_, ?_⟩
  · rintro before operation decoded rfl
    exact stepAt_of_decoded decoded rfl host
  · intro operation
    rcases execute_divide_eq batch host capacity present operation with
      ⟨⟨lane, executed⟩, zero⟩ | ⟨executed, nonzero⟩
    · rw [executed]
      exact iff_of_true ⟨_, lane, rfl⟩ zero
    · rw [executed]
      exact iff_of_false (by rintro ⟨_, _, ⟨⟩⟩) nonzero
  · intro nonzero signedness
    exact ⟨_, _, maskedDivision_of_nonzero batch host capacity present nonzero signedness⟩

/-- A machine with one live lane, which divides the least number by minus one. -/
def overflowing : Machine where
  registers := (RegisterFile.blank stackCapacity).overwrite 0
    [.ofFn fun lane => if lane = 0 then 0x80000000 else 5,
      .ofFn fun lane => if lane = 0 then 0xffffffff else 0]
  top := 2
  globals := .blank globalCapacity
  predicates := .start 1
  current := ⟨{ name := "wrap", parameterCount := 0, code := [] }, 0, 0, 0, 0, 0⟩
  callers := []

/-- The quotient wraps in the live lane; the others divide by zero and keep the dividend. -/
theorem divisions_are_masked_overflowing :
    overflowing.top ≤ stackCapacity ∧ overflowing.current.floor + 2 * 1 ≤ overflowing.top ∧
      ¬ overflowing.DividesByZero 1 ∧
      ∃ quotients remainders,
        MaskedDivision (⟨{}, [], [], 0⟩ : Batch Unit) () overflowing 1 .signed quotients
          remainders := by
  have nonzero : ¬ overflowing.DividesByZero 1 := by
    rintro ⟨step, first, lane, live, zero⟩
    obtain rfl := Nat.lt_one_iff.mp first
    revert lane
    decide +kernel
  have masked := divisions_are_masked (⟨{}, [], [], 0⟩ : Batch Unit) () overflowing 1
    (by decide) (by decide)
  exact ⟨by decide, by decide, nonzero, masked.2.2 nonzero .signed⟩

end Machine

end Lockstep
