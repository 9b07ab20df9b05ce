/-!
# Lanes, registers and masks

Every register of the machine holds one 32-bit word for each of eight lanes,
and every predicate holds one truth value for each of them.  This module
supplies the common shape `Lanes`, a family with one entry per lane, and the
operations that registers and masks share.

A family is determined by its entries: `Lanes.ext_get` reduces an equation
between families to one equation per lane, and the `get` equations beside
each operation say what that operation does to one lane.
-/

namespace Lockstep

/-- Number of lanes that run in lockstep. -/
abbrev laneCount : Nat := 8

/-- Position of one lane. -/
abbrev Lane : Type := Fin laneCount

/-- There is a lowest lane. -/
instance : @NeZero Nat Zero.ofOfNat0 laneCount := ⟨by decide⟩

/-- One entry for every lane. -/
structure Lanes (α : Type) where
  /-- Collect the entries of all lanes. -/
  ofVector ::
  /-- The entries, lowest lane first. -/
  toVector : Vector α laneCount
deriving DecidableEq

/-- A raw 32-bit pattern, read as a number only by the operation using it. -/
abbrev Word : Type := UInt32

/-- One word for every lane. -/
abbrev Register : Type := Lanes Word

/-- The set of lanes for which a predicate holds. -/
abbrev Mask : Type := Lanes Bool

/-- The word of a true boolean; a false one is zero. -/
def trueWord : Word := 0xffffffff

/-- The word of a truth value. -/
def truthWord (truth : Bool) : Word :=
  if truth then trueWord else 0

namespace Lanes

variable {α β : Type}

/-- Entry of one lane. -/
def get (family : Lanes α) (lane : Lane) : α :=
  family.toVector[lane]

/-- Entry of the lane with a given number, if there is such a lane. -/
def get? (family : Lanes α) (number : Nat) : Option α :=
  family.toVector[number]?

theorem get?_of_lt (family : Lanes α) {number : Nat} (inRange : number < laneCount) :
    family.get? number = some (family.get ⟨number, inRange⟩) :=
  Vector.getElem?_eq_getElem inRange

/-- Build a family from the entry of each lane. -/
def ofFn (entry : Lane → α) : Lanes α :=
  ⟨Vector.ofFn entry⟩

@[simp]
theorem get_ofFn (entry : Lane → α) (lane : Lane) :
    (ofFn entry).get lane = entry lane := by
  simp [ofFn, get]

/-- Families with equal entries are equal. -/
theorem ext_get {left right : Lanes α}
    (entries : ∀ lane, left.get lane = right.get lane) :
    left = right := by
  cases left with
  | ofVector leftEntries =>
    cases right with
    | ofVector rightEntries =>
      congr
      apply Vector.ext
      intro position inRange
      exact entries ⟨position, inRange⟩

/-- All entries, lowest lane first. -/
def toList (family : Lanes α) : List α :=
  family.toVector.toList

/-- The same entry in every lane. -/
def splat (entry : α) : Lanes α :=
  ofFn fun _ => entry

@[simp]
theorem get_splat (entry : α) (lane : Lane) :
    (splat entry).get lane = entry := by
  simp [splat]

/-- Apply a function in every lane. -/
def map (function : α → β) (family : Lanes α) : Lanes β :=
  ofFn fun lane => function (family.get lane)

@[simp]
theorem get_map (function : α → β) (family : Lanes α) (lane : Lane) :
    (family.map function).get lane = function (family.get lane) := by
  simp [map]

/-- Replace the entry of one lane. -/
def set (family : Lanes α) (target : Lane) (entry : α) : Lanes α :=
  ⟨family.toVector.set target entry⟩

@[simp]
theorem get_set (family : Lanes α) (target lane : Lane) (entry : α) :
    (family.set target entry).get lane =
      if target = lane then entry else family.get lane := by
  simp only [set, get, Fin.getElem_fin, Vector.getElem_set]
  simp [Fin.ext_iff]

/-- Take the first family on the lanes of a mask and the second elsewhere. -/
def select (mask : Mask) (chosen other : Lanes α) : Lanes α :=
  ofFn fun lane => if mask.get lane then chosen.get lane else other.get lane

@[simp]
theorem get_select (mask : Mask) (chosen other : Lanes α) (lane : Lane) :
    (select mask chosen other).get lane =
      if mask.get lane then chosen.get lane else other.get lane := by
  simp [select]

/-! ## Masks -/

/-- The mask of no lane. -/
def none : Mask := splat false

/-- The mask of every lane. -/
def all : Mask := splat true

/-- The mask of the lanes below a count. -/
def first (count : Nat) : Mask :=
  ofFn fun lane => decide (lane.val < count)

@[simp]
theorem get_none (lane : Lane) : none.get lane = false := by
  simp [none]

@[simp]
theorem get_all (lane : Lane) : all.get lane = true := by
  simp [all]

@[simp]
theorem get_first (count : Nat) (lane : Lane) :
    (first count).get lane = decide (lane.val < count) := by
  simp [first]

/-- Lanes in both masks. -/
def both (left right : Mask) : Mask :=
  ofFn fun lane => left.get lane && right.get lane

/-- Lanes in at least one of two masks. -/
def either (left right : Mask) : Mask :=
  ofFn fun lane => left.get lane || right.get lane

/-- Lanes outside a mask. -/
def complement (mask : Mask) : Mask :=
  mask.map not

@[simp]
theorem get_both (left right : Mask) (lane : Lane) :
    (both left right).get lane = (left.get lane && right.get lane) := by
  simp [both]

@[simp]
theorem get_either (left right : Mask) (lane : Lane) :
    (either left right).get lane = (left.get lane || right.get lane) := by
  simp [either]

@[simp]
theorem get_complement (mask : Mask) (lane : Lane) :
    mask.complement.get lane = !mask.get lane := by
  simp [complement]

/-- Lanes of a mask in ascending order. -/
def active (mask : Mask) : List Lane :=
  (List.finRange laneCount).filter mask.get

@[simp]
theorem mem_active (mask : Mask) (lane : Lane) :
    lane ∈ mask.active ↔ mask.get lane = true := by
  simp [active]

/-- Whether a mask holds some lane. -/
def any (mask : Mask) : Bool :=
  (List.finRange laneCount).any mask.get

@[simp]
theorem any_eq_true (mask : Mask) :
    mask.any = true ↔ ∃ lane, mask.get lane = true := by
  simp [any]

/-! ## Registers -/

/-- The register whose words are all zero. -/
def zero : Register := splat 0

@[simp]
theorem get_zero (lane : Lane) : zero.get lane = 0 := by
  simp [zero]

/-- Lanes whose word is not zero. -/
def truthy (register : Register) : Mask :=
  register.map (· != 0)

@[simp]
theorem get_truthy (register : Register) (lane : Lane) :
    register.truthy.get lane = (register.get lane != 0) := by
  simp [truthy]

/-- The register that holds the boolean of each lane. -/
def toRegister (mask : Mask) : Register :=
  mask.map truthWord

@[simp]
theorem get_toRegister (mask : Mask) (lane : Lane) :
    mask.toRegister.get lane = truthWord (mask.get lane) := by
  simp [toRegister]

/-- The register that holds a signed integer in each lane. -/
def ofSigned (values : Lanes Int32) : Register :=
  values.map Int32.toUInt32

end Lanes

end Lockstep
