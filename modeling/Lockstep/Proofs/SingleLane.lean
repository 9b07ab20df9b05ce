import Lockstep.Proofs.MirroredSteps
import Lockstep.Proofs.Striping

/-!
# One lane on its own

The machine of a chunk and the machine of one of its elements mirror each
other along the map that takes the lane of the element to the lowest lane and
leaves out all others.  They do so from the start: arguments, globals and
predicates of the element are those of its lane.
-/

namespace Lockstep

variable {σ : Type}

/-- The map that keeps a single lane, as the lowest one. -/
def Lane.only (chosen : Lane) : Lane → Option Lane :=
  fun lane => if lane = chosen then some 0 else none

@[simp]
theorem Lane.only_eq_some {chosen lane target : Lane} :
    chosen.only lane = some target ↔ lane = chosen ∧ target = 0 := by
  unfold only
  split
  · rename_i same
    simp [same, eq_comm]
  · rename_i differ
    simp [differ]

theorem Lanes.mirrors_only {α : Type} {chosen : Lane} {left right : Lanes α} :
    left.Mirrors chosen.only right ↔ right.get 0 = left.get chosen := by
  constructor
  · intro mirrors
    exact mirrors chosen 0 (Lane.only_eq_some.mpr ⟨rfl, rfl⟩)
  · intro same lane target mapped
    rcases Lane.only_eq_some.mp mapped with ⟨rfl, rfl⟩
    exact same

theorem filterMap_only {lanes : List Lane} (distinct : lanes.Nodup) (chosen : Lane) :
    lanes.filterMap chosen.only = if chosen ∈ lanes then [0] else [] := by
  induction lanes with
  | nil =>
      rfl
  | cons head tail induction =>
      rcases List.nodup_cons.mp distinct with ⟨fresh, rest⟩
      rw [List.filterMap_cons, induction rest]
      by_cases same : head = chosen
      · subst same
        simp [Lane.only, fresh]
      · have differ : ¬ chosen = head := fun equal => same equal.symm
        simp [Lane.only, same, differ]

theorem Lanes.nodup_active (mask : Mask) : mask.active.Nodup :=
  (List.nodup_finRange laneCount).filter _

/-- A mask of at most the lowest lane covers the one lane that it mirrors. -/
theorem Lanes.covers_only {chosen : Lane} {left right : Mask}
    (mirrors : left.Mirrors chosen.only right)
    (alone : ∀ lane, right.get lane = true → lane = 0) :
    left.Covers chosen.only right := by
  have same := mirrors_only.mp mirrors
  have lowest : right.active.filterMap (Lane.only 0) = right.active := by
    have each : ∀ lane ∈ right.active, Lane.only 0 lane = some lane := by
      intro lane active
      rw [alone lane ((mem_active _ _).mp active)]
      rfl
    rw [List.filterMap_congr each, List.filterMap_some]
  unfold Covers
  rw [← lowest, filterMap_only right.nodup_active, filterMap_only left.nodup_active]
  simp only [mem_active, same]

namespace Machine

variable {program : Program} {chosen : Lane} {clean : Nat → Prop} {left right : Machine}

/-- A machine that holds at most one element, in its lowest lane. -/
structure Solo (program : Program) (machine : Machine) : Prop where
  sound : machine.Sound program
  occupied : ∀ lane, machine.predicates.occupied.get lane = true → lane = 0

theorem Solo.lowest (solo : right.Solo program) {lane : Lane}
    (live : right.live.get lane = true) : lane = 0 :=
  solo.occupied lane (solo.sound.predicates.occupied_of_live live)

theorem Solo.any_eq (solo : right.Solo program) : right.live.any = right.live.get 0 := by
  apply Bool.eq_iff_iff.mpr
  rw [Lanes.any_eq_true]
  constructor
  · rintro ⟨lane, live⟩
    rw [← solo.lowest live]
    exact live
  · intro live
    exact ⟨0, live⟩

theorem Mirrors.live_only (mirrors : left.Mirrors chosen.only clean right) :
    right.live.get 0 = left.live.get chosen :=
  Lanes.mirrors_only.mp mirrors.live

theorem Mirrors.covers (mirrors : left.Mirrors chosen.only clean right)
    (solo : right.Solo program) : left.live.Covers chosen.only right.live :=
  Lanes.covers_only mirrors.live fun _ => solo.lowest

theorem Serves.solo {function : Function} (serves : right.Serves program function 1) :
    right.Solo program := by
  refine ⟨serves.sound, ?_⟩
  intro lane occupied
  rw [serves.occupied, Lanes.get_first] at occupied
  have small := of_decide_eq_true occupied
  exact Fin.ext (Nat.lt_one_iff.mp small)

end Machine

/-! ## The start -/

/-- The arguments of an element are those of its lane in a chunk. -/
theorem chunkRegisters_mirrored (columns : List Column) (offset : Nat) {lanes : Nat}
    {lane : Lane} (within : lane.val < lanes) :
    MirroredRun lane.only (Linked.chunkRegisters columns offset lanes)
      ((row columns (offset + lane.val)).map fun word => packWords [word]) := by
  unfold Linked.chunkRegisters row
  rw [List.map_map]
  apply List.forall₂_map_left_iff.mpr
  apply List.forall₂_map_right_iff.mpr
  apply List.forall₂_same.mpr
  intro column _
  apply Lanes.mirrors_only.mpr
  rw [get_packWords_chunk, if_pos within]
  simp [packWords]

namespace Machine

/-- The machine of an element starts as its lane in a chunk does. -/
theorem mirrors_start {function : Function} {globals : RegisterFile globalCapacity}
    (frame : function.stackNeed ≤ stackCapacity) (uniform : globals.Uniform)
    {columns : List Column} (counted : columns.length = function.parameterCount)
    (offset : Nat) {lanes : Nat} {lane : Lane} (within : lane.val < lanes) :
    (chunked function globals columns offset lanes).Mirrors lane.only spotless
      (single function globals (row columns (offset + lane.val))) := by
  have run := chunkRegisters_mirrored columns offset within
  have sizes := Function.frame_of_fits frame
  have need := Function.frameSize_le sizes.2
  have inside : 0 + (Linked.chunkRegisters columns offset lanes).length ≤
      stackCapacity := by
    rw [Linked.chunkRegisters, List.length_map]
    omega
  -- Both machines enter the function from machines whose stack holds the arguments.
  let before (lanes : Nat) (registers : List Register) : Machine := {
    registers := (RegisterFile.blank stackCapacity).overwrite 0 registers
    top := function.parameterCount
    globals := globals
    predicates := .start lanes
    current := {
      function := function
      offset := 0
      base := 0
      floor := 0
      frameSize := 0
      argumentCount := 0 }
    callers := [] }
  have arguments : (before lanes (Linked.chunkRegisters columns offset lanes)).Mirrors
      lane.only spotless
      (before 1 ((row columns (offset + lane.val)).map fun word => packWords [word])) := by
    refine ⟨rfl, rfl, rfl, ⟨?_, .nil, .nil⟩, ?_, ?_⟩
    · apply Lanes.mirrors_only.mpr
      change (Lanes.first 1).get 0 = (Lanes.first lanes).get lane
      rw [Lanes.get_first, Lanes.get_first, decide_eq_true within]
      rfl
    · intro position
      exact Lanes.mirrors_only.mpr (uniform position 0 lane)
    · intro position _ below
      change position < function.parameterCount at below
      change Lanes.Mirrors lane.only
        (((RegisterFile.blank stackCapacity).overwrite 0 _).register position)
        (((RegisterFile.blank stackCapacity).overwrite 0 _).register position)
      rw [RegisterFile.register_overwrite _ _ _ inside,
        RegisterFile.register_overwrite _ _ _ (run.length_eq ▸ inside), ← run.length_eq]
      split
      · exact run.getD _
      · rename_i outside
        rw [Linked.chunkRegisters, List.length_map] at outside
        omega
  exact arguments.entered (Nat.le_of_eq (Nat.zero_add _)) (by omega)

/-- What comes back to an element is what comes back from its lane. -/
theorem Mirrors.delivered {program : Program} {function : Function} {lanes : Nat}
    {chosen : Lane} {final last : Machine} {returned answers : List Register}
    (mirrors : final.Mirrors chosen.only spotless last)
    (run : MirroredRun chosen.only returned answers)
    (delivers : Delivers program function lanes final returned) :
    (∀ slot, slot < function.parameterCount →
      (last.registers.register slot).get 0 =
        (final.registers.register slot).get chosen) ∧
      answers.map (·.get 0) = returned.map (·.get chosen) := by
  refine ⟨?_, run.laneWords_eq (Lane.only_eq_some.mpr ⟨rfl, rfl⟩)⟩
  intro slot inSlots
  exact Lanes.mirrors_only.mp (mirrors.locals slot trivial (delivers.lt_top inSlots))

end Machine

end Lockstep
