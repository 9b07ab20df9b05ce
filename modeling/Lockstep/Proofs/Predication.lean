import Lockstep.Predicates
import Lockstep.Proofs.Results

/-!
# Nested predicates

The operations on predicates are collected in `Predicates.Action`, so that a
fact about all of them has one statement and one case for each.  Predicates
are sound if neither their scopes nor their loops exceed the capacity and no
scope lets a lane run that holds no element; `Predicates.perform_yields` says
that every operation keeps them sound or fails for lack of room or of a scope.
`perform_onScopes` and `perform_onLoops` say what an operation does to the
innermost scope or loop if it succeeds.
-/

namespace Lockstep

/-! ## Masks -/

/-- All lanes of a mask are in another one. -/
def Lanes.Within (inner outer : Mask) : Prop :=
  ∀ lane, inner.get lane = true → outer.get lane = true

namespace Lanes.Within

theorem refl (mask : Mask) : mask.Within mask :=
  fun _ inside => inside

theorem trans {first second third : Mask} (inner : first.Within second)
    (outer : second.Within third) : first.Within third :=
  fun lane inside => outer lane (inner lane inside)

theorem idle {inner outer : Mask} (within : inner.Within outer) {lane : Lane}
    (outside : outer.get lane = false) : inner.get lane = false := by
  cases inside : inner.get lane with
  | false =>
      rfl
  | true =>
      rw [within lane inside] at outside
      cases outside

theorem both_left (left right : Mask) : (left.both right).Within left := by
  intro lane inside
  rw [get_both, Bool.and_eq_true] at inside
  exact inside.1

theorem both {left right wider other : Mask} (first : left.Within wider)
    (second : right.Within other) : (left.both right).Within (wider.both other) := by
  intro lane inside
  rw [get_both, Bool.and_eq_true] at inside ⊢
  exact ⟨first lane inside.1, second lane inside.2⟩

theorem either {left right wider : Mask} (first : left.Within wider)
    (second : right.Within wider) : (left.either right).Within wider := by
  intro lane inside
  rw [get_either, Bool.or_eq_true] at inside
  exact inside.elim (first lane) (second lane)

theorem any {inner outer : Mask} (within : inner.Within outer)
    (idle : outer.any = false) : inner.any = false := by
  cases held : inner.any with
  | false =>
      rfl
  | true =>
      obtain ⟨lane, inside⟩ := (any_eq_true _).mp held
      rw [(any_eq_true _).mpr ⟨lane, within lane inside⟩] at idle
      cases idle

end Lanes.Within

/-! ## Operations -/

namespace Predicates

/-- The operations on predicates. -/
inductive Action where
  | maskPush (condition : Mask)
  | maskPop
  | maskNegate
  | maskBlend
  | loopBegin
  | loopNext
  | loopMask (keep : Mask)
  | loopEnd
  | loopBreak
  | loopContinue

/-- The predicates after an operation. -/
def perform (predicates : Predicates) : Action → Except Failure Predicates
  | .maskPush condition => predicates.maskPush condition
  | .maskPop => predicates.maskPop
  | .maskNegate => predicates.maskNegate
  | .maskBlend => predicates.maskBlend.map Prod.snd
  | .loopBegin => predicates.loopBegin
  | .loopNext => predicates.loopNext
  | .loopMask keep => predicates.loopMask keep
  | .loopEnd => predicates.loopEnd
  | .loopBreak => predicates.loopBreak
  | .loopContinue => predicates.loopContinue

/-- The entries of a stack of masks, its permanent entry last. -/
def entries (predicates : Predicates) : MaskStack → List Mask
  | .condition => predicates.scopes.map Scope.condition ++ [predicates.occupied]
  | .mask => predicates.scopes.map Scope.mask ++ [predicates.occupied]
  | .loop => predicates.loops.map Loop.running ++ [.all]
  | .parked => predicates.loops.map Loop.parked ++ [.none]

/-- Scopes and loops are within the capacity, and scopes within the elements. -/
structure Sound (predicates : Predicates) : Prop where
  scopes : predicates.scopes.length < predicateCapacity
  loops : predicates.loops.length < predicateCapacity
  confined : ∀ scope ∈ predicates.scopes, ∀ lane,
    scope.mask.get lane = true → predicates.occupied.get lane = true

theorem sound_start (lanes : Nat) : (start lanes).Sound where
  scopes := Nat.zero_lt_succ 15
  loops := Nat.zero_lt_succ 15
  confined := by
    intro scope member
    exact absurd member List.not_mem_nil

namespace Sound

variable {predicates : Predicates}

theorem length_entries (sound : predicates.Sound) (stack : MaskStack) :
    0 < (predicates.entries stack).length ∧
      (predicates.entries stack).length ≤ predicateCapacity := by
  have scopes := sound.scopes
  have loops := sound.loops
  cases stack <;> simp only [entries, List.length_append, List.length_map,
    List.length_singleton] <;> omega

theorem occupied_of_mask (sound : predicates.Sound) {lane : Lane}
    (runs : predicates.mask.get lane = true) :
    predicates.occupied.get lane = true := by
  unfold mask maskWithin at runs
  split at runs
  · exact runs
  · rename_i scope outer nested
    apply sound.confined scope _ lane runs
    rw [nested]
    exact List.mem_cons_self

/-- A live lane holds an element. -/
theorem occupied_of_live (sound : predicates.Sound) {lane : Lane}
    (live : predicates.live.get lane = true) :
    predicates.occupied.get lane = true := by
  apply sound.occupied_of_mask
  simp only [Predicates.live, Lanes.get_both, Bool.and_eq_true] at live
  exact live.1

theorem tail {scope : Scope} {outer : List Scope} (sound : predicates.Sound)
    (nested : predicates.scopes = scope :: outer) :
    Sound { predicates with scopes := outer } where
  scopes := by
    have bound := sound.scopes
    rw [nested, List.length_cons] at bound
    exact Nat.lt_of_succ_lt bound
  loops := sound.loops
  confined := by
    intro inner member
    apply sound.confined
    rw [nested]
    exact List.mem_cons_of_mem scope member

theorem cons {scope : Scope} (sound : predicates.Sound)
    (room : predicates.scopes.length + 1 < predicateCapacity)
    (within : ∀ lane, scope.mask.get lane = true →
      predicates.mask.get lane = true) :
    Sound { predicates with scopes := scope :: predicates.scopes } where
  scopes := room
  loops := sound.loops
  confined := by
    intro inner member lane runs
    rcases List.mem_cons.mp member with rfl | older
    · exact sound.occupied_of_mask (within lane runs)
    · exact sound.confined inner older lane runs

theorem withLoops {loops : List Loop} (sound : predicates.Sound)
    (bound : loops.length < predicateCapacity) :
    Sound { predicates with loops := loops } where
  scopes := sound.scopes
  loops := bound
  confined := sound.confined

end Sound

theorem checkRoom_yields (stack : MaskStack) (depth : Nat) :
    Yields (fun failure => failure.runtime = true ∧ failure.lane? = none)
      (fun _ => depth + 1 < predicateCapacity) (checkRoom stack depth) := by
  unfold checkRoom
  split
  · assumption
  · exact ⟨rfl, rfl⟩

/-- The predicates of the same elements, in good order. -/
def Keeps (before after : Predicates) : Prop :=
  after.Sound ∧ after.occupied = before.occupied

/-- An operation on the innermost loop. -/
theorem keeps_innermost {predicates : Predicates} {loop : Loop} {outer : List Loop}
    (sound : predicates.Sound) (nested : predicates.loops = loop :: outer)
    (changed : Loop) :
    predicates.Keeps { predicates with loops := changed :: outer } := by
  refine ⟨sound.withLoops ?_, rfl⟩
  have bound := sound.loops
  rw [nested] at bound
  exact bound

/-- Every operation keeps predicates sound or fails for lack of room or of a scope. -/
theorem perform_yields {predicates : Predicates} (sound : predicates.Sound)
    (action : Action) :
    Yields (fun failure => failure.runtime = true ∧ failure.lane? = none)
      predicates.Keeps (predicates.perform action) := by
  cases action with
  | maskPush condition =>
      apply Yields.bind (checkRoom_yields _ _)
      intro _ room
      refine ⟨sound.cons room ?_, rfl⟩
      intro lane runs
      simp only [Lanes.get_both, Bool.and_eq_true] at runs
      exact runs.1
  | maskPop =>
      change Yields _ _ predicates.maskPop
      unfold maskPop
      split
      · exact ⟨rfl, rfl⟩
      · rename_i nested
        exact ⟨sound.tail nested, rfl⟩
  | maskNegate =>
      change Yields _ _ predicates.maskNegate
      unfold maskNegate
      split
      · exact ⟨rfl, rfl⟩
      · rename_i scope outer nested
        have outerSound := sound.tail nested
        have room := sound.scopes
        rw [nested] at room
        refine ⟨outerSound.cons room ?_, rfl⟩
        intro lane runs
        simp only [Lanes.get_both, Bool.and_eq_true] at runs
        exact runs.1
  | maskBlend =>
      change Yields _ _ (predicates.maskBlend.map Prod.snd)
      unfold maskBlend
      split
      · exact ⟨rfl, rfl⟩
      · rename_i nested
        exact ⟨sound.tail nested, rfl⟩
  | loopBegin =>
      apply Yields.bind (checkRoom_yields _ _)
      intro _ room
      exact ⟨sound.withLoops room, rfl⟩
  | loopNext =>
      change Yields _ _ predicates.loopNext
      unfold loopNext
      split
      · exact ⟨rfl, rfl⟩
      · rename_i nested
        exact keeps_innermost sound nested _
  | loopMask keep =>
      change Yields _ _ (predicates.loopMask keep)
      unfold loopMask
      split
      · exact ⟨rfl, rfl⟩
      · rename_i nested
        exact keeps_innermost sound nested _
  | loopEnd =>
      change Yields _ _ predicates.loopEnd
      unfold loopEnd
      split
      · exact ⟨rfl, rfl⟩
      · rename_i nested
        refine ⟨sound.withLoops ?_, rfl⟩
        have bound := sound.loops
        rw [nested, List.length_cons] at bound
        exact Nat.lt_of_succ_lt bound
  | loopBreak =>
      change Yields _ _ predicates.loopBreak
      unfold loopBreak
      split
      · exact ⟨rfl, rfl⟩
      · rename_i nested
        exact keeps_innermost sound nested _
  | loopContinue =>
      change Yields _ _ predicates.loopContinue
      unfold loopContinue
      split
      · exact ⟨rfl, rfl⟩
      · rename_i nested
        exact keeps_innermost sound nested _

/-! ## Operations that succeed -/

variable {predicates after : Predicates}

theorem maskPush_eq {condition : Mask} (result : predicates.maskPush condition = .ok after) :
    after = { predicates with
      scopes := ⟨condition, predicates.mask.both condition⟩ :: predicates.scopes } := by
  unfold maskPush at result
  cases checked : checkRoom .condition predicates.scopes.length with
  | ok done =>
      rw [checked] at result
      exact (Except.ok.inj result).symm
  | error failure =>
      rw [checked] at result
      cases result

theorem loopBegin_eq (result : predicates.loopBegin = .ok after) :
    after = { predicates with
      loops := ⟨predicates.running, .none⟩ :: predicates.loops } := by
  unfold loopBegin at result
  cases checked : checkRoom .parked predicates.loops.length with
  | ok done =>
      rw [checked] at result
      exact (Except.ok.inj result).symm
  | error failure =>
      rw [checked] at result
      cases result

/-- What an operation makes of the innermost scope and the scopes around it. -/
def Action.onScopes (occupied : Mask) : Action → Option (Scope → List Scope → List Scope)
  | .maskPop => some fun _ outer => outer
  | .maskBlend => some fun _ outer => outer
  | .maskNegate => some fun scope outer =>
      ⟨scope.condition, (maskWithin occupied outer).both scope.condition.complement⟩ ::
        outer
  | _ => none

/-- What an operation makes of the innermost loop and the loops around it. -/
def Action.onLoops (live : Mask) : Action → Option (Loop → List Loop → List Loop)
  | .loopEnd => some fun _ outer => outer
  | .loopNext => some fun loop outer => ⟨loop.running.either loop.parked, .none⟩ :: outer
  | .loopMask keep => some fun loop outer =>
      { loop with running := loop.running.both keep } :: outer
  | .loopBreak => some fun loop outer =>
      { loop with running := loop.running.both live.complement } :: outer
  | .loopContinue => some fun loop outer =>
      ⟨loop.running.both live.complement, loop.parked.either live⟩ :: outer
  | _ => none

theorem perform_onScopes {action : Action} {change : Scope → List Scope → List Scope}
    (changes : action.onScopes predicates.occupied = some change)
    (result : predicates.perform action = .ok after) :
    ∃ scope outer, predicates.scopes = scope :: outer ∧
      after = { predicates with scopes := change scope outer } := by
  rcases predicates with ⟨occupied, scopes, loops⟩
  cases action with
  | maskPop | maskBlend | maskNegate =>
      cases changes
      cases scopes with
      | nil =>
          cases result
      | cons scope outer =>
          exact ⟨scope, outer, rfl, (Except.ok.inj result).symm⟩
  | _ =>
      cases changes

theorem perform_onLoops {action : Action} {change : Loop → List Loop → List Loop}
    (changes : action.onLoops predicates.live = some change)
    (result : predicates.perform action = .ok after) :
    ∃ loop outer, predicates.loops = loop :: outer ∧
      after = { predicates with loops := change loop outer } := by
  rcases predicates with ⟨occupied, scopes, loops⟩
  cases action with
  | loopEnd | loopNext | loopMask | loopBreak | loopContinue =>
      cases changes
      cases loops with
      | nil =>
          cases result
      | cons loop outer =>
          exact ⟨loop, outer, rfl, (Except.ok.inj result).symm⟩
  | _ =>
      cases changes

end Predicates

end Lockstep
