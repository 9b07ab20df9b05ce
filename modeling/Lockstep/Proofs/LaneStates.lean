import Lockstep.Proofs.MaskStacks
import Mathlib.Data.List.Infix

/-!
# Lanes in a loop

While a loop is open, each lane runs in it, waits for its next round, or is out
of it.  `LaneState.react` says how the operations on the innermost loop lead
from one state to another, `LaneState.drive` follows a sequence of operations
and lets a lane react to those that find the loop innermost.  The masks of the
loop show the state of every lane at every moment, whatever else is opened and
closed in the meantime: `Predicates.drive_shows`.

Scopes and loops are stacks of which an operation touches the top at most.
What lies below an open scope or loop is therefore found again, untouched, when
it is closed: `Predicates.kept_below`.
-/

namespace Lockstep

/-! ## The top of a stack -/

/-- What one operation can do to a stack with its top first. -/
inductive StackMove {α : Type} : List α → List α → Prop
  | rest (entries : List α) : StackMove entries entries
  | push (entry : α) (entries : List α) : StackMove entries (entry :: entries)
  | pop (entry : α) (entries : List α) : StackMove (entry :: entries) entries
  | change (entry changed : α) (entries : List α) :
      StackMove (entry :: entries) (changed :: entries)

/-- What lies below the top of a stack stays where it is. -/
theorem StackMove.keeps {α : Type} {before after outer : List α}
    (move : StackMove before after) (below : outer <:+ before)
    (above : outer.length < before.length) : outer <:+ after := by
  have beneath : ∀ {entry : α} {entries : List α}, outer <:+ entry :: entries →
      outer.length < (entry :: entries).length → outer <:+ entries := by
    intro entry entries inside shorter
    rcases List.suffix_cons_iff.mp inside with rfl | inside
    · exact absurd shorter (Nat.lt_irrefl _)
    · exact inside
  cases move with
  | rest =>
      exact below
  | push entry =>
      exact below.trans (List.suffix_cons entry before)
  | pop entry =>
      exact beneath below above
  | change entry changed entries =>
      exact (beneath below above).trans (List.suffix_cons changed entries)

namespace Predicates

/-- An operation that succeeds moves one of the two stacks. -/
theorem perform_moves {predicates after : Predicates} {action : Action}
    (performed : predicates.perform action = .ok after) :
    (∃ scopes, StackMove predicates.scopes scopes ∧
      after = { predicates with scopes := scopes }) ∨
    ∃ loops, StackMove predicates.loops loops ∧
      after = { predicates with loops := loops } := by
  cases action with
  | maskPush condition =>
      rcases maskPush_eq performed with rfl
      exact .inl ⟨_, .push _ _, rfl⟩
  | maskPop | maskBlend =>
      obtain ⟨scope, outer, shape, rfl⟩ := perform_onScopes rfl performed
      rw [shape]
      exact .inl ⟨_, .pop _ _, rfl⟩
  | maskNegate =>
      obtain ⟨scope, outer, shape, rfl⟩ := perform_onScopes rfl performed
      rw [shape]
      exact .inl ⟨_, .change _ _ _, rfl⟩
  | loopBegin =>
      rcases loopBegin_eq performed with rfl
      exact .inr ⟨_, .push _ _, rfl⟩
  | loopEnd =>
      obtain ⟨loop, outer, shape, rfl⟩ := perform_onLoops rfl performed
      rw [shape]
      exact .inr ⟨_, .pop _ _, rfl⟩
  | loopNext | loopMask | loopBreak | loopContinue =>
      obtain ⟨loop, outer, shape, rfl⟩ := perform_onLoops rfl performed
      rw [shape]
      exact .inr ⟨_, .change _ _ _, rfl⟩

theorem moves_scopes (predicates : Predicates) (action : Action) :
    StackMove predicates.scopes (predicates.attempt action).scopes := by
  refine @attempt_keeps (fun after => StackMove predicates.scopes after.scopes) _ _
    (.rest _) fun after performed => ?_
  rcases perform_moves performed with ⟨scopes, move, rfl⟩ | ⟨loops, move, rfl⟩
  · exact move
  · exact .rest _

theorem moves_loops (predicates : Predicates) (action : Action) :
    StackMove predicates.loops (predicates.attempt action).loops := by
  refine @attempt_keeps (fun after => StackMove predicates.loops after.loops) _ _
    (.rest _) fun after performed => ?_
  rcases perform_moves performed with ⟨scopes, move, rfl⟩ | ⟨loops, move, rfl⟩
  · exact .rest _
  · exact move

/-! ## While a scope or a loop stays open -/

/-- A stack stays higher than a height while some operations are tried. -/
def StaysAbove {α : Type} (stack : Predicates → List α) (height : Nat)
    (predicates : Predicates) (actions : List Action) : Prop :=
  ∀ early, early <+: actions → height < (stack (predicates.attemptAll early)).length

instance {α : Type} (stack : Predicates → List α) (height : Nat) (predicates : Predicates)
    (actions : List Action) : Decidable (predicates.StaysAbove stack height actions) :=
  decidable_of_iff
    (∀ early ∈ actions.inits, height < (stack (predicates.attemptAll early)).length)
    (by simp only [List.mem_inits, StaysAbove])

section Open

variable {α : Type} {stack : Predicates → List α} {height : Nat}
variable {predicates : Predicates} {action : Action} {actions : List Action}

theorem StaysAbove.now (above : predicates.StaysAbove stack height actions) :
    height < (stack predicates).length :=
  above [] List.nil_prefix

theorem StaysAbove.next (above : predicates.StaysAbove stack height (action :: actions)) :
    (predicates.attempt action).StaysAbove stack height actions :=
  fun early taken => above (action :: early) (List.prefix_cons_inj action |>.mpr taken)

/-- What lies below an open scope or loop stays where it is. -/
theorem kept_below
    (moves : ∀ predicates action,
      StackMove (stack predicates) (stack (predicates.attempt action)))
    {outer : List α} (below : outer <:+ stack predicates)
    (above : predicates.StaysAbove stack outer.length actions) :
    outer <:+ stack (predicates.attemptAll actions) := by
  induction actions generalizing predicates with
  | nil =>
      exact below
  | cons action actions induction =>
      exact induction ((moves predicates action).keeps below above.now) above.next

end Open

end Predicates

/-! ## The state of a lane -/

/-- How a lane stands to an open loop. -/
inductive LaneState where
  /-- It runs in the current round. -/
  | running
  /-- It waits for the next round. -/
  | parked
  /-- It has left the loop, or never entered it. -/
  | out
deriving DecidableEq

namespace LaneState

open Predicates

/-- Whether a lane is among the running and among the parked lanes. -/
def bits : LaneState → Bool × Bool
  | .running => (true, false)
  | .parked => (false, true)
  | .out => (false, false)

/-- The state in which a loop begins, given whether the lane runs around it. -/
def begin (around : Bool) : LaneState :=
  if around then .running else .out

/-- How a lane reacts to an operation on the loop, given whether it is live. -/
def react (lane : Lane) (live : Bool) : LaneState → Action → LaneState
  | .running, .loopBreak => if live then .out else .running
  | .running, .loopMask keep => if keep.get lane then .running else .out
  | .running, .loopContinue => if live then .parked else .running
  | .parked, .loopNext => .running
  | state, _ => state

/--
The state of a lane after some operations have been tried.  It reacts to those
that find the loop innermost, which is when so many loops are open.
-/
def drive (lane : Lane) (depth : Nat) :
    Predicates → List Action → LaneState → LaneState
  | _, [], state => state
  | predicates, action :: actions, state =>
      drive lane depth (predicates.attempt action) actions
        (if predicates.loops.length = depth then
          state.react lane (predicates.live.get lane) action
        else state)

/-- The masks of a loop show the state of a lane. -/
def Shows (lane : Lane) (state : LaneState) (loop : Loop) : Prop :=
  (loop.running.get lane, loop.parked.get lane) = state.bits

theorem react_out (lane : Lane) (live : Bool) (action : Action) :
    out.react lane live action = .out := by
  cases action <;> rfl

theorem drive_out (lane : Lane) (depth : Nat) (predicates : Predicates)
    (actions : List Action) : drive lane depth predicates actions .out = .out := by
  induction actions generalizing predicates with
  | nil =>
      rfl
  | cons action actions induction =>
      rw [drive, react_out, ite_self, induction]

theorem drive_append (lane : Lane) (depth : Nat) (predicates : Predicates)
    (first second : List Action) (state : LaneState) :
    drive lane depth predicates (first ++ second) state =
      drive lane depth (predicates.attemptAll first) second
        (drive lane depth predicates first state) := by
  induction first generalizing predicates state with
  | nil =>
      rfl
  | cons action actions induction =>
      exact induction _ _

theorem eq_out_of_bits {state : LaneState} (none : state.bits = (false, false)) :
    state = .out := by
  cases state with
  | out => rfl
  | running | parked => cases none

end LaneState

namespace Predicates

open LaneState

variable {predicates : Predicates} {lane : Lane} {state : LaneState}

theorem shows_begin (predicates : Predicates) (lane : Lane) :
    Shows lane (.begin (predicates.running.get lane)) ⟨predicates.running, .none⟩ := by
  unfold Shows LaneState.begin
  rw [Lanes.get_none]
  cases predicates.running.get lane <;> rfl

/-- An operation on the innermost loop succeeds if there is one. -/
theorem attempt_onLoops {action : Action} {change : Loop → List Loop → List Loop}
    {loop : Loop} {outer : List Loop}
    (changes : action.onLoops predicates.live = some change)
    (innermost : predicates.loops = loop :: outer) :
    (predicates.attempt action).loops = change loop outer := by
  rcases predicates with ⟨occupied, scopes, loops⟩
  cases innermost
  cases action with
  | loopEnd | loopNext | loopMask | loopBreak | loopContinue =>
      cases changes
      rfl
  | _ =>
      cases changes

/-- An operation on scopes, and the beginning of a loop, leave the open loops alone. -/
theorem attempt_aroundLoops {action : Action}
    (aside : action.onLoops predicates.live = none) :
    predicates.loops <:+ (predicates.attempt action).loops := by
  refine @attempt_keeps (fun after => predicates.loops <:+ after.loops) _ _
    (List.suffix_refl _) fun after performed => ?_
  cases action with
  | maskPush condition =>
      rcases maskPush_eq performed with rfl
      exact List.suffix_refl _
  | maskPop | maskBlend | maskNegate =>
      obtain ⟨scope, outer, shape, rfl⟩ := perform_onScopes rfl performed
      exact List.suffix_refl _
  | loopBegin =>
      rcases loopBegin_eq performed with rfl
      exact List.suffix_cons _ _
  | loopNext | loopMask | loopEnd | loopBreak | loopContinue =>
      cases aside

/-- The innermost loop shows how its lanes react to an operation that keeps it open. -/
theorem attempt_innermost {loop : Loop} {outer : List Loop}
    (innermost : predicates.loops = loop :: outer) (shows : Shows lane state loop)
    (action : Action) (kept : outer.length < (predicates.attempt action).loops.length) :
    ∃ inner changed, (predicates.attempt action).loops = inner ++ changed :: outer ∧
      Shows lane (state.react lane (predicates.live.get lane) action) changed := by
  -- A lane that does not run in the innermost loop is not live.
  have idle : loop.running.get lane = false → predicates.live.get lane = false := by
    intro still
    apply live_within.idle
    rw [running, innermost]
    exact still
  have aside : action.onLoops predicates.live = none →
      ∃ inner, (predicates.attempt action).loops = inner ++ loop :: outer := by
    intro none
    obtain ⟨inner, placed⟩ := attempt_aroundLoops none
    exact ⟨inner, by rw [← placed, innermost]⟩
  cases action with
  | maskPush | maskPop | maskBlend | maskNegate | loopBegin =>
      obtain ⟨inner, placed⟩ := aside rfl
      refine ⟨inner, loop, placed, ?_⟩
      cases state <;> exact shows
  | loopEnd =>
      rw [attempt_onLoops rfl innermost] at kept
      exact absurd kept (Nat.lt_irrefl _)
  | loopNext =>
      have placed :=
        attempt_onLoops (rfl : Action.loopNext.onLoops predicates.live = _) innermost
      refine ⟨[], _, placed, ?_⟩
      cases state <;> simp_all [Shows, bits, react]
  | loopMask keep =>
      have placed :=
        attempt_onLoops (rfl : (Action.loopMask keep).onLoops predicates.live = _) innermost
      refine ⟨[], _, placed, ?_⟩
      cases kept : keep.get lane <;> cases state <;> simp_all [Shows, bits, react]
  | loopBreak =>
      have placed :=
        attempt_onLoops (rfl : Action.loopBreak.onLoops predicates.live = _) innermost
      refine ⟨[], _, placed, ?_⟩
      cases counts : predicates.live.get lane <;> cases state <;>
        simp_all [Shows, bits, react]
  | loopContinue =>
      have placed :=
        attempt_onLoops (rfl : Action.loopContinue.onLoops predicates.live = _) innermost
      refine ⟨[], _, placed, ?_⟩
      cases counts : predicates.live.get lane <;> cases state <;>
        simp_all [Shows, bits, react]

/-- A loop shows the states of its lanes for as long as it stays open. -/
theorem drive_shows {actions : List Action} {inner outer : List Loop} {loop : Loop}
    (placed : predicates.loops = inner ++ loop :: outer) (shows : Shows lane state loop)
    (above : predicates.StaysAbove loops outer.length actions) :
    ∃ inner changed,
      (predicates.attemptAll actions).loops = inner ++ changed :: outer ∧
        Shows lane (drive lane (outer.length + 1) predicates actions state) changed := by
  induction actions generalizing predicates state inner loop with
  | nil =>
      exact ⟨inner, loop, placed, shows⟩
  | cons action actions induction =>
      rw [drive]
      cases inner with
      | nil =>
          obtain ⟨inner, changed, next, reacted⟩ :=
            attempt_innermost placed shows action above.next.now
          rw [if_pos (by rw [placed]; rfl)]
          exact induction next reacted above.next
      | cons top inner =>
          -- Another loop is open above this one, so the operation leaves it alone.
          have further : (loop :: outer).length < predicates.loops.length := by
            simp only [placed, List.length_append, List.length_cons]
            omega
          obtain ⟨others, next⟩ := (moves_loops predicates action).keeps
            ⟨top :: inner, placed.symm⟩ further
          rw [if_neg (Nat.ne_of_gt further : predicates.loops.length ≠ outer.length + 1)]
          exact induction next.symm shows above.next

/-! ## From the beginning of a scope or a loop to its end -/

section Closing

variable {before after : Predicates}

theorem occupied_attemptAll (predicates : Predicates) (actions : List Action) :
    (predicates.attemptAll actions).occupied = predicates.occupied := by
  refine @attemptAll_keeps (fun reached => reached.occupied = predicates.occupied) _
    actions rfl fun before action after same performed => ?_
  rcases perform_moves performed with ⟨scopes, move, rfl⟩ | ⟨loops, move, rfl⟩
  · exact same
  · exact same

theorem scopeChain_suffix (below : before.scopes <:+ after.scopes)
    (same : after.occupied = before.occupied) : before.scopeChain <:+ after.scopeChain := by
  obtain ⟨inner, placed⟩ := below
  exact ⟨inner, by rw [scopeChain, scopeChain, ← placed, same, List.append_assoc]⟩

theorem loopChain_suffix (below : before.loops <:+ after.loops) :
    before.loopChain <:+ after.loopChain := by
  obtain ⟨inner, placed⟩ := below
  exact ⟨inner, by rw [loopChain, loopChain, ← placed, List.append_assoc]⟩

/-- A stack with one entry more than what lies below. -/
theorem exists_cons_of_suffix {α : Type} {outer entries : List α}
    (below : outer <:+ entries) (more : entries.length = outer.length + 1) :
    ∃ entry, entries = entry :: outer := by
  obtain ⟨inner, rfl⟩ := below
  rw [List.length_append, Nat.add_comm, Nat.add_left_cancel_iff] at more
  obtain ⟨entry, rfl⟩ := List.length_eq_one_iff.mp more
  exact ⟨entry, rfl⟩

theorem closeScope_eq {action : Action} {scope : Scope} {outer : List Scope}
    (closes : action = .maskPop ∨ action = .maskBlend)
    (innermost : predicates.scopes = scope :: outer) :
    predicates.perform action = .ok { predicates with scopes := outer } := by
  rcases predicates with ⟨occupied, scopes, loops⟩
  cases innermost
  rcases closes with rfl | rfl <;> rfl

theorem loopEnd_eq {loop : Loop} {outer : List Loop}
    (innermost : predicates.loops = loop :: outer) :
    predicates.perform .loopEnd = .ok { predicates with loops := outer } := by
  rcases predicates with ⟨occupied, scopes, loops⟩
  cases innermost
  rfl

end Closing

/-- The bits of a lane in the loop at a height, and among the parked lanes of that loop. -/
def laneBits (predicates : Predicates) (height : Nat) (lane : Lane) : Bool × Bool :=
  ((level (predicates.entries .loop) height).get lane,
    (level (predicates.entries .parked) height).get lane)

/-- The bits of a loop are found above the loops around it. -/
theorem laneBits_eq {inner outer : List Loop} {loop : Loop}
    (placed : predicates.loops = inner ++ loop :: outer) :
    predicates.laneBits (outer.length + 1) lane =
      (loop.running.get lane, loop.parked.get lane) := by
  have found : ∀ entry : Loop → Mask,
      level (predicates.loopChain.map entry) (outer.length + 1) = entry loop := by
    intro entry
    have chain : predicates.loopChain.map entry =
        inner.map entry ++ entry loop :: (outer.map entry ++ [entry ⟨.all, .none⟩]) := by
      rw [loopChain, placed]
      simp
    have height : outer.length + 1 =
        (outer.map entry ++ [entry ⟨.all, .none⟩]).length := by
      simp
    rw [chain, height, level_above]
  rw [laneBits, entries_loop, entries_parked, found, found]

/-- What holds of a loop at a moment at which it has not been closed yet. -/
structure LoopHeld (before opened : Predicates) (actions : List Action) : Prop where
  /-- The masks of the loop show the states that the operations drive its lanes to. -/
  states : ∀ lane, (opened.attemptAll actions).laneBits (before.loops.length + 1) lane =
    (drive lane (before.loops.length + 1) opened actions
      (.begin (before.running.get lane))).bits
  /-- A lane that was out of the loop earlier has not come back. -/
  departed : ∀ early lane, early <+: actions →
    (opened.attemptAll early).laneBits (before.loops.length + 1) lane = (false, false) →
      (opened.attemptAll actions).laneBits (before.loops.length + 1) lane = (false, false)
  /-- The loops around it are as they were. -/
  around : before.entries .loop <:+ (opened.attemptAll actions).entries .loop ∧
    before.entries .parked <:+ (opened.attemptAll actions).entries .parked
  /-- To close it, when it is innermost, restores both stacks. -/
  closed : (opened.attemptAll actions).loops.length = before.loops.length + 1 →
    ∃ after, (opened.attemptAll actions).perform .loopEnd = .ok after ∧
      after.entries .loop = before.entries .loop ∧
      after.entries .parked = before.entries .parked

/-- What holds of a scope at a moment at which it has not been closed yet. -/
structure ScopeHeld (before opened : Predicates) (actions : List Action) : Prop where
  /-- The scopes around it are as they were. -/
  around : before.entries .condition <:+ (opened.attemptAll actions).entries .condition ∧
    before.entries .mask <:+ (opened.attemptAll actions).entries .mask
  /-- To close it, when it is innermost, restores both stacks. -/
  closed : (opened.attemptAll actions).scopes.length = before.scopes.length + 1 →
    ∀ action, action = .maskPop ∨ action = .maskBlend →
      ∃ after, (opened.attemptAll actions).perform action = .ok after ∧
        after.entries .condition = before.entries .condition ∧
        after.entries .mask = before.entries .mask

section Held

variable {before opened : Predicates} {actions : List Action}

theorem states_of_begun (begun : before.perform .loopBegin = .ok opened)
    (above : opened.StaysAbove loops before.loops.length actions) (lane : Lane) :
    (opened.attemptAll actions).laneBits (before.loops.length + 1) lane =
      (drive lane (before.loops.length + 1) opened actions
        (.begin (before.running.get lane))).bits := by
  have innermost : opened.loops = [] ++ ⟨before.running, .none⟩ :: before.loops := by
    rcases loopBegin_eq begun with rfl
    rfl
  obtain ⟨inner, loop, placed, shows⟩ :=
    drive_shows innermost (shows_begin before lane) above
  rw [laneBits_eq placed]
  exact shows

theorem loopHeld (begun : before.perform .loopBegin = .ok opened)
    (above : opened.StaysAbove loops before.loops.length actions) :
    LoopHeld before opened actions := by
  have below : before.loops <:+ (opened.attemptAll actions).loops := by
    refine kept_below moves_loops ?_ above
    rcases loopBegin_eq begun with rfl
    exact List.suffix_cons _ _
  refine ⟨states_of_begun begun above, ?_, ?_, ?_⟩
  · rintro early lane ⟨later, rfl⟩ left
    have earlier : opened.StaysAbove loops before.loops.length early :=
      fun first taken => above first (taken.trans (List.prefix_append early later))
    rw [states_of_begun begun earlier] at left
    rw [states_of_begun begun above, drive_append, eq_out_of_bits left, drive_out]
    rfl
  · rw [entries_loop, entries_loop, entries_parked, entries_parked]
    exact ⟨(loopChain_suffix below).map _, (loopChain_suffix below).map _⟩
  · intro innermost
    obtain ⟨loop, shape⟩ := exists_cons_of_suffix below innermost
    exact ⟨_, loopEnd_eq shape, rfl, rfl⟩

theorem scopeHeld {condition : Mask}
    (pushed : before.perform (.maskPush condition) = .ok opened)
    (above : opened.StaysAbove scopes before.scopes.length actions) :
    ScopeHeld before opened actions := by
  have below : before.scopes <:+ (opened.attemptAll actions).scopes := by
    refine kept_below moves_scopes ?_ above
    rcases maskPush_eq pushed with rfl
    exact List.suffix_cons _ _
  have occupied : (opened.attemptAll actions).occupied = before.occupied := by
    rw [occupied_attemptAll]
    rcases maskPush_eq pushed with rfl
    rfl
  constructor
  · have chain := scopeChain_suffix below occupied
    rw [entries_condition, entries_condition, entries_mask, entries_mask]
    exact ⟨chain.map _, chain.map _⟩
  · intro innermost action closes
    obtain ⟨scope, shape⟩ := exists_cons_of_suffix below innermost
    refine ⟨_, closeScope_eq closes shape, ?_, ?_⟩
    · simp only [entries, occupied]
    · simp only [entries, occupied]

end Held

/--
From the moment a loop has begun until it is closed, whatever operations are
tried, its masks show the states that its lanes are driven to, a lane that is
out stays out, and nothing around the loop changes.  Nothing around a scope
changes either.  To close the innermost one restores the stacks as they were
when it was opened.
-/
theorem loops_and_scopes_are_held (before opened : Predicates) (actions : List Action) :
    (before.perform .loopBegin = .ok opened →
      opened.StaysAbove loops before.loops.length actions →
        LoopHeld before opened actions) ∧
    ∀ condition, before.perform (.maskPush condition) = .ok opened →
      opened.StaysAbove scopes before.scopes.length actions →
        ScopeHeld before opened actions :=
  ⟨loopHeld, fun _ => scopeHeld⟩

/--
Three lanes run in a loop.  The first leaves it, the second waits for the next
round, the third goes through an inner loop that it leaves.
-/
def detour : List Action :=
  [.maskPush (.first 1), .loopBreak, .maskPop, .maskPush (.first 2), .loopContinue,
    .maskNegate, .loopBegin, .loopBreak, .loopNext, .loopEnd, .maskPop]

theorem loops_and_scopes_are_held_detour :
    ∃ opened after,
      (start 3).perform .loopBegin = .ok opened ∧
      ([0, 1, 2].map ((opened.attemptAll detour).laneBits 1) =
        [(false, false), (false, true), (true, false)]) ∧
      (opened.attemptAll detour).perform .loopEnd = .ok after ∧
      after.entries .loop = [.all] ∧ after.entries .parked = [.none] ∧
      ∃ inside outside,
        (start 3).perform (.maskPush (.first 1)) = .ok inside ∧
        (inside.attemptAll (detour ++ [.maskNegate])).perform .maskPop = .ok outside ∧
        outside.entries .condition = [.first 3] ∧ outside.entries .mask = [.first 3] := by
  have loop := (loops_and_scopes_are_held (start 3) _ detour).1 rfl (by decide)
  have scope := (loops_and_scopes_are_held (start 3) _ (detour ++ [.maskNegate])).2
    (.first 1) rfl (by decide)
  obtain ⟨after, ended, running, parked⟩ := loop.closed (by decide)
  obtain ⟨outside, popped, conditions, masks⟩ := scope.closed (by decide) _ (.inl rfl)
  refine ⟨_, after, rfl, ?_, ended, running, parked, _, outside, rfl, popped, conditions,
    masks⟩
  exact (List.map_congr_left fun lane _ => loop.states lane).trans (by decide)

end Predicates

end Lockstep
