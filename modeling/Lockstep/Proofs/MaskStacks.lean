import Lockstep.Proofs.Predication
import Lockstep.Proofs.Runs
import Mathlib.Data.List.Chain
import Mathlib.Logic.Function.Basic

/-!
# Four stacks of masks

Predicates keep a condition beside each mask and the parked lanes beside the
running ones.  The same masks can be kept on four stacks of their own, changed
in place one after the other: an operation then consists of halves, and an
operation that fails between its halves would leave the stacks out of step.
`MaskStacks.perform` is this way of working.

`MaskStacks.perform_at` says that the two ways agree, and in particular that no
operation ever fails halfway.  `mask_stacks_stay_in_order` adds what every
sequence of operations keeps: stacks in step and within their capacity, masks
that narrow from scope to scope, and loops whose running and parked lanes are
disjoint parts of the lanes that run around them.
-/

namespace Lockstep

/-! ## Attempts -/

namespace Predicates

/-- The predicates after an operation has been tried; a failure changes nothing. -/
def attempt (predicates : Predicates) (action : Action) : Predicates :=
  match predicates.perform action with
  | .ok after => after
  | .error _ => predicates

/-- The predicates after some operations have been tried in order. -/
def attemptAll (predicates : Predicates) (actions : List Action) : Predicates :=
  actions.foldl attempt predicates

theorem attemptAll_cons (predicates : Predicates) (action : Action)
    (actions : List Action) :
    predicates.attemptAll (action :: actions) =
      (predicates.attempt action).attemptAll actions :=
  rfl

/-- What every successful operation keeps is kept by trying one. -/
theorem attempt_keeps {holds : Predicates → Prop} {predicates : Predicates}
    {action : Action} (initially : holds predicates)
    (kept : ∀ after, predicates.perform action = .ok after → holds after) :
    holds (predicates.attempt action) := by
  unfold attempt
  cases performed : predicates.perform action with
  | ok after =>
      exact kept after performed
  | error failure =>
      exact initially

/-- What every successful operation keeps is kept by trying any number of them. -/
theorem attemptAll_keeps {holds : Predicates → Prop} {predicates : Predicates}
    (actions : List Action) (initially : holds predicates)
    (kept : ∀ before action after, holds before →
      before.perform action = .ok after → holds after) :
    holds (predicates.attemptAll actions) := by
  induction actions generalizing predicates with
  | nil =>
      exact initially
  | cons action actions induction =>
      exact induction (attempt_keeps initially fun after =>
        kept predicates action after initially)

end Predicates

/-! ## Stacks that are changed in place -/

/-- Four stacks of masks, each with its permanent entry last. -/
abbrev MaskStacks : Type := MaskStack → List Mask

namespace MaskStacks

/--
A change of the stacks that may fail halfway: what it has done to them by then
stays done.
-/
abbrev Change (α : Type) : Type := Session MaskStacks α

/-- The innermost entry of a stack. -/
def top (stack : MaskStack) : Change Mask := do
  return ((← get) stack).headD .none

/-- Refuse to go on if a stack holds only its permanent entry. -/
def require (stack : MaskStack) : Change Unit := do
  if ((← get) stack).length ≤ 1 then
    throw (.fault (.bytecode (.noScope stack)))

/-- The entry around the innermost one. -/
def around (stack : MaskStack) : Change Mask := do
  require stack
  return ((← get) stack).getD 1 .none

/-- Put an entry on a stack. -/
def push (stack : MaskStack) (entry : Mask) : Change Unit := do
  if ((← get) stack).length = predicateCapacity then
    throw (.fault (.capacity (.scopes stack)))
  modify fun masks => Function.update masks stack (entry :: masks stack)

/-- Take the innermost entry off a stack. -/
def pop (stack : MaskStack) : Change Mask := do
  require stack
  let entry ← top stack
  modify fun masks => Function.update masks stack (masks stack).tail
  return entry

/-- Change the innermost entry of a stack in place. -/
def replace (stack : MaskStack) (entry : Mask) : Change Unit :=
  modify fun masks => Function.update masks stack (entry :: (masks stack).tail)

/-- The lanes whose side effects count. -/
def live : Change Mask := do
  return (← top .mask).both (← top .loop)

/-- Put an entry on each of two stacks. -/
def pushPair (first second : MaskStack) (entry other : Mask) : Change Unit := do
  push first entry
  push second other

/-- Take an entry off each of two stacks, and give the first of them. -/
def popPair (first second : MaskStack) : Change Mask := do
  let entry ← pop first
  let _ ← pop second
  return entry

/-- Carry out an operation on one stack after the other. -/
def perform : Predicates.Action → Change Unit
  | .maskPush condition => do
      let outer ← top .mask
      pushPair .condition .mask condition (outer.both condition)
  | .maskPop => do
      let _ ← popPair .condition .mask
  | .maskNegate => do
      let outer ← around .mask
      let condition ← top .condition
      replace .mask (outer.both condition.complement)
  | .maskBlend => do
      let _ ← popPair .condition .mask
  | .loopBegin => do
      let outer ← top .loop
      pushPair .parked .loop .none outer
  | .loopNext => do
      require .loop
      let waiting ← top .parked
      replace .parked .none
      replace .loop ((← top .loop).either waiting)
  | .loopMask keep => do
      require .loop
      replace .loop ((← top .loop).both keep)
  | .loopEnd => do
      let _ ← popPair .parked .loop
  | .loopBreak => do
      require .loop
      let leaving ← live
      replace .loop ((← top .loop).both leaving.complement)
  | .loopContinue => do
      require .loop
      let waiting ← live
      replace .parked ((← top .parked).either waiting)
      replace .loop ((← top .loop).both waiting.complement)

/-- The stacks after some operations; one that fails leaves what it has done. -/
def performAll (masks : MaskStacks) (actions : List Predicates.Action) : MaskStacks :=
  actions.foldl (fun reached action => ((perform action).at reached).2) masks

/-! ## Changes in step -/

section Changes

variable {masks : MaskStacks} {stack first second : MaskStack} {entry other : Mask}

theorem top_at : (top stack).at masks = (.ok ((masks stack).headD .none), masks) :=
  rfl

theorem require_at :
    (require stack).at masks =
      (if (masks stack).length ≤ 1 then
        .error (.fault (.bytecode (.noScope stack))) else .ok (), masks) := by
  change (if (masks stack).length ≤ 1 then _ else _ : Change Unit).at masks = _
  split <;> rfl

theorem push_at :
    (push stack entry).at masks =
      if (masks stack).length = predicateCapacity then
        (.error (.fault (.capacity (.scopes stack))), masks)
      else (.ok (), Function.update masks stack (entry :: masks stack)) := by
  change (if (masks stack).length = predicateCapacity then _ else _ :
    Change Unit).at masks = _
  split <;> rfl

theorem pop_at :
    (pop stack).at masks =
      if (masks stack).length ≤ 1 then
        (.error (.fault (.bytecode (.noScope stack))), masks)
      else
        (.ok ((masks stack).headD .none),
          Function.update masks stack (masks stack).tail) := by
  unfold pop
  rw [Session.at_bind, require_at]
  by_cases closed : (masks stack).length ≤ 1
  · rw [if_pos closed, if_pos closed]
  · rw [if_neg closed, if_neg closed]
    rfl

/-- Two stacks in step take an entry both or neither. -/
theorem pushPair_at (different : second ≠ first)
    (inStep : (masks second).length = (masks first).length) :
    (pushPair first second entry other).at masks =
      if (masks first).length = predicateCapacity then
        (.error (.fault (.capacity (.scopes first))), masks)
      else
        (.ok (), Function.update (Function.update masks first (entry :: masks first))
          second (other :: masks second)) := by
  unfold pushPair
  rw [Session.at_bind, push_at]
  by_cases full : (masks first).length = predicateCapacity
  · rw [if_pos full, if_pos full]
  · rw [if_neg full, if_neg full]
    dsimp only
    rw [push_at, Function.update_of_ne different, if_neg (inStep ▸ full)]

/-- Two stacks in step give an entry both or neither. -/
theorem popPair_at (different : second ≠ first)
    (inStep : (masks second).length = (masks first).length) :
    (popPair first second).at masks =
      if (masks first).length ≤ 1 then
        (.error (.fault (.bytecode (.noScope first))), masks)
      else
        (.ok ((masks first).headD .none),
          Function.update (Function.update masks first (masks first).tail)
            second (masks second).tail) := by
  unfold popPair
  rw [Session.at_bind, pop_at]
  by_cases closed : (masks first).length ≤ 1
  · rw [if_pos closed, if_pos closed]
  · rw [if_neg closed, if_neg closed]
    dsimp only
    rw [Session.at_bind, pop_at, Function.update_of_ne different,
      if_neg (inStep ▸ closed)]
    rfl

end Changes

end MaskStacks

/-! ## Both ways agree -/

namespace Predicates

/-- What carrying out an operation comes to, failed or not, on the four stacks. -/
def outcome (predicates : Predicates) (action : Action) :
    Except Failure Unit × MaskStacks :=
  match predicates.perform action with
  | .ok after => (.ok (), after.entries)
  | .error failure => (.error failure, predicates.entries)

section Agreement

variable {predicates : Predicates}

theorem headD_mask : (predicates.entries .mask).headD .none = predicates.mask := by
  rcases predicates with ⟨occupied, _ | ⟨scope, outer⟩, loops⟩ <;> rfl

theorem headD_loop : (predicates.entries .loop).headD .none = predicates.running := by
  rcases predicates with ⟨occupied, scopes, _ | ⟨loop, outer⟩⟩ <;> rfl

theorem maskPush_at (sound : predicates.Sound) (condition : Mask) :
    (MaskStacks.perform (.maskPush condition)).at predicates.entries =
      predicates.outcome (.maskPush condition) := by
  have bound := sound.scopes
  unfold MaskStacks.perform
  rw [Session.at_bind, MaskStacks.top_at, headD_mask]
  dsimp only
  rw [MaskStacks.pushPair_at (by decide) (by simp [entries])]
  unfold outcome perform maskPush checkRoom
  by_cases room : predicates.scopes.length + 1 < predicateCapacity
  · rw [if_neg (by simp [entries]; omega), if_pos room]
    refine congrArg (Prod.mk _) ?_
    funext stack
    cases stack <;> rfl
  · rw [if_pos (by simp [entries]; omega), if_neg room]
    rfl

theorem loopBegin_at (sound : predicates.Sound) :
    (MaskStacks.perform .loopBegin).at predicates.entries =
      predicates.outcome .loopBegin := by
  have bound := sound.loops
  unfold MaskStacks.perform
  rw [Session.at_bind, MaskStacks.top_at, headD_loop]
  dsimp only
  rw [MaskStacks.pushPair_at (by decide) (by simp [entries])]
  unfold outcome perform loopBegin checkRoom
  by_cases room : predicates.loops.length + 1 < predicateCapacity
  · rw [if_neg (by simp [entries]; omega), if_pos room]
    refine congrArg (Prod.mk _) ?_
    funext stack
    cases stack <;> rfl
  · rw [if_pos (by simp [entries]; omega), if_neg room]
    rfl

/-- Closing a scope takes its condition and its mask off their stacks. -/
theorem popScope_at :
    (MaskStacks.popPair .condition .mask).at predicates.entries =
      match predicates.maskBlend with
      | .ok (condition, after) => (.ok condition, after.entries)
      | .error failure => (.error failure, predicates.entries) := by
  rcases predicates with ⟨occupied, _ | ⟨scope, outer⟩, loops⟩
  · rfl
  · rw [MaskStacks.popPair_at (by decide) (by simp [entries]),
      if_neg (by simp [entries])]
    refine congrArg (Prod.mk _) ?_
    funext stack
    cases stack <;> rfl

/-- Closing a loop takes its lanes off their stacks. -/
theorem popLoop_at :
    (MaskStacks.perform .loopEnd).at predicates.entries =
      predicates.outcome .loopEnd := by
  change (MaskStacks.popPair .parked .loop >>= fun _ => pure ()).at _ = _
  rcases predicates with ⟨occupied, scopes, _ | ⟨loop, outer⟩⟩
  · rfl
  · rw [Session.at_bind, MaskStacks.popPair_at (by decide) (by simp [entries]),
      if_neg (by simp [entries])]
    refine congrArg (Prod.mk _) ?_
    funext stack
    cases stack <;> rfl

theorem maskNegate_at :
    (MaskStacks.perform .maskNegate).at predicates.entries =
      predicates.outcome .maskNegate := by
  rcases predicates with ⟨occupied, _ | ⟨scope, outer⟩, loops⟩
  · rfl
  · change (MaskStacks.around .mask >>= _).at _ = _
    unfold MaskStacks.around
    rw [Session.at_bind, Session.at_bind, MaskStacks.require_at,
      if_neg (by simp [entries])]
    refine congrArg (Prod.mk _) ?_
    funext stack
    cases stack with
    | mask =>
        cases outer <;> rfl
    | _ =>
        rfl

/-- An operation on the innermost loop goes through if there is one. -/
theorem requireLoop_at {change : MaskStacks.Change Unit} {after : Predicates}
    (some : predicates.loops ≠ [])
    (changed : change.at predicates.entries = (.ok (), after.entries)) :
    (MaskStacks.require .loop >>= fun _ => change).at predicates.entries =
      (.ok (), after.entries) := by
  have opened : ¬ (predicates.entries .loop).length ≤ 1 := by
    simpa [entries] using some
  rw [Session.at_bind, MaskStacks.require_at, if_neg opened]
  exact changed

/-- On four stacks or one after the other, an operation comes to the same. -/
theorem perform_at (sound : predicates.Sound) (action : Action) :
    (MaskStacks.perform action).at predicates.entries = predicates.outcome action := by
  cases action with
  | maskPush condition =>
      exact maskPush_at sound condition
  | maskPop =>
      change (MaskStacks.popPair .condition .mask >>= fun _ => pure ()).at _ = _
      rw [Session.at_bind, popScope_at]
      rcases predicates with ⟨occupied, _ | ⟨scope, outer⟩, loops⟩ <;> rfl
  | maskNegate =>
      exact maskNegate_at
  | maskBlend =>
      change (MaskStacks.popPair .condition .mask >>= fun _ => pure ()).at _ = _
      rw [Session.at_bind, popScope_at]
      rcases predicates with ⟨occupied, _ | ⟨scope, outer⟩, loops⟩ <;> rfl
  | loopBegin =>
      exact loopBegin_at sound
  | loopEnd =>
      exact popLoop_at
  | loopNext | loopMask | loopBreak | loopContinue =>
      rcases predicates with ⟨occupied, scopes, _ | ⟨loop, outer⟩⟩
      · rfl
      · refine requireLoop_at (List.cons_ne_nil loop outer) ?_
        refine congrArg (Prod.mk _) ?_
        funext stack
        cases stack with
        | loop => cases scopes <;> rfl
        | parked => cases scopes <;> rfl
        | _ => rfl

end Agreement

end Predicates

/-! ## Order -/

/-- A scope lets lanes of the scope around it run: those of its condition, or the others. -/
def Scope.Narrows (inner outer : Scope) : Prop :=
  inner.mask = outer.mask.both inner.condition ∨
    inner.mask = outer.mask.both inner.condition.complement

/-- The running and the parked lanes of a loop are disjoint parts of those around it. -/
structure Loop.Divides (inner outer : Loop) : Prop where
  running : inner.running.Within outer.running
  parked : inner.parked.Within outer.running
  disjoint : ∀ lane, inner.running.get lane = true → inner.parked.get lane = false

namespace Loop.Divides

variable {loop around : Loop}

/-- A loop that begins. -/
theorem begun : Divides ⟨around.running, .none⟩ around where
  running := .refl _
  parked lane waits := by
    rw [Lanes.get_none] at waits
    cases waits
  disjoint lane _ := Lanes.get_none lane

/-- A loop that lanes leave. -/
theorem narrowed (divides : loop.Divides around) (keep : Mask) :
    Divides { loop with running := loop.running.both keep } around where
  running := (Lanes.Within.both_left _ _).trans divides.running
  parked := divides.parked
  disjoint lane runs := divides.disjoint lane (Lanes.Within.both_left _ _ lane runs)

/-- A loop whose next round starts. -/
theorem resumed (divides : loop.Divides around) :
    Divides ⟨loop.running.either loop.parked, .none⟩ around where
  running := divides.running.either divides.parked
  parked := begun.parked
  disjoint lane _ := Lanes.get_none lane

/-- A loop some of whose running lanes wait for the next round. -/
theorem waiting (divides : loop.Divides around) {live : Mask}
    (within : live.Within loop.running) :
    Divides ⟨loop.running.both live.complement, loop.parked.either live⟩ around where
  running := (Lanes.Within.both_left _ _).trans divides.running
  parked := divides.parked.either (within.trans divides.running)
  disjoint lane runs := by
    rw [Lanes.get_both, Lanes.get_complement, Bool.and_eq_true, Bool.not_eq_true'] at runs
    rw [Lanes.get_either, divides.disjoint lane runs.1, runs.2]
    rfl

end Loop.Divides

namespace Predicates

/-- The open scopes and, around them, the lanes that hold elements. -/
def scopeChain (predicates : Predicates) : List Scope :=
  predicates.scopes ++ [⟨predicates.occupied, predicates.occupied⟩]

/-- The open loops and, around them, all lanes. -/
def loopChain (predicates : Predicates) : List Loop :=
  predicates.loops ++ [⟨.all, .none⟩]

section Entries

variable {predicates : Predicates}

theorem entries_condition :
    predicates.entries .condition = predicates.scopeChain.map Scope.condition := by
  simp [entries, scopeChain]

theorem entries_mask :
    predicates.entries .mask = predicates.scopeChain.map Scope.mask := by
  simp [entries, scopeChain]

theorem entries_loop :
    predicates.entries .loop = predicates.loopChain.map Loop.running := by
  simp [entries, loopChain]

theorem entries_parked :
    predicates.entries .parked = predicates.loopChain.map Loop.parked := by
  simp [entries, loopChain]

end Entries

/-- Scopes narrow and loops divide what is around them. -/
structure Nested (predicates : Predicates) : Prop where
  scopes : predicates.scopeChain.IsChain Scope.Narrows
  loops : predicates.loopChain.IsChain Loop.Divides

theorem nested_start (lanes : Nat) : (start lanes).Nested :=
  ⟨.singleton _, .singleton _⟩

section Nesting

variable {predicates after : Predicates}

theorem mask_of_head {scope : Scope} (head : scope ∈ predicates.scopeChain.head?) :
    scope.mask = predicates.mask := by
  rcases predicates with ⟨occupied, _ | ⟨innermost, outer⟩, loops⟩ <;> cases head <;> rfl

theorem running_of_head {loop : Loop} (head : loop ∈ predicates.loopChain.head?) :
    loop.running = predicates.running := by
  rcases predicates with ⟨occupied, scopes, _ | ⟨innermost, outer⟩⟩ <;> cases head <;> rfl

/-- Only lanes that run in the innermost loop are live. -/
theorem live_within : predicates.live.Within predicates.running := by
  intro lane counts
  rw [live, Lanes.get_both, Bool.and_eq_true] at counts
  exact counts.2

/-- Without their innermost scope, predicates are nested as before. -/
theorem Nested.closeScope {scope : Scope} {outer : List Scope}
    (nested : predicates.Nested) (shape : predicates.scopes = scope :: outer) :
    Nested { predicates with scopes := outer } := by
  have chain := nested.scopes
  rw [scopeChain, shape] at chain
  exact ⟨chain.tail, nested.loops⟩

/-- A change of the innermost loop that divides what the loop divided. -/
theorem Nested.changeLoop {loop changed : Loop} {outer : List Loop}
    (nested : predicates.Nested) (shape : predicates.loops = loop :: outer)
    (divides : ∀ around, loop.Divides around → changed.Divides around) :
    Nested { predicates with loops := changed :: outer } := by
  have chain := nested.loops
  rw [loopChain, shape] at chain
  exact ⟨nested.scopes, chain.tail.cons fun around head =>
    divides around (chain.rel_head? head)⟩

/-- Every operation keeps predicates nested. -/
theorem Nested.perform (nested : predicates.Nested) {action : Action}
    (performed : predicates.perform action = .ok after) : after.Nested := by
  cases action with
  | maskPush condition =>
      rcases maskPush_eq performed with rfl
      refine ⟨nested.scopes.cons fun outer head => Or.inl ?_, nested.loops⟩
      rw [mask_of_head head]
  | maskPop | maskBlend =>
      obtain ⟨scope, outer, shape, rfl⟩ := perform_onScopes rfl performed
      exact nested.closeScope shape
  | maskNegate =>
      obtain ⟨scope, outer, shape, rfl⟩ := perform_onScopes rfl performed
      have closed := nested.closeScope shape
      refine ⟨closed.scopes.cons fun around head => Or.inr ?_, nested.loops⟩
      rw [mask_of_head head]
      rfl
  | loopBegin =>
      rcases loopBegin_eq performed with rfl
      refine ⟨nested.scopes, nested.loops.cons fun around head => ?_⟩
      rw [← running_of_head head]
      exact .begun
  | loopEnd =>
      obtain ⟨loop, outer, shape, rfl⟩ := perform_onLoops rfl performed
      have chain := nested.loops
      rw [loopChain, shape] at chain
      exact ⟨nested.scopes, chain.tail⟩
  | loopNext =>
      obtain ⟨loop, outer, shape, rfl⟩ := perform_onLoops rfl performed
      exact nested.changeLoop shape fun _ divides => divides.resumed
  | loopMask keep =>
      obtain ⟨loop, outer, shape, rfl⟩ := perform_onLoops rfl performed
      exact nested.changeLoop shape fun _ divides => divides.narrowed _
  | loopBreak =>
      obtain ⟨loop, outer, shape, rfl⟩ := perform_onLoops rfl performed
      exact nested.changeLoop shape fun _ divides => divides.narrowed _
  | loopContinue =>
      obtain ⟨loop, outer, shape, rfl⟩ := perform_onLoops rfl performed
      have within : predicates.live.Within loop.running := by
        have runs : predicates.running = loop.running := by
          rw [running, shape, runningWithin]
        exact runs ▸ live_within
      exact nested.changeLoop shape fun _ divides => divides.waiting within

end Nesting

end Predicates

/-! ## Heights -/

/-- The entry of a stack at a height; its permanent entry has height zero. -/
def level (entries : List Mask) (height : Nat) : Mask :=
  entries.reverse.getD height .none

theorem level_map {α : Type} (entry : α → Mask) {chain : List α} {height : Nat}
    (inside : height < chain.reverse.length) :
    level (chain.map entry) height = entry chain.reverse[height] := by
  rw [level, ← List.map_reverse, List.getD_eq_getElem?_getD, List.getElem?_map,
    List.getElem?_eq_getElem inside]
  rfl

/-- An entry is found above all that lie below it. -/
theorem level_above (inner : List Mask) (entry : Mask) (below : List Mask) :
    level (inner ++ entry :: below) below.length = entry := by
  rw [level, List.reverse_append, List.reverse_cons, List.append_assoc,
    ← List.length_reverse, List.getD_eq_getElem?_getD, List.getElem?_append_right
      (Nat.le_refl _), Nat.sub_self]
  rfl

/-- Neighbours of a chain are related from each height to the next. -/
theorem rel_of_isChain {α : Type} {related : α → α → Prop} {chain : List α}
    (linked : chain.IsChain related) {height : Nat}
    (inside : height + 1 < chain.reverse.length) :
    related chain.reverse[height + 1] chain.reverse[height] :=
  List.isChain_iff_getElem.mp (List.isChain_reverse.mpr linked) height inside

namespace MaskStacks

/-- Four stacks in step, within their capacity, whose entries are nested. -/
structure Ordered (lanes : Nat) (masks : MaskStacks) : Prop where
  scopesInStep : (masks .condition).length = (masks .mask).length
  loopsInStep : (masks .loop).length = (masks .parked).length
  bounded : ∀ stack, 1 ≤ (masks stack).length ∧ (masks stack).length ≤ 16
  /-- Outside every scope the lanes that hold elements run. -/
  occupied : level (masks .mask) 0 = .first lanes
  /-- A mask is the mask below it, restricted to its condition or to the other lanes. -/
  narrowed : ∀ height, height + 1 < (masks .mask).length →
    level (masks .mask) (height + 1) =
        (level (masks .mask) height).both (level (masks .condition) (height + 1)) ∨
      level (masks .mask) (height + 1) =
        (level (masks .mask) height).both
          (level (masks .condition) (height + 1)).complement
  /-- Outside every loop all lanes run and none waits. -/
  unheld : level (masks .loop) 0 = .all ∧ level (masks .parked) 0 = .none
  /-- Running and parked lanes are disjoint parts of the lanes running below. -/
  divided : ∀ height, height + 1 < (masks .loop).length →
    (level (masks .loop) (height + 1)).Within (level (masks .loop) height) ∧
      (level (masks .parked) (height + 1)).Within (level (masks .loop) height) ∧
      ∀ lane, (level (masks .loop) (height + 1)).get lane = true →
        (level (masks .parked) (height + 1)).get lane = false

end MaskStacks

namespace Predicates

variable {predicates : Predicates}

theorem Nested.ordered (nested : predicates.Nested) (sound : predicates.Sound)
    {lanes : Nat} (occupied : predicates.occupied = .first lanes) :
    MaskStacks.Ordered lanes predicates.entries := by
  constructor
  · rw [entries_condition, entries_mask, List.length_map, List.length_map]
  · rw [entries_loop, entries_parked, List.length_map, List.length_map]
  · exact sound.length_entries
  · simp [level, entries, occupied]
  · rw [entries_condition, entries_mask, List.length_map]
    intro height inside
    rw [← List.length_reverse] at inside
    rw [level_map _ inside, level_map _ inside, level_map _ (Nat.lt_of_succ_lt inside)]
    exact rel_of_isChain nested.scopes inside
  · simp [level, entries]
  · rw [entries_loop, entries_parked, List.length_map]
    intro height inside
    rw [← List.length_reverse] at inside
    rw [level_map _ inside, level_map _ inside, level_map _ (Nat.lt_of_succ_lt inside)]
    have divides := rel_of_isChain nested.loops inside
    exact ⟨divides.running, divides.parked, divides.disjoint⟩

/-- What holds of the predicates that any operations lead to from the start. -/
theorem attemptAll_start (lanes : Nat) (actions : List Action) :
    ((start lanes).attemptAll actions).Sound ∧
      ((start lanes).attemptAll actions).Nested ∧
      ((start lanes).attemptAll actions).occupied = .first lanes := by
  refine @attemptAll_keeps (fun reached =>
    reached.Sound ∧ reached.Nested ∧ reached.occupied = .first lanes) _ actions
      ⟨sound_start lanes, nested_start lanes, rfl⟩ ?_
  rintro before action after ⟨sound, nested, occupied⟩ performed
  have kept := (perform_yields sound action).of_ok performed
  exact ⟨kept.1, nested.perform performed, kept.2.trans occupied⟩

/-- Operations on four stacks lead where the operations on predicates lead. -/
theorem performAll_entries (sound : predicates.Sound) (actions : List Action) :
    MaskStacks.performAll predicates.entries actions =
      (predicates.attemptAll actions).entries := by
  induction actions generalizing predicates with
  | nil =>
      rfl
  | cons action actions induction =>
      have next : ((MaskStacks.perform action).at predicates.entries).2 =
          (predicates.attempt action).entries := by
        rw [perform_at sound, outcome, attempt]
        cases predicates.perform action <;> rfl
      have kept : (predicates.attempt action).Sound :=
        attempt_keeps sound fun after performed =>
          ((perform_yields sound action).of_ok performed).1
      rw [attemptAll_cons, ← induction kept, ← next]
      rfl

/--
Whatever operations are carried out on the four stacks, in whatever order and
whether or not they succeed, the stacks are those of the predicates and stay in
order; and an operation that fails leaves all of them as they were.
-/
theorem mask_stacks_stay_in_order (lanes : Nat) (actions : List Action) :
    let reached := MaskStacks.performAll (start lanes).entries actions
    reached = ((start lanes).attemptAll actions).entries ∧
      reached.Ordered lanes ∧
      (∀ action, (MaskStacks.perform action).at reached =
        ((start lanes).attemptAll actions).outcome action) ∧
      ∀ action failure later,
        (MaskStacks.perform action).at reached = (.error failure, later) →
          later = reached := by
  intro reached
  obtain ⟨sound, nested, occupied⟩ := attemptAll_start lanes actions
  have same : reached = ((start lanes).attemptAll actions).entries :=
    performAll_entries (sound_start lanes) actions
  rw [same]
  refine ⟨rfl, nested.ordered sound occupied, perform_at sound, ?_⟩
  intro action failure later failed
  rw [perform_at sound, outcome] at failed
  split at failed
  · cases failed
  · cases failed
    rfl

/-- Closing a loop that was never opened leaves a scope and all stacks as they are. -/
theorem mask_stacks_stay_in_order_unopened :
    let reached := MaskStacks.performAll (start 3).entries
      [.maskPush (.first 2), .loopBegin, .loopContinue, .maskNegate, .loopEnd]
    level (reached .mask) 1 = (Lanes.first 3).both (Lanes.first 2).complement ∧
      reached.Ordered 3 ∧
      (MaskStacks.perform .loopEnd).at reached =
        (.error (.fault (.bytecode (.noScope .parked))), reached) := by
  intro reached
  obtain ⟨same, ordered, agrees, unchanged⟩ := mask_stacks_stay_in_order 3
    [.maskPush (.first 2), .loopBegin, .loopContinue, .maskNegate, .loopEnd]
  have failed : ((MaskStacks.perform .loopEnd).at reached).1 =
      .error (.fault (.bytecode (.noScope .parked))) :=
    congrArg Prod.fst (agrees .loopEnd)
  refine ⟨?_, ordered, Prod.ext failed ?_⟩
  · exact congrArg (fun masks => level (masks .mask) 1) same
  · exact unchanged .loopEnd _ _ (Prod.ext failed rfl)

end Predicates

end Lockstep
