import Lockstep.Proofs.BlockSteps
import Lockstep.Proofs.Encoding
import Lockstep.Proofs.HostCalls

/-!
# Code that no lane runs

A branch that is taken if no lane is live leads past code that would have done
nothing.  The code has to be balanced: it runs straight on, it leaves the
operands below its own alone, and it neither closes nor changes a scope or a
loop that was open before, other than by letting live lanes leave a loop.
`Balanced` says so of the instructions alone.

While such code runs without a live lane, the machine hovers above the place
where it began: `Machine.Hovers` says how high its operands and predicates
stand, and that everything below is as it was.  In particular no lane becomes
live, since masks only narrow inwards.  `Machine.Hovers.step` is the account of
a step and `Machine.Hovers.sweeps` that of the whole code.
-/

namespace Lockstep

variable {σ : Type}

/-! ## Balanced code -/

/-- How many scopes and loops have been opened since some code began. -/
structure Depth where
  scopes : Nat
  loops : Nat
deriving DecidableEq

namespace Instruction

/-- Whether an instruction neither branches nor returns. -/
def onward : Instruction → Bool
  | .branch _ => false
  | .branchIfAllFalse _ => false
  | .ret _ => false
  | _ => true

/-- The number of operands after an instruction that uses only these. -/
def height? (height : Nat) (instruction : Instruction) : Option Nat :=
  if instruction.taken ≤ height then
    some (height - instruction.taken + instruction.given)
  else none

/-- The depth after an instruction that closes and changes only these scopes and loops. -/
def depth? (depth : Depth) : Instruction → Option Depth
  | .maskPush => some ⟨depth.scopes + 1, depth.loops⟩
  | .maskPop =>
      if 0 < depth.scopes then some ⟨depth.scopes - 1, depth.loops⟩ else none
  | .maskBlend _ =>
      if 0 < depth.scopes then some ⟨depth.scopes - 1, depth.loops⟩ else none
  | .maskNegate => if 0 < depth.scopes then some depth else none
  | .loopBegin => some ⟨depth.scopes, depth.loops + 1⟩
  | .loopEnd => if 0 < depth.loops then some ⟨depth.scopes, depth.loops - 1⟩ else none
  | .loopNext => if 0 < depth.loops then some depth else none
  | .loopMask => if 0 < depth.loops then some depth else none
  | _ => some depth

theorem target?_of_onward {instruction : Instruction} (onward : instruction.onward = true) :
    instruction.target? = none := by
  cases instruction with
  | branch | branchIfAllFalse =>
      cases onward
  | _ =>
      rfl

end Instruction

/--
Straight code that is begun with some operands, scopes and loops of its own and
ends with none of them, leaving alone all others.
-/
structure Balanced (height : Nat) (depth : Depth) (instructions : List Instruction) :
    Prop where
  onward : ∀ instruction ∈ instructions, instruction.onward = true
  operands : instructions.foldlM Instruction.height? height = some 0
  predicates : instructions.foldlM Instruction.depth? depth = some ⟨0, 0⟩

theorem Balanced.cons {height : Nat} {depth : Depth} {instruction : Instruction}
    {rest : List Instruction} (balanced : Balanced height depth (instruction :: rest)) :
    instruction.onward = true ∧
      ∃ higher deeper, instruction.height? height = some higher ∧
        instruction.depth? depth = some deeper ∧ Balanced higher deeper rest := by
  obtain ⟨onward, operands, predicates⟩ := balanced
  obtain ⟨straight, onward⟩ := List.forall_mem_cons.mp onward
  rw [List.foldlM_cons] at operands predicates
  obtain ⟨higher, rises, operands⟩ := Option.bind_eq_some_iff.mp operands
  obtain ⟨deeper, deepens, predicates⟩ := Option.bind_eq_some_iff.mp predicates
  exact ⟨straight, higher, deeper, rises, deepens, onward, operands, predicates⟩

/-- The code of a function has some instructions at an offset. -/
def Function.Contains (function : Function) (offset : Nat)
    (instructions : List Instruction) : Prop :=
  ∀ placed ∈ placeFrom offset instructions,
    function.Reads placed.offset placed.instruction

namespace Function.Contains

variable {function : Function} {offset : Nat} {instruction : Instruction}
variable {instructions : List Instruction}

theorem cons (contains : function.Contains offset (instruction :: instructions)) :
    function.Reads offset instruction ∧
      function.Contains (offset + instruction.width) instructions :=
  List.forall_mem_cons.mp contains

/-- The instructions end within the code. -/
theorem length_le (contains : function.Contains offset instructions)
    (inside : offset ≤ function.code.length) :
    offset + (instructions.flatMap Instruction.encode).length ≤ function.code.length := by
  induction instructions generalizing offset with
  | nil =>
      exact inside
  | cons instruction rest induction =>
      obtain ⟨reads, later⟩ := contains.cons
      have width := Instruction.width_le reads
      rw [List.length_drop] at width
      have bound := induction later (by omega)
      rw [List.flatMap_cons, List.length_append, ← Nat.add_assoc]
      exact bound

end Function.Contains

/-! ## Stacks that have grown -/

/-- A number of entries of some kind lie on top of others. -/
def Stacked {α : Type} (kind : α → Prop) (count : Nat) (below entries : List α) : Prop :=
  ∃ inner, entries = inner ++ below ∧ inner.length = count ∧ ∀ entry ∈ inner, kind entry

namespace Stacked

variable {α : Type} {kind : α → Prop} {count : Nat} {below entries : List α} {entry : α}

theorem refl (below : List α) : Stacked kind 0 below below :=
  ⟨[], rfl, rfl, fun _ member => absurd member List.not_mem_nil⟩

theorem push (stacked : Stacked kind count below entries) (holds : kind entry) :
    Stacked kind (count + 1) below (entry :: entries) := by
  obtain ⟨inner, rfl, counted, kinds⟩ := stacked
  exact ⟨entry :: inner, rfl, congrArg (· + 1) counted,
    List.forall_mem_cons.mpr ⟨holds, kinds⟩⟩

/-- The topmost entry of a stack that has grown is of the kind. -/
theorem pop (stacked : Stacked kind count below (entry :: entries))
    (positive : 0 < count) : kind entry ∧ Stacked kind (count - 1) below entries := by
  obtain ⟨_ | ⟨first, inner⟩, same, counted, kinds⟩ := stacked
  · exact absurd counted.symm (Nat.ne_of_gt positive)
  · obtain ⟨rfl, rfl⟩ := List.cons.inj same
    obtain ⟨holds, kinds⟩ := List.forall_mem_cons.mp kinds
    exact ⟨holds, inner, rfl, by rw [← counted]; rfl, kinds⟩

/-- The topmost entry of a stack that has grown can be changed within the kind. -/
theorem change {changed : α} (stacked : Stacked kind count below (entry :: entries))
    (positive : 0 < count) (holds : kind changed) :
    Stacked kind count below (changed :: entries) := by
  have pushed := (stacked.pop positive).2.push holds
  rwa [Nat.sub_add_cancel positive] at pushed

theorem eq_of_zero (stacked : Stacked kind 0 below entries) : entries = below := by
  obtain ⟨inner, rfl, counted, _⟩ := stacked
  rw [List.eq_nil_of_length_eq_zero counted]
  rfl

end Stacked

/-! ## Predicates above others -/

namespace Lanes

theorem get_of_idle {mask : Mask} (idle : mask.any = false) (lane : Lane) :
    mask.get lane = false := by
  cases inside : mask.get lane with
  | false =>
      rfl
  | true =>
      rw [(any_eq_true mask).mpr ⟨lane, inside⟩] at idle
      cases idle

/-- Taking no lane out of a mask. -/
theorem both_complement_of_idle {mask other : Mask} (idle : other.any = false) :
    mask.both other.complement = mask := by
  apply ext_get
  intro lane
  simp [get_of_idle idle lane]

/-- Adding no lane to a mask. -/
theorem either_of_idle {mask other : Mask} (idle : other.any = false) :
    mask.either other = mask := by
  apply ext_get
  intro lane
  simp [get_of_idle idle lane]

theorem Within.either_left (left right : Mask) : left.Within (left.either right) := by
  intro lane inside
  rw [get_either, inside, Bool.true_or]

end Lanes

namespace Predicates

/-- The scopes and loops of some predicates and, inside them, narrower ones. -/
structure Above (start : Predicates) (depth : Depth) (predicates : Predicates) : Prop where
  occupied : predicates.occupied = start.occupied
  scopes : Stacked (fun scope => scope.mask.Within start.mask) depth.scopes start.scopes
    predicates.scopes
  loops : Stacked
    (fun loop => loop.running.Within start.running ∧ loop.parked.Within start.running)
    depth.loops start.loops predicates.loops

namespace Above

variable {start predicates : Predicates} {depth : Depth}

theorem refl (start : Predicates) : start.Above ⟨0, 0⟩ start :=
  ⟨rfl, .refl _, .refl _⟩

theorem eq_of_zero (above : start.Above ⟨0, 0⟩ predicates) : predicates = start := by
  rcases predicates with ⟨occupied, scopes, loops⟩
  obtain ⟨rfl, scopes_eq, loops_eq⟩ := above
  rw [show scopes = start.scopes from scopes_eq.eq_of_zero,
    show loops = start.loops from loops_eq.eq_of_zero]

theorem maskWithin {scopes : List Scope} {count : Nat}
    (stacked : Stacked (fun scope => scope.mask.Within start.mask) count start.scopes
      scopes) : (Predicates.maskWithin start.occupied scopes).Within start.mask := by
  obtain ⟨_ | ⟨scope, inner⟩, rfl, _, kinds⟩ := stacked
  · exact .refl _
  · exact kinds scope List.mem_cons_self

theorem mask (above : start.Above depth predicates) :
    predicates.mask.Within start.mask := by
  unfold Predicates.mask
  rw [above.occupied]
  exact maskWithin above.scopes

theorem running (above : start.Above depth predicates) :
    predicates.running.Within start.running := by
  unfold Predicates.running
  obtain ⟨_ | ⟨loop, inner⟩, same, _, kinds⟩ := above.loops
  · rw [same]
    exact .refl _
  · rw [same]
    exact (kinds loop List.mem_cons_self).1

/-- Lanes only become fewer inwards. -/
theorem live (above : start.Above depth predicates) :
    predicates.live.Within start.live :=
  above.mask.both above.running

/-- Closing a scope that was opened inside. -/
theorem popped (above : start.Above depth predicates) {scope : Scope} {outer : List Scope}
    (nested : predicates.scopes = scope :: outer) (positive : 0 < depth.scopes) :
    start.Above ⟨depth.scopes - 1, depth.loops⟩ { predicates with scopes := outer } := by
  have scopes := above.scopes
  rw [nested] at scopes
  exact ⟨above.occupied, (scopes.pop positive).2, above.loops⟩

/-- The other lanes of a scope that was opened inside are those around it at most. -/
theorem negated (above : start.Above depth predicates) {scope : Scope}
    {outer : List Scope} (nested : predicates.scopes = scope :: outer)
    (positive : 0 < depth.scopes) (other : Mask) :
    start.Above depth { predicates with
      scopes := ⟨scope.condition,
        (Predicates.maskWithin predicates.occupied outer).both other⟩ :: outer } := by
  have scopes := above.scopes
  rw [nested] at scopes
  have around := maskWithin (scopes.pop positive).2
  rw [← above.occupied] at around
  exact ⟨above.occupied, scopes.change positive ((Lanes.Within.both_left _ _).trans around),
    above.loops⟩

/-- Closing a loop that was opened inside. -/
theorem ended (above : start.Above depth predicates) {loop : Loop} {outer : List Loop}
    (nested : predicates.loops = loop :: outer) (positive : 0 < depth.loops) :
    start.Above ⟨depth.scopes, depth.loops - 1⟩ { predicates with loops := outer } := by
  have loops := above.loops
  rw [nested] at loops
  exact ⟨above.occupied, above.scopes, (loops.pop positive).2⟩

/-- Changing a loop that was opened inside, for lanes that were in it. -/
theorem changed (above : start.Above depth predicates) {loop changed : Loop}
    {outer : List Loop} (nested : predicates.loops = loop :: outer)
    (positive : 0 < depth.loops)
    (running : changed.running.Within (loop.running.either loop.parked))
    (parked : changed.parked.Within loop.parked) :
    start.Above depth { predicates with loops := changed :: outer } := by
  have loops := above.loops
  rw [nested] at loops
  obtain ⟨wasRunning, wasParked⟩ := (loops.pop positive).1
  exact ⟨above.occupied, above.scopes, loops.change positive
    ⟨running.trans (wasRunning.either wasParked), parked.trans wasParked⟩⟩

end Above

end Predicates

/-- An instruction that keeps to its own scopes and loops leaves the others alone. -/
theorem Machine.Acted.above {program : Program} {start : Predicates}
    {machine after : Machine} {depth next : Depth} {instruction : Instruction}
    (acted : Acted program instruction machine after)
    (above : start.Above depth machine.predicates) (idle : machine.live.any = false)
    (deeper : instruction.depth? depth = some next) : start.Above next after.predicates := by
  cases instruction with
  | maskPush =>
      cases deeper
      rw [Predicates.maskPush_eq acted.predicates]
      exact ⟨above.occupied,
        above.scopes.push ((Lanes.Within.both_left _ _).trans above.mask), above.loops⟩
  | maskPop | maskBlend =>
      obtain ⟨positive, ⟨⟩⟩ := Option.ite_none_right_eq_some.mp deeper
      obtain ⟨scope, outer, nested, changed⟩ := acted.onScopes rfl rfl
      rw [changed]
      exact above.popped nested positive
  | maskNegate =>
      obtain ⟨positive, ⟨⟩⟩ := Option.ite_none_right_eq_some.mp deeper
      obtain ⟨scope, outer, nested, changed⟩ := acted.onScopes rfl rfl
      rw [changed]
      exact above.negated nested positive _
  | loopBegin =>
      cases deeper
      rw [Predicates.loopBegin_eq acted.predicates]
      exact ⟨above.occupied, above.scopes,
        above.loops.push ⟨above.running, fun lane inside => absurd inside (by simp)⟩⟩
  | loopEnd =>
      obtain ⟨positive, ⟨⟩⟩ := Option.ite_none_right_eq_some.mp deeper
      obtain ⟨loop, outer, nested, changed⟩ := acted.onLoops rfl rfl
      rw [changed]
      exact above.ended nested positive
  | loopNext =>
      obtain ⟨positive, ⟨⟩⟩ := Option.ite_none_right_eq_some.mp deeper
      obtain ⟨loop, outer, nested, changed⟩ := acted.onLoops rfl rfl
      rw [changed]
      exact above.changed nested positive (.refl _) fun lane inside => absurd inside (by simp)
  | loopMask =>
      obtain ⟨positive, ⟨⟩⟩ := Option.ite_none_right_eq_some.mp deeper
      obtain ⟨loop, outer, nested, changed⟩ := acted.onLoops rfl rfl
      rw [changed]
      refine above.changed nested positive ?_ (.refl _)
      exact (Lanes.Within.both_left _ _).trans (.either_left _ _)
  -- The loop may be one from before: it loses its live lanes, and there are none.
  | loopBreak =>
      cases deeper
      obtain ⟨loop, outer, nested, changed⟩ := acted.onLoops rfl rfl
      rw [changed, Lanes.both_complement_of_idle idle, ← nested]
      exact above
  | loopContinue =>
      cases deeper
      obtain ⟨loop, outer, nested, changed⟩ := acted.onLoops rfl rfl
      rw [changed, Lanes.both_complement_of_idle idle, Lanes.either_of_idle idle, ← nested]
      exact above
  | _ =>
      cases deeper
      rw [← Except.ok.inj acted.predicates]
      exact above

/-! ## Failures that concern no lane -/

/-- A failure that neither the host nor the values of a lane have caused. -/
structure Failure.Structural (failure : Failure) : Prop where
  arithmetic : failure.report.kind ≠ .arithmetic
  external : failure.report.kind ≠ .external
  bounds : ∀ cause, failure = .fault (.bounds cause) →
    ∃ opcode space slot count limit, cause = .slots opcode space slot count limit

theorem Failure.structural {failure : Failure} (domestic : failure.domestic = true)
    (unnamed : failure.lane? = none) : failure.Structural := by
  cases failure with
  | external error =>
      cases domestic
  | fault fault =>
      cases fault with
      | arithmetic opcode lane =>
          cases unnamed
      | bounds cause =>
          cases cause with
          | slots opcode space slot count limit =>
              refine ⟨Kind.noConfusion, Kind.noConfusion, ?_⟩
              rintro _ ⟨⟩
              exact ⟨_, _, _, _, _, rfl⟩
          | index | laneIndex =>
              cases unnamed
      | _ =>
          refine ⟨Kind.noConfusion, Kind.noConfusion, ?_⟩
          rintro _ ⟨⟩
  | _ =>
      refine ⟨Kind.noConfusion, Kind.noConfusion, ?_⟩
      rintro _ ⟨⟩

/-- Where nothing is due, the host is left alone. -/
theorem Consulted.of_nothing {α : Type} {externals : List (External σ)}
    {made : List JournalEntry} {host : σ} {reached : Except Failure α × σ}
    (consulted : Consulted externals [] host made reached) :
    made = [] ∧ reached.2 = host ∧
      ∀ failure, reached.1 = .error failure → failure.domestic = true := by
  cases consulted with
  | exchanged exchange =>
      cases exchange with
      | answered answers =>
          cases answers
          refine ⟨rfl, rfl, ?_⟩
          rintro _ ⟨⟩
      | refused order =>
          exact absurd order.symm
            (List.append_ne_nil_of_right_ne_nil _ (List.cons_ne_nil _ _))
  | failed domestic =>
      refine ⟨rfl, rfl, ?_⟩
      rintro _ ⟨⟩
      exact domestic

namespace Machine

variable {batch : Batch σ} {machine : Machine}

theorem due_of_idle (idle : machine.live.any = false) : machine.due batch = [] := by
  apply List.eq_nil_iff_forall_not_mem.mpr
  intro entry member
  obtain ⟨lane, live, _⟩ := element_of_due member
  rw [Lanes.get_of_idle idle lane] at live
  cases live

/-- A step without a live lane asks nothing of the host and fails in no lane. -/
theorem stepAt_idle (sound : machine.Sound batch.program) (idle : machine.live.any = false)
    (host : σ) :
    machine.stepRequests batch host = [] ∧ (machine.stepAt batch host).2 = host ∧
      ∀ failure, (machine.stepAt batch host).1 = .error failure → failure.Structural := by
  have consulted := (stepAt_consults sound host).2
  rw [due_of_idle idle] at consulted
  obtain ⟨silent, same, domestic⟩ := consulted.of_nothing
  refine ⟨silent, same, ?_⟩
  intro failure failed
  refine Failure.structural (domestic failure failed) ?_
  cases named : failure.lane? with
  | none =>
      rfl
  | some lane =>
      have live := (sound.stepAt_failure failed named).1
      rw [Lanes.get_of_idle idle lane] at live
      cases live

/-! ## Machines above the place where code began -/

/-- A machine with some operands, scopes and loops above those of an earlier one. -/
structure Hovers (program : Program) (start : Machine) (height : Nat) (depth : Depth)
    (machine : Machine) : Prop
    extends Frames program start.live start.top start machine where
  top : machine.top = start.top + height
  above : start.predicates.Above depth machine.predicates

namespace Hovers

variable {start after : Machine} {program : Program} {height higher : Nat}
variable {depth deeper : Depth}

theorem refl (sound : start.Sound program) : Hovers program start 0 ⟨0, 0⟩ start where
  sound := sound
  current := rfl
  callers := rfl
  occupied := rfl
  cells _ _ _ _ _ := rfl
  top := rfl
  above := .refl _

/-- No lane becomes live above a machine without live lanes. -/
theorem idle (hovers : Hovers program start height depth machine)
    (idle : start.live.any = false) : machine.live.any = false :=
  hovers.above.live.any idle

theorem acted {instruction : Instruction} (hovers : Hovers program start height depth machine)
    (idle : start.live.any = false) (acted : Acted program instruction machine after)
    (rises : instruction.height? height = some higher)
    (deepens : instruction.depth? depth = some deeper) :
    Hovers program start higher deeper after := by
  obtain ⟨present, ⟨⟩⟩ := Option.ite_none_right_eq_some.mp rises
  have top := hovers.top
  refine ⟨hovers.toFrames.trans (acted.toFrames.mono hovers.above.live (by omega)), ?_,
    acted.above hovers.above (hovers.idle idle) deepens⟩
  rw [acted.top]
  omega

/-- What straight code does stays above and leads behind the instruction. -/
theorem advances {instruction : Instruction} {flow : Flow}
    (hovers : Hovers program start height depth machine) (idle : start.live.any = false)
    (onward : instruction.onward = true) (rises : instruction.height? height = some higher)
    (deepens : instruction.depth? depth = some deeper)
    (advances : machine.Advances program instruction flow) :
    ∃ after, flow = .next after ∧ Hovers program start higher deeper after ∧
      after.current.offset = machine.current.offset + instruction.width := by
  obtain ⟨decoded, effect⟩ := advances
  have room : machine.current.offset + instruction.width ≤
      machine.current.function.code.length :=
    (hovers.sound.advanced decoded).running.offset
  cases effect with
  | operated operated =>
      have acts := operated.acted hovers.sound room
      exact ⟨_, rfl, hovers.acted idle acts rises deepens, acts.offset⟩
  | jumped leads =>
      rw [Instruction.target?_of_onward onward] at leads
      cases leads
  | called calls =>
      have live : machine.live.any = true := calls.live
      rw [hovers.idle idle] at live
      cases live
  | returned =>
      cases onward

/-- A step of straight code leaves the host alone and stays above, or fails in no lane. -/
theorem step {instruction : Instruction}
    (hovers : Hovers batch.program start height depth machine)
    (idle : start.live.any = false) (decoded : machine.upcoming = .ok instruction)
    (onward : instruction.onward = true) (rises : instruction.height? height = some higher)
    (deepens : instruction.depth? depth = some deeper) (host : σ) :
    (∃ failure, machine.stepAt batch host = (.error failure, host) ∧ failure.Structural) ∨
      ∃ after, machine.stepAt batch host = (.ok (.next after), host) ∧
        Hovers batch.program start higher deeper after ∧
          after.current.offset = machine.current.offset + instruction.width := by
  obtain ⟨_, same, structural⟩ := stepAt_idle hovers.sound (hovers.idle idle) host
  have yields := stepAt_yields hovers.sound host
  generalize machine.stepAt batch host = reached at same structural yields ⊢
  rcases reached with ⟨failure | flow, later⟩
  · cases same
    exact Or.inl ⟨failure, rfl, structural failure rfl⟩
  · cases same
    obtain ⟨read, advances⟩ := yields
    obtain rfl : read = instruction := Except.ok.inj (advances.decoded.symm.trans decoded)
    obtain ⟨after, rfl, higher, offset⟩ :=
      hovers.advances idle onward rises deepens advances
    exact Or.inr ⟨after, rfl, higher, offset⟩

end Hovers

/-! ## Running idle code -/

/-- The machine and the host after a number of steps, unless one of them fails. -/
def follow (batch : Batch σ) : Nat → σ → Machine → Except Failure Machine × σ
  | 0, host, machine => (.ok machine, host)
  | count + 1, host, machine =>
      match machine.stepAt batch host with
      | (.ok flow, later) => flow.machine.follow batch count later
      | (.error failure, later) => (.error failure, later)

/-- What comes of a machine that runs code of some length without a live lane. -/
structure Sweeps (batch : Batch σ) (start : Machine) (finish count : Nat) (host : σ)
    (machine : Machine) : Prop where
  moments : ∀ moment ∈ machine.moments batch count host,
    ∃ height depth, Hovers batch.program start height depth moment.1
  silent : (machine.follow batch count host).2 = host
  outcome : Yields Failure.Structural
    (fun after => Hovers batch.program start 0 ⟨0, 0⟩ after ∧ after.current.offset = finish)
    (machine.follow batch count host).1

section Sweeps

variable {start after : Machine} {height finish count : Nat} {depth : Depth} {host : σ}

theorem Hovers.stopped (hovers : Hovers batch.program start height depth machine)
    {failure : Failure} (stepped : machine.stepAt batch host = (.error failure, host))
    (structural : failure.Structural) :
    Sweeps batch start finish (count + 1) host machine := by
  constructor
  · rw [moments, stepped]
    rintro moment (_ | ⟨_, later⟩)
    · exact ⟨height, depth, hovers⟩
    · cases later
  · rw [follow, stepped]
  · rw [follow, stepped]
    exact structural

theorem Hovers.continued (hovers : Hovers batch.program start height depth machine)
    (stepped : machine.stepAt batch host = (.ok (.next after), host))
    (sweeps : Sweeps batch start finish count host after) :
    Sweeps batch start finish (count + 1) host machine := by
  constructor
  · rw [moments, stepped]
    rintro moment (_ | ⟨_, later⟩)
    · exact ⟨height, depth, hovers⟩
    · exact sweeps.moments moment later
  · rw [follow, stepped]
    exact sweeps.silent
  · rw [follow, stepped]
    exact sweeps.outcome

theorem Hovers.sweeps {instructions : List Instruction}
    (hovers : Hovers batch.program start height depth machine)
    (idle : start.live.any = false) (balanced : Balanced height depth instructions)
    (contains : start.current.function.Contains machine.current.offset instructions)
    (host : σ) :
    Sweeps batch start
      (machine.current.offset + (instructions.flatMap Instruction.encode).length)
      instructions.length host machine := by
  induction instructions generalizing machine height depth with
  | nil =>
      obtain ⟨_, ⟨⟩, ⟨⟩⟩ := balanced
      exact ⟨fun _ member => absurd member List.not_mem_nil, rfl, hovers, rfl⟩
  | cons instruction rest induction =>
      obtain ⟨onward, higher, deeper, rises, deepens, balanced⟩ := balanced.cons
      obtain ⟨reads, contains⟩ := contains.cons
      rw [← hovers.function] at reads
      rcases hovers.step idle reads onward rises deepens host with
        ⟨failure, stepped, structural⟩ | ⟨after, stepped, hovering, offset⟩
      · exact hovers.stopped stepped structural
      · rw [← offset] at contains
        have sweeps := induction hovering balanced contains
        rw [offset, Nat.add_assoc] at sweeps
        rw [List.flatMap_cons, List.length_append]
        exact hovers.continued stepped sweeps

end Sweeps

end Machine

/-! ## Jumping over idle code -/

namespace Machine

/-- Two machines agree on everything but registers that are no longer in use. -/
structure Coincides (left right : Machine) : Prop where
  globals : right.globals = left.globals
  top : right.top = left.top
  registers : ∀ position < left.top, right.cell .local position = left.cell .local position
  current : right.current = left.current
  callers : right.callers = left.callers
  predicates : ∀ stack, right.predicates.entries stack = left.predicates.entries stack

/-- Without live lanes, what is back at its height and depth is unchanged. -/
theorem Hovers.coincides {program : Program} {machine after : Machine}
    (hovers : Hovers program machine 0 ⟨0, 0⟩ after)
    (idle : machine.live.any = false) :
    (machine.jumped after.current.offset).Coincides after := by
  have cells : ∀ bank position, (bank = .local → position < machine.top) →
      after.cell bank position = machine.cell bank position := by
    intro bank position inside
    apply Lanes.ext_get
    intro lane
    exact hovers.cells bank position lane (Lanes.get_of_idle idle lane) inside
  constructor
  · exact RegisterFile.ext_register fun position => cells .global position nofun
  · exact hovers.top
  · exact fun position below => cells .local position fun _ => below
  · exact hovers.current
  · exact hovers.callers
  · intro stack
    rw [hovers.above.eq_of_zero]
    rfl

end Machine

namespace Linked

/--
A branch past code that no lane runs changes nothing but the time it takes.
Balanced code that is reached with no live lane and does not fail leads to the
same machine as the branch, calls no function and asks nothing of the host.  If
it fails, neither the host nor the values of a lane are the reason.
-/
theorem idle_code_changes_nothing (linked : Linked σ) (invocation : Invocation)
    (function : Function) (firstElement lanes : Nat) (machine : Machine)
    (occurs : linked.Occurs invocation function firstElement lanes machine)
    (idle : machine.live.any = false) (instructions : List Instruction)
    (contains : machine.current.function.Contains machine.current.offset instructions)
    (balanced : Balanced 0 ⟨0, 0⟩ instructions) (host : σ) :
    ∃ skipped,
      machine.jumpIfAllFalse
          (machine.current.offset + (instructions.flatMap Instruction.encode).length) =
        .ok skipped ∧
      Yields Failure.Structural skipped.Coincides
        (machine.follow (linked.batch invocation firstElement) instructions.length host).1 ∧
      -- the host is not asked and remains as it is,
      machine.requests (linked.batch invocation firstElement) instructions.length host =
        [] ∧
      (machine.follow (linked.batch invocation firstElement) instructions.length host).2 =
        host ∧
      -- and the running function is never left for another one.
      ∀ moment ∈ machine.moments (linked.batch invocation firstElement)
          instructions.length host,
        moment.1.callers = machine.callers ∧
          moment.1.current = { machine.current with offset := moment.1.current.offset } := by
  have sound : machine.Sound (linked.batch invocation firstElement).program :=
    occurs.serves.sound
  have sweeps := (Machine.Hovers.refl sound).sweeps idle balanced contains host
  have inside := contains.length_le sound.running.offset
  refine ⟨machine.jumped
    (machine.current.offset + (instructions.flatMap Instruction.encode).length),
    ?_, ?_, ?_, sweeps.silent, ?_⟩
  · rw [Machine.jumpIfAllFalse, idle]
    exact Machine.jump_eq inside
  · refine sweeps.outcome.relax ?_
    rintro after ⟨hovers, offset⟩
    rw [← offset]
    exact hovers.coincides idle
  · rw [Machine.requests_eq sound, List.flatMap_eq_nil_iff]
    intro moment member
    obtain ⟨height, depth, hovers⟩ := sweeps.moments moment member
    exact (Machine.stepAt_idle hovers.sound (hovers.idle idle) moment.2).1
  · intro moment member
    obtain ⟨height, depth, hovers⟩ := sweeps.moments moment member
    exact ⟨hovers.callers, hovers.current⟩

/-- Code that would divide by zero, ask the host, leave a loop and call a function. -/
def forbidden : List Instruction :=
  [.load .local 1 0, .load .local 1 0, .divide .quotientU 1, .callExternal 1 1 0,
    .store .local 1 0, .loopBegin, .loopBreak, .loopEnd, .call 0]

/-- A function that runs such code only if its argument is not zero. -/
def guarded : Function where
  name := "guarded"
  parameterCount := 1
  stackCount := 2
  parameters := [{ slotCount := 1 }]
  code := (Instruction.load .local 1 0).encode ++ Instruction.maskPush.encode ++
    forbidden.flatMap Instruction.encode ++ Instruction.maskPop.encode ++
    (Instruction.ret 0).encode

/-- The program of `guarded`, with a host that refuses every request. -/
def guarding : Linked Unit where
  program := { functions := [guarded] }
  externals := [{ call := fun _ _ _ => throw (.reason "no") }]

/-- With a zero argument, all of the code is run and is as good as jumped over. -/
theorem idle_code_changes_nothing_guarded :
    ∃ machine skipped after,
      guarding.Occurs ⟨0, [], none⟩ guarded 0 1 machine ∧ machine.live.any = false ∧
        machine.jumpIfAllFalse
            (machine.current.offset + (forbidden.flatMap Instruction.encode).length) =
          .ok skipped ∧
        machine.follow (guarding.batch ⟨0, [], none⟩ 0) 9 () = (.ok after, ()) ∧
        skipped.Coincides after := by
  -- Two instructions of `guarded` come before the code.
  obtain ⟨first, machine, loads, masks, idle, contains, succeeds⟩ :
      ∃ first machine,
        Machine.Steps (guarding.batch ⟨0, [], none⟩ 0)
            (Machine.booted guarded 1 (.blank globalCapacity) [packWords [0]]) first ∧
          Machine.Steps (guarding.batch ⟨0, [], none⟩ 0) first machine ∧
          machine.live.any = false ∧
          machine.current.function.Contains machine.current.offset forbidden ∧
          (machine.follow (guarding.batch ⟨0, [], none⟩ 0) 9 ()).1.isOk = true :=
    ⟨_, _, ⟨(), (), rfl⟩, ⟨(), (), rfl⟩, by decide +kernel, by
      simp only [Function.Contains, forbidden, placeFrom, List.forall_mem_cons]
      exact ⟨rfl, rfl, rfl, rfl, rfl, rfl, rfl, rfl, rfl, List.forall_mem_nil _⟩,
      by decide +kernel⟩
  have occurs : guarding.Occurs ⟨0, [], none⟩ guarded 0 1 machine :=
    occurs_iff.mpr ⟨some 0, [packWords [0]], .blank globalCapacity, by decide, rfl,
      (Relation.ReflTransGen.single loads).tail masks⟩
  obtain ⟨skipped, jumps, outcome, _⟩ :=
    idle_code_changes_nothing guarding ⟨0, [], none⟩ guarded 0 1 machine occurs idle
      forbidden contains ⟨by decide, by decide, by decide⟩ ()
  change Yields _ _ (machine.follow (guarding.batch ⟨0, [], none⟩ 0) 9 ()).1 at outcome
  cases followed : machine.follow (guarding.batch ⟨0, [], none⟩ 0) 9 () with
  | mk result later =>
      rw [followed] at outcome succeeds
      cases result with
      | error failure =>
          cases succeeds
      | ok after =>
          exact ⟨machine, skipped, after, occurs, idle, jumps, followed, outcome⟩

end Linked

end Lockstep
