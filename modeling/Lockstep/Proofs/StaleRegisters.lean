import Lockstep.Proofs.HostRequests
import Lockstep.Proofs.Padding

/-!
# Stale registers

What is popped stays in its register, and so do the operands and the frames of
calls that have returned.  Nothing ever comes of it: two machines that differ
only in registers at and above the top make the same requests, fail alike,
return the same registers, and go on to machines that differ, once more, only
at and above the top.

Such machines mirror each other along the map that keeps all lanes, so what is
known of machines with padding lanes holds for them with no padding at all.
-/

namespace Lockstep

variable {σ α : Type}

/-! ## Mirroring in all lanes -/

theorem Lanes.mirrors_everywhere {left right : Lanes α} :
    left.Mirrors (Lane.below laneCount) right ↔ right = left := by
  rw [Lanes.mirrors_below]
  constructor
  · intro same
    exact Lanes.ext_get fun lane => same lane lane.isLt
  · rintro rfl _ _
    rfl

/-- Lists whose entries are the same one by one are the same. -/
theorem eq_of_forall₂ {related : α → α → Prop}
    (same : ∀ {first second}, related first second → second = first) {left right : List α}
    (entries : List.Forall₂ related left right) : right = left := by
  induction entries with
  | nil => rfl
  | cons first _ rest => rw [same first, rest]

theorem MirroredRun.eq {left right : List Register}
    (run : MirroredRun (Lane.below laneCount) left right) : right = left :=
  eq_of_forall₂ Lanes.mirrors_everywhere.mp run

theorem Scope.Mirrors.eq {left right : Scope}
    (mirrors : left.Mirrors (Lane.below laneCount) right) : right = left := by
  rcases left with ⟨_, _⟩
  rcases right with ⟨_, _⟩
  cases Lanes.mirrors_everywhere.mp mirrors.condition
  cases Lanes.mirrors_everywhere.mp mirrors.mask
  rfl

theorem Loop.Mirrors.eq {left right : Loop}
    (mirrors : left.Mirrors (Lane.below laneCount) right) : right = left := by
  rcases left with ⟨_, _⟩
  rcases right with ⟨_, _⟩
  cases Lanes.mirrors_everywhere.mp mirrors.running
  cases Lanes.mirrors_everywhere.mp mirrors.parked
  rfl

theorem Predicates.mirrors_everywhere {left right : Predicates} :
    left.Mirrors (Lane.below laneCount) right ↔ right = left := by
  constructor
  · rintro ⟨occupied, scopes, loops⟩
    rcases left with ⟨_, _, _⟩
    rcases right with ⟨_, _, _⟩
    cases Lanes.mirrors_everywhere.mp occupied
    cases eq_of_forall₂ Scope.Mirrors.eq scopes
    cases eq_of_forall₂ Loop.Mirrors.eq loops
    rfl
  · rintro rfl
    have same : ∀ mask : Mask, mask.Mirrors (Lane.below laneCount) mask :=
      fun _ => Lanes.mirrors_everywhere.mpr rfl
    exact ⟨same _, List.forall₂_same.mpr fun _ _ => ⟨same _, same _⟩,
      List.forall₂_same.mpr fun _ _ => ⟨same _, same _⟩⟩

/-! ## Machines that agree below the top -/

/-- Two machines that differ in registers at and above the top at most. -/
structure Machine.AgreesBelowTop (left right : Machine) : Prop where
  top : right.top = left.top
  registers : ∀ position, position < left.top →
    right.registers.register position = left.registers.register position
  globals : right.globals = left.globals
  predicates : right.predicates = left.predicates
  current : right.current = left.current
  callers : right.callers = left.callers

/-- What two machines lead to, up to registers at and above the top. -/
def Flow.AgreesBelowTop : Flow → Flow → Prop
  | .next left, .next right => left.AgreesBelowTop right
  | .done left returned, .done right answers =>
      answers = returned ∧ left.AgreesBelowTop right
  | _, _ => False

namespace Machine

variable {batch : Batch σ} {left right : Machine}

theorem agreesBelowTop_iff :
    left.AgreesBelowTop right ↔ left.Mirrors (Lane.below laneCount) spotless right := by
  constructor
  · intro agree
    refine ⟨agree.top, agree.current, agree.callers,
      Predicates.mirrors_everywhere.mpr agree.predicates, ?_, ?_⟩
    · intro position
      refine Lanes.mirrors_everywhere.mpr ?_
      rw [cell, cell, agree.globals]
    · intro position _ below
      exact Lanes.mirrors_everywhere.mpr (agree.registers position below)
  · intro mirrors
    refine ⟨mirrors.top, ?_, ?_, Predicates.mirrors_everywhere.mp mirrors.predicates,
      mirrors.current, mirrors.callers⟩
    · intro position below
      exact Lanes.mirrors_everywhere.mp (mirrors.locals position trivial below)
    · exact RegisterFile.ext_register fun position =>
        Lanes.mirrors_everywhere.mp (mirrors.globals position)

theorem agreesBelowTop_of_flow {flow answer : Flow}
    (mirrors : flow.Mirrors (Lane.below laneCount) spotless answer) :
    flow.AgreesBelowTop answer := by
  cases flow with
  | next left =>
      cases answer with
      | next right => exact agreesBelowTop_iff.mpr mirrors
      | done => exact mirrors.elim
  | done left returned =>
      cases answer with
      | next => exact mirrors.elim
      | done right answers => exact ⟨mirrors.2.eq, agreesBelowTop_iff.mpr mirrors.1⟩

/-- Two machines step alike, up to registers at and above the top. -/
structure StepAsOne (batch : Batch σ) (host : σ) (left right : Machine) : Prop where
  requests : right.stepRequests batch host = left.stepRequests batch host
  hosts : (right.stepAt batch host).2 = (left.stepAt batch host).2
  results : Matched Flow.AgreesBelowTop (left.stepAt batch host).1
    (right.stepAt batch host).1

/-- Two runs end alike, up to registers at and above the top, or neither ends. -/
def EndAsOne : BatchResult → BatchResult → Prop
  | none, none => True
  | some result, some answer =>
      Matched (fun reached other => other.2 = reached.2 ∧ reached.1.AgreesBelowTop other.1)
        result answer
  | _, _ => False

/-- Two machines run alike, up to registers at and above the top. -/
structure RunAsOne (batch : Batch σ) (budget : Nat) (host : σ) (left right : Machine) :
    Prop where
  requests : right.requests batch budget host = left.requests batch budget host
  hosts : (right.runAt batch budget host).2 = (left.runAt batch budget host).2
  results : EndAsOne (left.runAt batch budget host).1 (right.runAt batch budget host).1

namespace AgreesBelowTop

theorem trans {middle : Machine} (first : left.AgreesBelowTop middle)
    (second : middle.AgreesBelowTop right) : left.AgreesBelowTop right where
  top := second.top.trans first.top
  registers := fun position below =>
    (second.registers position (first.top ▸ below)).trans (first.registers position below)
  globals := second.globals.trans first.globals
  predicates := second.predicates.trans first.predicates
  current := second.current.trans first.current
  callers := second.callers.trans first.callers

theorem akin (agree : left.AgreesBelowTop right) {program : Program}
    (sound : left.Sound program) : Akin program laneCount left right where
  sound := sound
  running := fun lane _ => lane.isLt
  live := by rw [Machine.live, Machine.live, agree.predicates]
  mirrors := agreesBelowTop_iff.mp agree

theorem step_agrees (agree : left.AgreesBelowTop right)
    (sound : left.Sound batch.program) :
    Session.Agrees Flow.AgreesBelowTop (left.step batch) (right.step batch) := by
  intro host
  obtain ⟨hosts, results⟩ := (agree.akin sound).step_agrees host
  exact ⟨hosts, results.mono fun _ _ => agreesBelowTop_of_flow⟩

/-- A step cannot tell machines that agree below the top apart. -/
theorem stepAsOne (agree : left.AgreesBelowTop right)
    (sound : left.Sound batch.program) (host : σ) : StepAsOne batch host left right := by
  have recorded : left.Sound batch.recorded.program := sound
  obtain ⟨hosts, results⟩ := agree.step_agrees sound host
  exact ⟨congrArg Prod.snd (agree.step_agrees recorded (host, [])).1, hosts, results⟩

/-- A run cannot tell machines that agree below the top apart. -/
theorem runAt_as_one (agree : left.AgreesBelowTop right)
    (sound : left.Sound batch.program) (budget : Nat) (host : σ) :
    (right.runAt batch budget host).2 = (left.runAt batch budget host).2 ∧
      EndAsOne (left.runAt batch budget host).1 (right.runAt batch budget host).1 := by
  induction budget generalizing left right host with
  | zero =>
      exact ⟨rfl, trivial⟩
  | succ budget induction =>
      obtain ⟨_, hosts, results⟩ := agree.stepAsOne sound host
      rw [runAt_succ, runAt_succ]
      generalize first : left.stepAt batch host = reached at hosts results
      generalize right.stepAt batch host = answered at hosts results
      rcases reached with ⟨outcome, later⟩
      rcases answered with ⟨answer, _⟩
      cases hosts
      rcases outcome with failure | flow
      · cases results.of_error
        exact ⟨rfl, rfl⟩
      · obtain ⟨reply, rfl, agreed⟩ := results.of_ok
        rcases flow with after | ⟨final, returned⟩
        · rcases reply with other | _
          · have reaches : Reaches batch left after := .single ⟨host, _, first⟩
            exact induction agreed (reaches.sound sound) _
          · exact agreed.elim
        · rcases reply with _ | ⟨last, answers⟩
          · exact agreed.elim
          · exact ⟨rfl, agreed⟩

theorem runAsOne (agree : left.AgreesBelowTop right)
    (sound : left.Sound batch.program) (budget : Nat) (host : σ) :
    RunAsOne batch budget host left right := by
  have recorded : left.Sound batch.recorded.program := sound
  have journals := (agree.runAt_as_one recorded budget (host, [])).1
  obtain ⟨hosts, results⟩ := agree.runAt_as_one sound budget host
  exact ⟨congrArg Prod.snd journals, hosts, results⟩

end AgreesBelowTop

end Machine

namespace Linked

/--
Stale registers are never read.  A machine that occurs in a call and any other
that differs from it at most in registers at and above the top make the same
requests at their next step, fail alike, end alike with the same registers
returned, or go on to machines that differ at and above the top at most; and
so do their runs.
-/
theorem stale_registers_are_never_read (linked : Linked σ) (invocation : Invocation)
    (function : Function) (firstElement lanes : Nat) (left right : Machine)
    (occurs : linked.Occurs invocation function firstElement lanes left)
    (agree : left.AgreesBelowTop right) (host : σ) :
    Machine.StepAsOne (linked.batch invocation firstElement) host left right ∧
      ∀ budget,
        Machine.RunAsOne (linked.batch invocation firstElement) budget host left right := by
  have sound := occurs.serves.sound
  exact ⟨agree.stepAsOne sound host, fun budget => agree.runAsOne sound budget host⟩

/-- A function that drops what it was told and reserves the same register again. -/
def forget : Function where
  name := "forget"
  parameterCount := 0
  stackCount := 2
  returnCount := 2
  code := (Instruction.compute (.immediate 7)).encode ++
    (Instruction.readExternal 1 0).encode ++ (Instruction.compute (.pop 1)).encode ++
    (Instruction.compute (.reserve 1)).encode ++ (Instruction.ret 2).encode

/-- The program of `forget`, with a host that tells its state. -/
def forgetting : Linked Word where
  program := { functions := [forget] }
  externals := [{ read := fun _ width => return Vector.replicate width (← get) }]

/-- What is left of different answers of the host does not come to light again. -/
theorem stale_registers_are_never_read_forget :
    ∃ left right,
      forgetting.Occurs ⟨0, [], none⟩ forget 0 1 left ∧
      forgetting.Occurs ⟨0, [], none⟩ forget 0 1 right ∧
      left.AgreesBelowTop right ∧
      right.registers.register left.top ≠ left.registers.register left.top ∧
      left.upcoming = .ok (.compute (.reserve 1)) ∧
      Machine.StepAsOne (forgetting.batch ⟨0, [], none⟩ 0) 5 left right := by
  -- The host tells 1 on the way to one machine and 2 on the way to the other.
  obtain ⟨pushed, told, left, toldOther, right, pushes, hears, pops, hearsOther, popsOther,
      agree, stale, decoded⟩ :
      ∃ pushed told left toldOther right,
        Machine.Steps (forgetting.batch ⟨0, [], none⟩ 0)
            (Machine.booted forget 1 (.blank globalCapacity) []) pushed ∧
          Machine.Steps (forgetting.batch ⟨0, [], none⟩ 0) pushed told ∧
          Machine.Steps (forgetting.batch ⟨0, [], none⟩ 0) told left ∧
          Machine.Steps (forgetting.batch ⟨0, [], none⟩ 0) pushed toldOther ∧
          Machine.Steps (forgetting.batch ⟨0, [], none⟩ 0) toldOther right ∧
          left.AgreesBelowTop right ∧
          right.registers.register left.top ≠ left.registers.register left.top ∧
          left.upcoming = .ok (.compute (.reserve 1)) := by
    refine ⟨_, _, _, _, _, ⟨1, 1, rfl⟩, ⟨1, 1, rfl⟩, ⟨1, 1, rfl⟩, ⟨2, 2, rfl⟩, ⟨2, 2, rfl⟩,
      ⟨rfl, ?_, ?_, ?_, ?_, ?_⟩, ?_, rfl⟩
    · intro position below
      have lowest : position = 0 := Nat.lt_one_iff.mp below
      subst lowest
      decide +kernel
    all_goals decide +kernel
  have occurs : forgetting.Occurs ⟨0, [], none⟩ forget 0 1 left :=
    occurs_iff.mpr ⟨some 2, [], .blank globalCapacity, by decide, rfl,
      ((Relation.ReflTransGen.single pushes).tail hears).tail pops⟩
  have others : forgetting.Occurs ⟨0, [], none⟩ forget 0 1 right :=
    occurs_iff.mpr ⟨some 2, [], .blank globalCapacity, by decide, rfl,
      ((Relation.ReflTransGen.single pushes).tail hearsOther).tail popsOther⟩
  exact ⟨left, right, occurs, others, agree, stale, decoded,
    (stale_registers_are_never_read forgetting ⟨0, [], none⟩ forget 0 1 left right occurs
      agree 5).1⟩

end Linked

end Lockstep
