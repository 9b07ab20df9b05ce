import Lockstep.Proofs.Safety

/-!
# Masked steps

Most instructions work on all lanes at once, live or not.  What a lane that is
not live keeps is its memory: the globals, and the slots of every open frame.
`Effect.changed` says that a step changes such a cell only by a store or a
scatter, in a live lane and where the instruction addresses it.

Lanes that are not live do not meet the host either.  `Session.Requests` is the
account of what a session does to the host: a chain of requests of some sort.

And a lane that is not live is never the reason of a failure: if a failure
names a lane, then that lane is live and brought it about,
`execute_blames`.
-/

namespace Lockstep

variable {σ α β : Type}

/-! ## Memory -/

namespace Machine

variable {program : Program} {machine : Machine}

/-- A step changes memory only where its instruction addresses it, in live lanes. -/
theorem Effect.changed {instruction : Instruction} {flow : Flow}
    (effect : Effect program machine instruction flow) (sound : machine.Sound program)
    {bank : Bank} {position : Nat} {lane : Lane}
    (framed : bank = .local → position < machine.current.floor ∧
      position < flow.machine.current.floor)
    (differs : (flow.machine.cell bank position).get lane ≠
      (machine.cell bank position).get lane) :
    machine.live.get lane = true ∧ machine.addressed instruction bank position lane := by
  have floor := sound.floor
  cases effect with
  | operated operated =>
      have present := operated.stack.present
      by_cases touched : machine.addressed instruction bank position lane
      · exact ⟨(operated.stack.confined bank position lane touched).1, touched⟩
      · have below : bank = .local → position < machine.top - instruction.taken := by
          intro isLocal
          have inFrame := (framed isLocal).1
          omega
        have kept := operated.stack.cells bank position lane below touched
        refine absurd ?_ differs
        cases bank <;> exact kept
  | jumped leads inside =>
      refine absurd ?_ differs
      cases bank <;> rfl
  | called calls =>
      have present := calls.present
      refine absurd ?_ differs
      refine congrArg (Lanes.get · lane) (cell_called (by omega) calls.room ?_)
      intro isLocal
      have inFrame := (framed isLocal).1
      omega
  | returned hands =>
      refine absurd ?_ differs
      cases hands with
      | finished returns outermost =>
          rfl
      | @resumed results caller earlier returns waiting reserved =>
          have frame := sound.fits.frame
          have capacity := sound.capacity
          have counted : results.length = _ :=
            (congrArg List.length returns.returned).trans (length_topmost _ _)
          refine congrArg (Lanes.get · lane) (cell_resumed (by omega) (by omega) ?_)
          intro isLocal
          have inCaller : position < caller.floor := (framed isLocal).2
          omega

end Machine

/-! ## Requests to the host -/

/-- A session changes the host only by a chain of requests of some sort. -/
def Session.Requests (asks : σ → σ → Prop) (session : Session σ α) : Prop :=
  ∀ host, Relation.ReflTransGen asks host (session.at host).2

namespace Session.Requests

variable {asks : σ → σ → Prop}

theorem ofExcept (result : Except Failure α) :
    Session.Requests asks (Session.ofExcept result : Session σ α) :=
  fun _ => .refl

theorem pure (value : α) : Session.Requests asks (Pure.pure value : Session σ α) :=
  fun _ => .refl

theorem bind {first : Session σ α} {next : α → Session σ β}
    (begun : Session.Requests asks first)
    (continued : ∀ value, Session.Requests asks (next value)) :
    Session.Requests asks (first >>= next) := by
  intro host
  have start := begun host
  rw [Session.at_bind]
  generalize first.at host = reached at start
  rcases reached with ⟨outcome, later⟩
  cases outcome with
  | ok value =>
      exact start.trans (continued value later)
  | error failure =>
      exact start

theorem mapM {entries : List α} {step : α → Session σ β}
    (each : ∀ entry ∈ entries, Session.Requests asks (step entry)) :
    Session.Requests asks (entries.mapM step) := by
  induction entries with
  | nil =>
      exact pure []
  | cons head tail induction =>
      rw [List.mapM_cons]
      refine bind (each head List.mem_cons_self) fun _ => ?_
      refine bind (induction fun entry member =>
        each entry (List.mem_cons_of_mem head member)) fun _ => ?_
      exact pure _

theorem forM {entries : List α} {step : α → Session σ Unit}
    (each : ∀ entry ∈ entries, Session.Requests asks (step entry)) :
    Session.Requests asks (entries.forM step) := by
  induction entries with
  | nil =>
      exact pure ()
  | cons head tail induction =>
      change Session.Requests asks (step head >>= fun _ => tail.forM step)
      exact bind (each head List.mem_cons_self) fun _ =>
        induction fun entry member => each entry (List.mem_cons_of_mem head member)

/-- Asking the host is a single request. -/
theorem ask (kind : RequestKind) (external element : Nat) (action : HostAction σ α)
    (sort : ∀ host, asks host (action.run.run host).2) :
    Session.Requests asks (Session.ask kind external element action) := by
  intro host
  rw [Session.at_ask]
  exact .single (sort host)

end Session.Requests

/-- A request to an external of a batch on behalf of one of some lanes. -/
inductive Batch.Requested (batch : Batch σ) (lanes : Mask) (host : σ) : σ → Prop
  | read {external : External σ} {lane : Lane} (attached : external ∈ batch.externals)
      (inside : lanes.get lane = true) (width : Nat) :
      Requested batch lanes host
        ((external.read (batch.firstElement + lane.val) width).run.run host).2
  | write {external : External σ} {lane : Lane} (attached : external ∈ batch.externals)
      (inside : lanes.get lane = true) (words : List Word) :
      Requested batch lanes host
        ((external.write (batch.firstElement + lane.val) words).run.run host).2
  | call {external : External σ} {lane : Lane} (attached : external ∈ batch.externals)
      (inside : lanes.get lane = true) (words : List Word) (width : Nat) :
      Requested batch lanes host
        ((external.call (batch.firstElement + lane.val) words width).run.run host).2

namespace Machine

variable {batch : Batch σ} {machine : Machine}

/-- An external of a batch, if there is one at a position. -/
theorem external_bind_requests {asks : σ → σ → Prop} {position : Nat}
    {next : External σ → Session σ α}
    (continued : ∀ external ∈ batch.externals, Session.Requests asks (next external)) :
    Session.Requests asks (Session.ofExcept (batch.external position) >>= next) := by
  unfold Batch.external
  cases known : batch.externals[position]? with
  | none =>
      exact fun _ => .refl
  | some external =>
      exact continued external (List.mem_of_getElem? known)

theorem readExternal_requests (count position : Nat) :
    Session.Requests (batch.Requested machine.live)
      (machine.readExternal batch count position) := by
  apply external_bind_requests
  intro external attached
  refine .bind (.ofExcept _) fun _ => .bind (.ofExcept _) fun _ =>
    .bind (.mapM ?_) fun _ => .ofExcept _
  intro lane active
  refine .bind (.ask _ _ _ _ fun host => ?_) fun _ => .pure _
  exact .read attached ((Lanes.mem_active _ _).mp active) count

theorem writeExternal_requests (count position : Nat) :
    Session.Requests (batch.Requested machine.live)
      (machine.writeExternal batch count position) := by
  apply external_bind_requests
  intro external attached
  refine .bind (.ofExcept _) fun values => .bind (.ofExcept _) fun _ =>
    .bind (.forM ?_) fun _ => .pure _
  intro lane active
  refine .ask _ _ _ _ fun host => ?_
  exact .write attached ((Lanes.mem_active _ _).mp active) (laneWords values lane)

theorem callExternal_requests (arguments results position : Nat) :
    Session.Requests (batch.Requested machine.live)
      (machine.callExternal batch arguments results position) := by
  apply external_bind_requests
  intro external attached
  refine .bind (.ofExcept _) fun values => .bind (.ofExcept _) fun _ =>
    .bind (.ofExcept _) fun _ => .bind (.mapM ?_) fun _ => .ofExcept _
  intro lane active
  refine .bind (.ask _ _ _ _ fun host => ?_) fun _ => .pure _
  exact .call attached ((Lanes.mem_active _ _).mp active) (laneWords values lane) results

/-- An instruction meets the host only on behalf of live lanes. -/
theorem execute_requests (instruction : Instruction) :
    Session.Requests (batch.Requested machine.live) (machine.execute batch instruction) := by
  cases instruction with
  | callExternal arguments results external =>
      exact .bind (callExternal_requests _ _ _) fun _ => .pure _
  | readExternal count external =>
      exact .bind (readExternal_requests _ _) fun _ => .pure _
  | writeExternal count external =>
      exact .bind (writeExternal_requests _ _) fun _ => .pure _
  | shift operation amount =>
      simp only [execute]
      cases checkShift operation amount <;> exact .ofExcept _
  | _ =>
      exact .ofExcept _

end Machine

/-! ## Failures -/

/-- A result that does not fail because of one lane in particular. -/
def Impartial (result : Except Failure α) : Prop :=
  Yields (fun failure => failure.lane? = none) (fun _ => True) result

namespace Impartial

variable {result : Except Failure α}

theorem bind {next : α → Except Failure β} (begun : Impartial result)
    (continued : ∀ value, Impartial (next value)) : Impartial (result >>= next) :=
  Yields.bind begun fun value _ => continued value

theorem of_yields {allowed : Failure → Prop} {expected : α → Prop}
    (yields : Yields allowed expected result)
    (shared : ∀ failure, allowed failure → failure.lane? = none) : Impartial result :=
  yields.mono shared fun _ _ => trivial

/-- An impartial result of which more is known. -/
theorem giving {allowed : Failure → Prop} {expected : α → Prop}
    (impartial : Impartial result) (yields : Yields allowed expected result) :
    Yields (fun failure => failure.lane? = none) expected result := by
  cases result with
  | ok value =>
      exact yields
  | error failure =>
      exact impartial

theorem pure (value : α) : Impartial (.ok value : Except Failure α) :=
  trivial

theorem ite {condition : Prop} [Decidable condition] {failure : Failure} {value : α}
    (shared : failure.lane? = none) :
    Impartial (if condition then .ok value else .error failure) := by
  split
  · exact trivial
  · exact shared

end Impartial

/-- A check that is made for each entry of a list. -/
theorem Yields.each {allowed : Failure → Prop} {entries : List α}
    {check : α → Except Failure Unit}
    (checked : ∀ entry ∈ entries, Yields allowed (fun _ => True) (check entry)) :
    Yields allowed (fun _ => True) (entries.forM check) :=
  (Yields.forM checked).relax fun _ _ => trivial

namespace Machine

variable {batch : Batch σ} {machine : Machine}

/-- The index that a lane takes from the top of the operand stack. -/
def ownIndex (machine : Machine) (lane : Lane) : Int32 :=
  signedIndex ((machine.cell .local (machine.top - 1)).get lane)

/-- A lane brings an instruction to fail, by a zero divisor or an index out of range. -/
inductive AtFault (batch : Batch σ) (machine : Machine) (lane : Lane) :
    Instruction → Failure → Prop
  | divisor {operation : Division} {count : UInt8} {step : Nat}
      (inRange : step < count.toNat)
      (zero : (machine.cell .local (machine.top - count.toNat + step)).get lane = 0) :
      AtFault batch machine lane (.divide operation count)
        (.fault (.arithmetic (.divide operation) lane))
  | gathered {space : Space} {count : UInt8}
      (outside : ¬ (0 ≤ (machine.ownIndex lane).toInt ∧
        (machine.ownIndex lane).toInt + count.toNat ≤ batch.limit machine space)) :
      AtFault batch machine lane (.gather space count)
        (.fault (.bounds (.laneIndex (.gather space) space (machine.ownIndex lane)
          count.toNat lane (batch.limit machine space))))
  | scattered {bank : Bank} {count : UInt8}
      (outside : ¬ (0 ≤ (machine.ownIndex lane).toInt ∧
        (machine.ownIndex lane).toInt + count.toNat ≤ batch.limit machine bank.space)) :
      AtFault batch machine lane (.scatter bank count)
        (.fault (.bounds (.laneIndex (.scatter bank) bank.space (machine.ownIndex lane)
          count.toNat lane (batch.limit machine bank.space))))
  | clamped {length : UInt8}
      (outside : ¬ (0 ≤ (machine.ownIndex lane).toInt ∧
        (machine.ownIndex lane).toInt < length.toNat)) :
      AtFault batch machine lane (.clampIndex length)
        (.fault (.bounds (.index (machine.ownIndex lane) lane length.toNat)))

/-- A failure that names a lane names a live one, which is at fault. -/
def Blames (batch : Batch σ) (machine : Machine) (instruction : Instruction)
    (failure : Failure) : Prop :=
  ∀ lane, failure.lane? = some lane →
    machine.live.get lane = true ∧ machine.AtFault batch lane instruction failure

theorem blames_of_shared {instruction : Instruction} {failure : Failure}
    (shared : failure.lane? = none) : machine.Blames batch instruction failure := by
  intro lane named
  rw [shared] at named
  cases named

theorem blames_of_impartial {instruction : Instruction} {result : Except Failure α}
    {expected : α → Prop}
    (yields : Yields (fun failure => failure.lane? = none) expected result) :
    Yields (machine.Blames batch instruction) expected result :=
  yields.permit fun _ => blames_of_shared

/-! ## Impartial operations -/

theorem require_impartial (count : Nat) : Impartial (machine.require count) :=
  .ite rfl

theorem peek_impartial (count : Nat) : Impartial (machine.peek count) :=
  .bind (require_impartial count) fun _ => .ite rfl

theorem pop_impartial : Impartial machine.pop :=
  .bind (peek_impartial 1) fun _ => .pure _

theorem room_impartial (count : Nat) : Impartial (machine.room count) :=
  .ite rfl

theorem push_impartial (results : List Register) : Impartial (machine.push results) :=
  .bind (room_impartial _) fun _ => .bind (.ite rfl) fun _ => .pure _

theorem orTrap_impartial (value : Option α) : Impartial (orTrap value) := by
  cases value with
  | none => exact rfl
  | some value => exact trivial

theorem scratch_impartial (count : Nat) : Impartial (scratch count) :=
  .ite rfl

theorem compute_impartial (kernel : Kernel) : Impartial (machine.compute kernel) :=
  .bind (peek_impartial _) fun _ => .bind (orTrap_impartial _) fun _ => push_impartial _

theorem slotRun_impartial (space : Space) (slot count : Nat) :
    Impartial (machine.slotRun batch space slot count) := by
  cases space <;> exact .ite rfl

theorem updateRun_impartial (bank : Bank) (slot : Nat)
    (update : Register → α → Register) (values : List α) :
    Impartial (machine.updateRun bank slot update values) := by
  cases bank <;> exact .bind (.ite rfl) fun _ => .bind (.ite rfl) fun _ => .pure _

theorem load_impartial (space : Space) (count slot : Nat) :
    Impartial (machine.load batch space count slot) := by
  unfold load checkSlots
  split
  · exact .bind (room_impartial _) fun _ =>
      .bind (slotRun_impartial _ _ _) fun _ => push_impartial _
  · rename_i fault refused
    split at refused
    · cases refused
    · cases refused
      exact rfl

theorem store_impartial (bank : Bank) (count slot : Nat) :
    Impartial (machine.store batch bank count slot) := by
  unfold store checkSlots
  split
  · exact .bind (peek_impartial _) fun _ =>
      .bind (updateRun_impartial _ _ _ _) fun _ => .pure _
  · rename_i fault refused
    split at refused
    · cases refused
    · cases refused
      exact rfl

theorem withPredicates_impartial {result : Except Failure Predicates}
    (impartial : Impartial result) : Impartial (machine.withPredicates result) :=
  .bind impartial fun _ => .pure _

theorem perform_impartial (sound : machine.predicates.Sound) (action : Predicates.Action) :
    Impartial (machine.predicates.perform action) :=
  .of_yields (Predicates.perform_yields sound action) fun _ shared => shared.2

theorem openScope_impartial (fits : machine.Fits) (sound : machine.predicates.Sound) :
    Impartial machine.openScope := by
  refine Yields.bind (pop_impartial.giving (pop_yields fits)) ?_
  rintro _ ⟨_, rfl⟩
  exact withPredicates_impartial (@perform_impartial (machine.drop 1) sound (.maskPush _))

theorem narrowLoop_impartial (fits : machine.Fits) (sound : machine.predicates.Sound) :
    Impartial machine.narrowLoop := by
  refine Yields.bind (pop_impartial.giving (pop_yields fits)) ?_
  rintro _ ⟨_, rfl⟩
  exact withPredicates_impartial (@perform_impartial (machine.drop 1) sound (.loopMask _))

theorem blend_impartial (sound : machine.predicates.Sound) (count : Nat) :
    Impartial (machine.blend count) := by
  refine .bind ?_ fun _ => .bind (peek_impartial _) fun _ => push_impartial _
  have closing := perform_impartial sound .maskBlend
  change Impartial (machine.predicates.maskBlend.map Prod.snd) at closing
  cases closed : machine.predicates.maskBlend with
  | ok answer =>
      exact trivial
  | error failure =>
      rw [closed] at closing
      exact closing

theorem jump_impartial (target : Nat) : Impartial (machine.jump target) :=
  .ite rfl

theorem jumpIfAllFalse_impartial (target : Nat) :
    Impartial (machine.jumpIfAllFalse target) := by
  unfold jumpIfAllFalse
  split
  · exact trivial
  · exact jump_impartial target

theorem call_impartial (functions : List Function) (position : Nat) :
    Impartial (machine.call functions position) := by
  unfold call
  split
  · unfold invoke
    by_cases full : machine.callers.length ≥ callCapacity
    · rw [if_pos full]
      exact rfl
    · rw [if_neg full]
      cases functions[position]? with
      | none =>
          exact rfl
      | some callee =>
          refine .bind (require_impartial _) fun _ => .bind ?_ fun _ => .pure _
          exact .of_yields (enter_yields machine callee _) fun _ shared => shared.2
  · exact trivial

theorem ret_impartial (count : Nat) : Impartial (machine.ret count) := by
  unfold ret
  by_cases declared : count ≠ machine.current.function.returnCount
  · rw [if_pos declared]
    exact rfl
  · rw [if_neg declared]
    refine .bind (peek_impartial _) fun returned => ?_
    cases machine.callers with
    | nil =>
        exact trivial
    | cons caller earlier =>
        refine .bind ?_ fun _ => .pure _
        unfold resume
        dsimp only
        split
        · exact .bind (.ite rfl) fun _ => .pure _
        · exact rfl

/-! ## Operations that find fault with a lane -/

theorem divide_blames (fits : machine.Fits) (operation : Division) (count : UInt8) :
    Yields (machine.Blames batch (.divide operation count)) (fun _ => True)
      (machine.divide operation count.toNat) := by
  refine Yields.bind
    (blames_of_impartial ((peek_impartial _).giving (peek_yields fits _))) ?_
  rintro _ ⟨present, rfl⟩
  refine Yields.bind (Yields.each ?_) fun _ _ => blames_of_impartial (push_impartial _)
  intro divisor member
  refine Yields.each ?_
  intro lane active
  split
  · rename_i zero
    rintro _ ⟨⟩
    refine ⟨(Lanes.mem_active _ _).mp active, ?_⟩
    obtain ⟨step, inRange, rfl⟩ := List.getElem_of_mem member
    rw [List.length_drop, length_topmost] at inRange
    rw [List.getElem_drop, getElem_topmost] at zero
    refine .divisor (show step < count.toNat by omega) ?_
    rw [← zero]
    congr 2
    omega
  · exact trivial

/-- An index that is refused is the index of a live lane, out of range. -/
theorem checkIndices_refuses (opcode : Opcode) (space : Space) (index : Register)
    (count limit : Nat) :
    Yields
      (fun failure => ∃ lane, machine.live.get lane = true ∧
        ¬ (0 ≤ (signedIndex (index.get lane)).toInt ∧
          (signedIndex (index.get lane)).toInt + count ≤ limit) ∧
        failure = .fault (.bounds
          (.laneIndex opcode space (signedIndex (index.get lane)) count lane limit)))
      (fun _ => True) (machine.checkIndices opcode space index count limit) := by
  unfold checkIndices
  refine Yields.each ?_
  intro lane active
  dsimp only
  split
  · exact trivial
  · rename_i outside
    exact ⟨lane, (Lanes.mem_active _ _).mp active, outside, rfl⟩

theorem gather_blames (fits : machine.Fits) (space : Space) (count : UInt8) :
    Yields (machine.Blames batch (.gather space count)) (fun _ => True)
      (machine.gather batch space count.toNat) := by
  rw [gather_eq fits]
  refine Yields.bind (blames_of_impartial (pop_impartial.giving (pop_yields fits))) ?_
  rintro _ ⟨_, rfl⟩
  refine Yields.bind ((checkIndices_refuses _ _ _ _ _).permit ?_)
    fun _ _ => blames_of_impartial
      (Impartial.bind (scratch_impartial _) fun _ => push_impartial _)
  rintro _ ⟨lane, live, outside, rfl⟩ _ ⟨⟩
  exact ⟨live, .gathered outside⟩

theorem scatter_blames (fits : machine.Fits) (bank : Bank) (count : UInt8) :
    Yields (machine.Blames batch (.scatter bank count)) (fun _ => True)
      (machine.scatter batch bank count.toNat) := by
  rw [scatter_eq fits]
  refine Yields.bind (blames_of_impartial (pop_impartial.giving (pop_yields fits))) ?_
  rintro _ ⟨_, rfl⟩
  refine Yields.bind ((checkIndices_refuses _ _ _ _ _).permit ?_)
    fun _ _ => blames_of_impartial (Impartial.bind (peek_impartial _) fun _ => .pure _)
  rintro _ ⟨lane, live, outside, rfl⟩ _ ⟨⟩
  exact ⟨live, .scattered outside⟩

theorem clampIndex_blames (fits : machine.Fits) (length : UInt8) :
    Yields (machine.Blames batch (.clampIndex length)) (fun _ => True)
      (machine.clampIndex length.toNat) := by
  refine Yields.bind
    (blames_of_impartial ((peek_impartial _).giving (peek_yields fits _))) ?_
  rintro _ ⟨present, rfl⟩
  refine Yields.bind (Yields.each ?_) fun _ _ => trivial
  intro lane active
  dsimp only
  have index : (machine.topmost 1).headD .zero = machine.cell .local (machine.top - 1) := by
    simp [topmost, RegisterFile.run, cell]
  rw [index]
  split
  · exact trivial
  · rename_i outside
    rintro _ ⟨⟩
    exact ⟨(Lanes.mem_active _ _).mp active, .clamped outside⟩

/-! ## Instructions -/

theorem go_blames {instruction : Instruction} {result : Except Failure Machine}
    (yields : Yields (machine.Blames batch instruction) (fun _ => True) result) :
    Session.Ensures (machine.Blames batch instruction) (fun _ => True)
      (go result : Session σ Flow) := by
  intro host
  cases result with
  | ok after =>
      exact trivial
  | error failure =>
      exact yields

/-- An instruction that does not find fault with lanes. -/
theorem go_impartial {instruction : Instruction} {result : Except Failure Machine}
    (impartial : Impartial result) :
    Session.Ensures (machine.Blames batch instruction) (fun _ => True)
      (go result : Session σ Flow) :=
  go_blames (blames_of_impartial impartial)

/-- A request to the host, and whatever else a session does, finds no fault. -/
theorem external_blames {instruction : Instruction} (position : Nat) :
    Session.Ensures (machine.Blames batch instruction) (fun _ => True)
      (Session.ofExcept (batch.external position) : Session σ (External σ)) := by
  refine .ofExcept (blames_of_impartial ?_)
  unfold Batch.external
  cases batch.externals[position]? with
  | none =>
      exact rfl
  | some external =>
      exact trivial

theorem ofExcept_blames {instruction : Instruction} {result : Except Failure α}
    (impartial : Impartial result) :
    Session.Ensures (machine.Blames batch instruction) (fun _ => True)
      (Session.ofExcept result : Session σ α) :=
  .ofExcept (blames_of_impartial impartial)

theorem ask_blames {instruction : Instruction} (kind : RequestKind)
    (external element : Nat) (action : HostAction σ α) :
    Session.Ensures (machine.Blames batch instruction) (fun _ => True)
      (Session.ask kind external element action) :=
  .ask kind external element action fun _ => blames_of_shared rfl

theorem readExternal_blames {instruction : Instruction} (count position : Nat) :
    Session.Ensures (machine.Blames batch instruction) (fun _ => True)
      (machine.readExternal batch count position) := by
  refine .bind (external_blames position) fun external _ => ?_
  refine .bind (ofExcept_blames (room_impartial _)) fun _ _ => ?_
  refine .bind (ofExcept_blames (scratch_impartial _)) fun _ _ => ?_
  refine .bind (.mapM fun lane _ => ?_) fun _ _ => ofExcept_blames (push_impartial _)
  exact .bind (ask_blames _ _ _ _) fun _ _ => .pure trivial

theorem writeExternal_blames {instruction : Instruction} (count position : Nat) :
    Session.Ensures (machine.Blames batch instruction) (fun _ => True)
      (machine.writeExternal batch count position) := by
  refine .bind (external_blames position) fun external _ => ?_
  refine .bind (ofExcept_blames (peek_impartial _)) fun values _ => ?_
  refine .bind (ofExcept_blames (scratch_impartial _)) fun _ _ => ?_
  exact .bind (.forM fun lane _ => ask_blames _ _ _ _) fun _ _ => .pure trivial

theorem callExternal_blames {instruction : Instruction}
    (arguments results position : Nat) :
    Session.Ensures (machine.Blames batch instruction) (fun _ => True)
      (machine.callExternal batch arguments results position) := by
  refine .bind (external_blames position) fun external _ => ?_
  refine .bind (ofExcept_blames (peek_impartial _)) fun values _ => ?_
  refine .bind (ofExcept_blames (room_impartial _)) fun _ _ => ?_
  refine .bind (ofExcept_blames (scratch_impartial _)) fun _ _ => ?_
  refine .bind (.mapM fun lane _ => ?_) fun _ _ => ofExcept_blames (push_impartial _)
  exact .bind (ask_blames _ _ _ _) fun _ _ => .pure trivial

/-- An instruction that fails because of a lane finds fault with a live one. -/
theorem execute_blames (fits : machine.Fits) (sound : machine.predicates.Sound)
    (instruction : Instruction) :
    Session.Ensures (machine.Blames batch instruction) (fun _ => True)
      (machine.execute batch instruction) := by
  cases instruction with
  | compute computation =>
      exact go_impartial (compute_impartial _)
  | divide operation count =>
      exact go_blames (divide_blames fits operation count)
  | shift operation amount =>
      simp only [execute]
      unfold checkShift
      split
      · exact go_impartial (compute_impartial _)
      · rename_i fault refused
        split at refused
        · cases refused
        · cases refused
          exact fun _ => blames_of_shared rfl
  | load space count slot =>
      exact go_impartial (load_impartial _ _ _)
  | store bank count slot =>
      exact go_impartial (store_impartial _ _ _)
  | gather space count =>
      exact go_blames (gather_blames fits space count)
  | scatter bank count =>
      exact go_blames (scatter_blames fits bank count)
  | clampIndex length =>
      exact go_blames (clampIndex_blames fits length)
  | branch target =>
      exact go_impartial (jump_impartial _)
  | branchIfAllFalse target =>
      exact go_impartial (jumpIfAllFalse_impartial _)
  | call function =>
      exact go_impartial (call_impartial _ _)
  | ret count =>
      exact ofExcept_blames (ret_impartial _)
  | maskPush =>
      exact go_impartial (openScope_impartial fits sound)
  | maskPop =>
      exact go_impartial (withPredicates_impartial (perform_impartial sound .maskPop))
  | maskNegate =>
      exact go_impartial (withPredicates_impartial (perform_impartial sound .maskNegate))
  | maskBlend count =>
      exact go_impartial (blend_impartial sound _)
  | loopBegin =>
      exact go_impartial (withPredicates_impartial (perform_impartial sound .loopBegin))
  | loopNext =>
      exact go_impartial (withPredicates_impartial (perform_impartial sound .loopNext))
  | loopMask =>
      exact go_impartial (narrowLoop_impartial fits sound)
  | loopEnd =>
      exact go_impartial (withPredicates_impartial (perform_impartial sound .loopEnd))
  | loopBreak =>
      exact go_impartial (withPredicates_impartial (perform_impartial sound .loopBreak))
  | loopContinue =>
      exact go_impartial
        (withPredicates_impartial (perform_impartial sound .loopContinue))
  | callExternal arguments results external =>
      exact .bind (callExternal_blames _ _ _) fun _ _ => .pure trivial
  | readExternal count external =>
      exact .bind (readExternal_blames _ _) fun _ _ => .pure trivial
  | writeExternal count external =>
      exact .bind (writeExternal_blames _ _) fun _ _ => .pure trivial
  | loadFragCoord =>
      exact fun _ => blames_of_shared rfl
  | sampleExplicit child =>
      exact fun _ => blames_of_shared rfl
  | sampleMatrix child =>
      exact fun _ => blames_of_shared rfl

/-! ## Steps -/

/-- What a step may change, whom it may ask for, and whom it may blame. -/
structure MaskedStep (batch : Batch σ) (host : σ) (machine : Machine) : Prop where
  /--
  The globals, and the slots of frames that are open before and after the step,
  change only where the instruction addresses them, and only in live lanes.
  -/
  memory : ∀ flow later, machine.stepAt batch host = (.ok flow, later) →
    ∃ instruction, machine.upcoming = .ok instruction ∧
      ∀ bank position lane,
        (bank = .local → position < machine.current.floor ∧
          position < flow.machine.current.floor) →
        (flow.machine.cell bank position).get lane ≠
          (machine.cell bank position).get lane →
        machine.live.get lane = true ∧ machine.addressed instruction bank position lane
  /-- The host is asked on behalf of live lanes only. -/
  requests : Relation.ReflTransGen (batch.Requested machine.live) host
    (machine.stepAt batch host).2
  /-- A failure that names a lane names a live one, which brought it about. -/
  failures : ∀ failure lane, (machine.stepAt batch host).1 = .error failure →
    failure.lane? = some lane → machine.live.get lane = true ∧
      ∃ instruction, machine.upcoming = .ok instruction ∧
        machine.AtFault batch lane instruction failure

theorem Sound.stepAt_memory (sound : machine.Sound batch.program) {host later : σ}
    {flow : Flow} (stepped : machine.stepAt batch host = (.ok flow, later)) :
    ∃ instruction, machine.upcoming = .ok instruction ∧
      ∀ bank position lane,
        (bank = .local → position < machine.current.floor ∧
          position < flow.machine.current.floor) →
        (flow.machine.cell bank position).get lane ≠
          (machine.cell bank position).get lane →
        machine.live.get lane = true ∧
          machine.addressed instruction bank position lane := by
  have yields := stepAt_yields sound host
  rw [stepped] at yields
  obtain ⟨instruction, decoded, effect⟩ := yields
  refine ⟨instruction, decoded, fun bank position lane framed differs => ?_⟩
  have result := effect.changed (sound.advanced decoded) framed (by
    cases bank <;> exact differs)
  cases instruction <;> exact result

/-- Reading an instruction finds no fault with lanes. -/
theorem fetch_impartial : Impartial machine.fetch := by
  cases decoded : machine.upcoming with
  | error malformed =>
      refine .of_yields (fetch_of_malformed decoded) ?_
      rintro failure (rfl | ⟨_, shared⟩)
      · rfl
      · exact shared
  | ok instruction =>
      rw [fetch_of_decoded decoded]
      exact .ite rfl

theorem Sound.stepAt_failure (sound : machine.Sound batch.program) {host : σ}
    {failure : Failure} {lane : Lane}
    (stepped : (machine.stepAt batch host).1 = .error failure)
    (named : failure.lane? = some lane) :
    machine.live.get lane = true ∧ ∃ instruction, machine.upcoming = .ok instruction ∧
      machine.AtFault batch lane instruction failure := by
  rw [stepAt_eq] at stepped
  cases fetched : machine.fetch with
  | error refusal =>
      rw [fetched] at stepped
      cases stepped
      have shared := Yields.of_error fetch_impartial fetched
      rw [shared] at named
      cases named
  | ok read =>
      rcases read with ⟨instruction, advanced⟩
      rw [fetched] at stepped
      obtain ⟨decoded, rfl⟩ := fetch_eq_ok fetched
      have moved := sound.advanced decoded
      have blames := (execute_blames moved.fits moved.predicates instruction host).of_error
        stepped
      obtain ⟨live, atFault⟩ := blames lane named
      refine ⟨live, instruction, decoded, ?_⟩
      cases atFault with
      | divisor inRange zero =>
          exact .divisor inRange zero
      | gathered outside =>
          exact .gathered outside
      | scattered outside =>
          exact .scattered outside
      | clamped outside =>
          exact .clamped outside

/-- A step of a sound machine is masked. -/
theorem Sound.maskedStep (sound : machine.Sound batch.program) (host : σ) :
    machine.MaskedStep batch host where
  memory := fun _ _ stepped => sound.stepAt_memory stepped
  requests := by
    rw [stepAt_eq]
    cases fetched : machine.fetch with
    | error failure =>
        exact .refl
    | ok read =>
        rcases read with ⟨instruction, advanced⟩
        obtain ⟨_, rfl⟩ := fetch_eq_ok fetched
        exact @execute_requests σ batch (machine.advanced instruction) instruction host
  failures := fun _ _ stepped named => sound.stepAt_failure stepped named

end Machine

/-! ## Calls -/

namespace Linked

/-- Every step of every call is masked. -/
theorem steps_are_masked (linked : Linked σ) (invocation : Invocation)
    (function : Function) (firstElement lanes : Nat) (machine : Machine) (host : σ)
    (occurs : linked.Occurs invocation function firstElement lanes machine) :
    machine.MaskedStep (linked.batch invocation firstElement) host :=
  occurs.serves.sound.maskedStep host

/--
A function that does three things in the lanes in which its first argument is
true: it stores a number, hands the argument to the host, and divides the
argument by its second one.
-/
def audit : Function where
  name := "audit"
  parameterCount := 2
  localCount := 1
  stackCount := 2
  conditionDepth := 1
  parameters := [{ slotCount := 1 }, { slotCount := 1 }]
  code := (Instruction.load .local 1 0).encode ++ Instruction.maskPush.encode ++
    (Instruction.compute (.immediate 7)).encode ++ (Instruction.store .local 1 2).encode ++
    (Instruction.load .local 1 0).encode ++ (Instruction.writeExternal 1 0).encode ++
    (Instruction.load .local 2 0).encode ++ (Instruction.divide .quotientU 1).encode ++
    Instruction.maskPop.encode ++ (Instruction.ret 0).encode

/-- The function `audit` with a host that notes the elements it is asked for. -/
def auditing : Linked (List Nat) where
  program := { functions := [audit] }
  externals := [{ write := fun element _ => modify (element :: ·) }]

/-- The machines that take a step in a call of `audit`, with the hosts that they find. -/
def auditMoments : List (Machine × List Nat) :=
  (Machine.booted audit 3 (.blank globalCapacity)
    [packWords [1, 0, 1], packWords [5, 0, 0]]).moments
      (auditing.batch ⟨0, [], none⟩ 8) 8 []

theorem occurs_audit {moment : Machine × List Nat} (member : moment ∈ auditMoments) :
    auditing.Occurs ⟨0, [], none⟩ audit 8 3 moment.1 :=
  occurs_iff.mpr ⟨some 0, [packWords [1, 0, 1], packWords [5, 0, 0]],
    .blank globalCapacity, by decide, rfl, Machine.reaches_of_moment member⟩

/--
Three steps of a call of `audit`, under a scope in which the middle one of three
lanes is idle: a store, a request to the host, and a division that fails.  The
divisor is zero in the last two lanes, and only the live one of them is blamed.
-/
theorem steps_are_masked_audit :
    ∃ storing asking dividing : Machine,
      (storing.live.active = [0, 2] ∧
        (∃ flow, storing.stepAt (auditing.batch ⟨0, [], none⟩ 8) [] = (.ok flow, []) ∧
          ∀ lane, (flow.machine.cell .local 2).get lane ≠
            (storing.cell .local 2).get lane ↔ lane = 0 ∨ lane = 2) ∧
        storing.MaskedStep (auditing.batch ⟨0, [], none⟩ 8) []) ∧
      (asking.live.active = [0, 2] ∧
        (asking.stepAt (auditing.batch ⟨0, [], none⟩ 8) []).2 = [10, 8] ∧
        asking.MaskedStep (auditing.batch ⟨0, [], none⟩ 8) []) ∧
      (dividing.live.active = [0, 2] ∧
        (∃ failure, (dividing.stepAt (auditing.batch ⟨0, [], none⟩ 8) [10, 8]).1 =
          .error failure ∧ failure.lane? = some 2) ∧
        dividing.MaskedStep (auditing.batch ⟨0, [], none⟩ 8) [10, 8]) := by
  obtain ⟨storing, stored, stores⟩ := List.any_eq_true.mp
    (by decide +kernel : auditMoments.any (fun moment =>
      decide (moment.1.live.active = [0, 2]) &&
        match moment.1.stepAt (auditing.batch ⟨0, [], none⟩ 8) [] with
        | (.ok flow, later) => decide (later = [] ∧
            ∀ lane, (flow.machine.cell .local 2).get lane ≠
              (moment.1.cell .local 2).get lane ↔ lane = 0 ∨ lane = 2)
        | (.error _, _) => false) = true)
  obtain ⟨asking, asked, asks⟩ := List.any_eq_true.mp
    (by decide +kernel : auditMoments.any (fun moment =>
      decide (moment.1.live.active = [0, 2] ∧
        (moment.1.stepAt (auditing.batch ⟨0, [], none⟩ 8) []).2 = [10, 8])) = true)
  obtain ⟨dividing, divided, divides⟩ := List.any_eq_true.mp
    (by decide +kernel : auditMoments.any (fun moment =>
      decide (moment.1.live.active = [0, 2]) &&
        match moment.1.stepAt (auditing.batch ⟨0, [], none⟩ 8) [10, 8] with
        | (.ok _, _) => false
        | (.error failure, _) => decide (failure.lane? = some 2)) = true)
  obtain ⟨storingLive, changes⟩ := Bool.and_eq_true_iff.mp stores
  obtain ⟨askingLive, noted⟩ := of_decide_eq_true asks
  obtain ⟨dividingLive, fails⟩ := Bool.and_eq_true_iff.mp divides
  refine ⟨storing.1, asking.1, dividing.1,
    ⟨of_decide_eq_true storingLive, ?_, steps_are_masked _ _ _ _ _ _ _ (occurs_audit stored)⟩,
    ⟨askingLive, noted, steps_are_masked _ _ _ _ _ _ _ (occurs_audit asked)⟩,
    ⟨of_decide_eq_true dividingLive, ?_,
      steps_are_masked _ _ _ _ _ _ _ (occurs_audit divided)⟩⟩
  · split at changes
    · rename_i flow later stepped
      obtain ⟨rfl, lanes⟩ := of_decide_eq_true changes
      exact ⟨flow, stepped, lanes⟩
    · cases changes
  · split at fails
    · cases fails
    · rename_i failure later stepped
      exact ⟨failure, congrArg Prod.fst stepped, of_decide_eq_true fails⟩

end Linked

end Lockstep
