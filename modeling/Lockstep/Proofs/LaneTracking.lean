import Lockstep.Proofs.Shadows

/-!
# Structured code follows its lanes

Every block does to a whole machine what it does to its lanes on their own.
The proof is by induction on the block; here are the instructions, sequences,
calls and conditionals.  A part of a block that a lane does not take part in is
passed through by its machine without watching any lane, or passed over
altogether where the code allows.

Behind the second part of a conditional, a lane has sensible results only of
the part that it took, and a blend reads no others.
-/

namespace Lockstep

variable {σ : Type}

theorem Flow.Mirrors.machine {image : Lane → Option Lane} {clean : Nat → Prop}
    {flow answer : Flow} (mirrors : Flow.Mirrors image clean flow answer) :
    flow.machine.Mirrors image clean answer.machine := by
  cases flow with
  | next left =>
      cases answer with
      | next right =>
          exact mirrors
      | done right answers =>
          exact mirrors.elim
  | done left returned =>
      cases answer with
      | next right =>
          exact mirrors.elim
      | done right answers =>
          exact mirrors.1

/-! ## Instructions -/

namespace Machine

variable {program : Program} {clean : Nat → Prop} {who : Option Lane}
variable {whole own final last : Machine} {entry : Nat} {batch : Batch σ}

theorem Twins.carry_follows (twins : Twins program clean who whole own)
    (sound : whole.Sound program) {instruction : Instruction}
    (room : whole.current.offset + instruction.width ≤
      whole.current.function.code.length)
    (stays : instruction.stays = true) (frame : whole.CleanFrame clean)
    (exposed : whole.Exposes clean instruction.taken) :
    Follows (watching who) (Flow.Mirrors (watching who) clean)
      ((whole.advanced instruction).carry batch instruction)
      ((own.advanced instruction).carry batch instruction) := by
  have moved : (whole.advanced instruction).Sound program := sound.jumped room
  exact Machine.carry_follows moved.fits (twins.mirrors.advanced instruction) twins.covers
    frame stays exposed

/-- Where nothing is taken, nothing has to be clean. -/
theorem exposes_none (clean : Nat → Prop) : whole.Exposes clean 0 := by
  intro position above _ below
  omega

theorem Tidy.frame (tidy : whole.Tidy entry clean) : whole.CleanFrame clean :=
  fun position above below => tidy position (Or.inl ⟨above, below⟩)

theorem Tidy.exposes (tidy : whole.Tidy entry clean) {count : Nat}
    (level : whole.current.floor = entry ∨ entry ≤ whole.top - count) :
    whole.Exposes clean count := by
  intro position above operand _
  apply tidy position (Or.inr _)
  omega

theorem Frames.tidy {touched : Mask} {lower higher : Nat}
    (frames : Frames program touched lower whole final) (tidy : whole.Tidy entry clean)
    (above : entry ≤ higher) : final.Tidy higher clean := by
  intro position placed
  rw [frames.base, frames.floor] at placed
  exact tidy position (placed.imp_right fun inside => Nat.le_trans above inside)

theorem Shadows.lower {higher : Nat} (shadows : Shadows program higher clean who whole own)
    (below : entry ≤ higher) : Shadows program entry clean who whole own :=
  shadows.mono fun _ _ held =>
    ⟨held.1, held.2.imp_right fun under => Nat.lt_of_lt_of_le under below⟩

end Machine

/-- What is known of two machines once they have carried out an instruction in step. -/
structure Stayed (program : Program) (instruction : Instruction) (lanes : Mask)
    (before : Option Lane → Machine → Prop) (clean : Option Lane → Nat → Prop)
    (whole final : Machine) (who : Option Lane) (last : Machine) : Prop where
  heeds : Heeds lanes who
  acted : Machine.Acted program instruction whole final
  mirrors : final.Mirrors (watching who) (clean who) last
  own : ∃ own, before who own ∧ Machine.Acted program instruction own last

/-- An instruction that goes on behind itself. -/
theorem Tracks.stays {batch : Batch σ} {instruction : Instruction} {lanes : Mask}
    {before : Option Lane → Machine → Prop} {clean : Option Lane → Nat → Prop}
    {whole : Machine} (stays : instruction.stays = true)
    (sound : whole.Sound batch.program)
    (room : whole.current.offset + instruction.width ≤
      whole.current.function.code.length)
    (narrow : whole.live.Within lanes)
    (twins : ∀ who own, Heeds lanes who → before who own →
      Machine.Twins batch.program (clean who) who whole own)
    (frame : ∀ who, whole.CleanFrame (clean who))
    (exposed : ∀ who, whole.Exposes (clean who) instruction.taken) :
    Tracks lanes before (Stayed batch.program instruction lanes before clean whole)
      (Machine.act batch instruction) whole := by
  have isInner := instruction.inner_of_stays stays
  refine @Tracks.act σ _ _ _ _ batch instruction
    (fun who _ final last => final.Mirrors (watching who) (clean who) last)
    sound room narrow ?_ ?_
  · intro who own heeds given
    exact ((twins who own heeds given).carry_follows sound room stays (frame who)
      (exposed who)).mono fun _ _ => (·.machine)
  · intro final who own last ran heeds given ownRan mirrors
    have pair := twins who own heeds given
    have ownRoom : own.current.offset + instruction.width ≤
        own.current.function.code.length := by
      rw [pair.mirrors.current]
      exact room
    exact ⟨heeds, Machine.act_acted sound room isInner ran, mirrors, own, given,
      Machine.act_acted pair.solo.sound ownRoom isInner ownRan⟩

namespace Block

open Machine

variable {program : Program} {batch : Batch σ} {place : Place} {run : Conduct} {limit : Nat}

/-- A block that keeps its frame tracks its lanes if the machines mirror each other. -/
theorem tracked_of_mirrors {block : Block} {conduct : Conduct}
    (runs : block.Runs program place conduct)
    (tracks : ∀ entry whole (clean : Option Lane → Nat → Prop),
      whole.Ready program block entry → (∀ who, whole.Tidy entry (clean who)) →
        Tracks whole.live (fun who => Shadows program entry (clean who) who whole)
          (fun final who last => final.Mirrors (watching who)
            (fun position => clean who position ∧
              (last.live.any = true ∨ position < entry)) last) conduct whole) :
    block.Tracked program conduct := by
  intro entry whole clean ready tidy
  refine (tracks entry whole clean ready tidy).imp (fun _ _ _ shadows => shadows) ?_
  intro final who own last _ _ shadows ownRan mirrors
  have ran := runs entry own last (shadows.ready ready) ownRan
  exact ⟨ran.toFrames.solo shadows.solo, mirrors,
    fun unwatched => ran.live.any (shadows.idle unwatched)⟩

/-- A block of one instruction. -/
theorem tracked_single {block : Block} {instruction : Instruction}
    (size : block.size = instruction.width) (stays : instruction.stays = true)
    (enough : ∀ height, (block.effect batch.program.functions height).isSome →
      instruction.taken ≤ height)
    (runs : block.Runs batch.program place (Machine.act batch instruction)) :
    block.Tracked batch.program (Machine.act batch instruction) := by
  refine tracked_of_mirrors runs ?_
  intro entry whole clean ready tidy
  have room := ready.room
  rw [size] at room
  have exposed : ∀ who, whole.Exposes (clean who) instruction.taken := by
    intro who
    apply (tidy who).exposes
    have level := ready.level
    rcases ready.known with atFloor | known
    · exact Or.inl atFloor.symm
    · have taken := enough _ known
      omega
  refine (Tracks.stays stays ready.sound room (.refl _)
    (fun who own heeds shadows => Shadows.twins shadows heeds)
    (fun who => (tidy who).frame) exposed).relax ?_
  intro final who last stayed
  exact stayed.mirrors.mono fun _ _ held => held.1

theorem tracked_plain {instruction : Instruction} (isPlain : instruction.plain = true) :
    (plain instruction).Tracked batch.program (Machine.act batch instruction) := by
  have stays := (instruction.stays_of_plain isPlain).1
  refine @tracked_single σ batch .outside (plain instruction) _ rfl stays ?_
    (runs_plain isPlain)
  intro height known
  obtain ⟨result, effect⟩ := Option.isSome_iff_exists.mp known
  exact (effect_plain effect).1

/-! ## Sequences, guards and calls -/

variable {first second body otherwise : Block}

theorem tracked_seq (firstRuns : first.Runs program place (first.exec batch run limit))
    (secondRuns : second.Runs program place (second.exec batch run limit))
    (firstTracked : first.Tracked program (first.exec batch run limit))
    (secondTracked : second.Tracked program (second.exec batch run limit)) :
    (seq first second).Tracked program ((seq first second).exec batch run limit) := by
  intro entry whole clean ready tidy
  refine Tracks.bind (firstTracked entry whole clean (ready_first ready) tidy) ?_
  intro reached begun
  have ran := firstRuns entry whole reached (ready_first ready) begun
  exact secondTracked.within secondRuns (ready_second ready ran)
    (fun who => ran.toFrames.tidy (tidy who) (Nat.le_refl _)) ran.live

/-- A block that is passed over where no lane is live. -/
theorem tracked_unlessIdle {block : Block} {conduct : Conduct} {skip : Machine → Machine}
    (runs : block.Runs program place (conduct.unlessIdle skip))
    (still : ∀ entry before after, before.Ready program block entry →
      conduct.unlessIdle skip before = .ok after → after.top = before.top)
    (goes : ∀ entry whole (clean : Option Lane → Nat → Prop),
      whole.Ready program block entry → (∀ who, whole.Tidy entry (clean who)) →
        whole.live.any = true → Tracks whole.live
          (fun who own => Shadows program entry (clean who) who whole own ∧
            own.live.any = true)
          (fun final who => Shadows program entry (clean who) who final) conduct whole) :
    block.Tracked program (conduct.unlessIdle skip) := by
  intro entry whole clean ready tidy
  refine Tracks.unlessIdle (.refl _) (fun who own shadows => shadows.any_iff)
    (goes entry whole clean ready tidy) ?_
  intro final ran who own _ shadows idle
  have ownReady := shadows.ready ready
  have ownRan := @Conduct.unlessIdle_idle conduct skip own idle
  refine shadows.passed idle ready.level (runs entry whole final ready ran)
    (runs entry own _ ownReady ownRan) ?_
  rw [still entry own _ ownReady ownRan, still entry whole final ready ran]
  exact shadows.mirrors.top

theorem tracked_guarded (bodyRuns : body.Runs program place (body.exec batch run limit))
    (bodyTracked : body.Tracked program (body.exec batch run limit))
    (gives : body.Gives program.functions 0) :
    (guarded body).Tracked program ((guarded body).exec batch run limit) := by
  have runs := runs_guarded bodyRuns gives
  refine tracked_unlessIdle runs ?_ ?_
  · intro entry before after ready ran
    have level := ready.level
    have top := (runs entry before after ready ran).height _ rfl
    omega
  · intro entry whole clean ready tidy _
    have room := ready.room
    unfold size at room
    have jumps : Tracks whole.live
        (fun who own => Shadows program entry (clean who) who whole own ∧
          own.live.any = true)
        (fun moved who => Shadows program whole.top (clean who) who moved)
        (fun machine => .ok (machine.jumped (machine.current.offset + 3))) whole := by
      apply Tracks.pure
      rintro who own heeds ⟨shadows, _⟩
      rw [shadows.mirrors.current]
      exact ((shadows.twins heeds).jumped (by omega)).shadows _
    refine Tracks.bind jumps ?_
    rintro _ ⟨⟩
    refine (bodyTracked _ _ clean (ready_guarded ready gives) ?_).relax ?_
    · intro who position placed
      exact tidy who position (placed.imp_right (Nat.le_trans ready.level))
    · intro final who last shadows
      exact Shadows.lower shadows ready.level

theorem tracked_call (returns : run.Returns batch.program)
    (runTracked : run.Tracked batch.program) (function : UInt8) (limit : Nat) :
    (call function).Tracked batch.program (exec batch run limit (call function)) := by
  have runs : (call function).Runs batch.program .outside
      (exec batch run limit (call function)) := runs_call returns function limit
  have still : ∀ entry before after, before.Ready batch.program (call function) entry →
      exec batch run limit (call function) before = .ok after →
        after.top = before.top := by
    intro entry before after ready ran
    have both : Ran batch.program .outside _ _ _ _ ∧ _ := ran_call returns ready ran
    exact both.2
  refine tracked_unlessIdle runs still ?_
  intro entry whole clean ready tidy live
  have sound := ready.sound
  have level := ready.level
  have room : whole.current.offset + (Instruction.call function).width ≤
    whole.current.function.code.length := ready.room
  have moved : (whole.advanced (.call function)).Sound batch.program := sound.jumped room
  have enters : Tracks whole.live
      (fun who own => Shadows batch.program entry (clean who) who whole own ∧
        own.live.any = true)
      (fun called who => Twins batch.program (clean who) who called)
      (Machine.act batch (.call function)) whole := by
    refine @Tracks.act σ _ _ _ _ batch (.call function)
      (fun who _ final last => final.Mirrors (watching who) (clean who) last)
      sound room (.refl _) ?_ ?_
    · rintro who own heeds ⟨shadows, awake⟩
      have mirrors := (shadows.twins heeds).mirrors.advanced (.call function)
      rw [@carry_call _ (whole.advanced (.call function)) _ _ live,
        @carry_call _ (own.advanced (.call function)) _ _ awake]
      exact (Follows.next (invoke_follows mirrors _ _)).mono fun _ _ => (·.machine)
    · rintro final who own last ran heeds ⟨shadows, awake⟩ ownRan mirrors
      obtain ⟨callee, calls, rfl⟩ := act_called awake ownRan
      have ownRoom : own.current.offset + (Instruction.call function).width ≤
          own.current.function.code.length := by
        rw [shadows.mirrors.current]
        exact room
      have ownMoved : (own.advanced (.call function)).Sound batch.program :=
        shadows.solo.sound.jumped ownRoom
      refine ⟨⟨ownMoved.called calls, shadows.solo.occupied⟩, mirrors, fun unwatched => ?_⟩
      exact shadows.idle unwatched
  refine Tracks.bind enters ?_
  intro called acted
  obtain ⟨callee, calls, rfl⟩ := act_called live acted
  have present : whole.current.floor + callee.parameterCount ≤ whole.top := calls.present
  have above : entry ≤ whole.top - callee.parameterCount := by
    rcases ready.known with atFloor | known
    · omega
    · have enough := effect_call calls.known known
      omega
  refine (runTracked _ clean (moved.called calls) rfl (by rintro ⟨⟩) ?_).relax ?_
  · intro who position placed
    apply tidy who position (Or.inr _)
    change (whole.top - callee.parameterCount ≤ position ∧ _) ∨
      whole.top - callee.parameterCount + callee.frameSize ≤ position at placed
    omega
  · intro final who last twins
    exact Twins.shadows twins entry

/-! ## Conditionals -/

variable {entry count : Nat} {whole : Machine} {clean : Option Lane → Nat → Prop}
variable {bodyConduct otherwiseConduct : Conduct}

/-- The condition of a conditional is clean. -/
theorem exposes_condition {block : Block} {result : Nat → Nat}
    (branches : block.Branches program.functions result)
    (ready : whole.Ready program block entry) {clean : Nat → Prop}
    (tidy : whole.Tidy entry clean) : whole.Exposes clean 1 := by
  apply tidy.exposes
  rcases ready.known with atFloor | known
  · exact Or.inl atFloor.symm
  · have enough := branches.opens known
    omega

/-- The first part of a conditional. -/
theorem side_tracked (bodyRuns : body.Runs batch.program place bodyConduct)
    (bodyTracked : body.Tracked batch.program bodyConduct)
    (gives : body.Gives batch.program.functions count)
    (sound : whole.Sound batch.program)
    (room : whole.current.offset + (1 + body.size) ≤ whole.current.function.code.length)
    (level : whole.current.floor + 1 ≤ whole.top → entry ≤ whole.top - 1)
    (tidy : ∀ who, whole.Tidy entry (clean who))
    (exposed : ∀ who, whole.Exposes (clean who) 1) :
    Tracks whole.live (fun who => Shadows batch.program entry (clean who) who whole)
      (fun done who => Shadows batch.program (whole.top - 1) (clean who) who done)
      (side batch bodyConduct) whole := by
  have width : Instruction.maskPush.width = 1 := rfl
  refine Tracks.bind (Tracks.stays rfl sound (by omega) (.refl _)
    (fun who own heeds shadows => Shadows.twins shadows heeds)
    (fun who => (tidy who).frame) exposed) ?_
  intro opened pushed
  have acted := Machine.act_single sound rfl (by omega) rfl pushed
  have below := level acted.present
  refine (bodyTracked.within bodyRuns (ready_side acted (by omega) gives)
    (fun who => acted.toFrames.tidy (tidy who) below)
    (acted.opened place below).live).given ?_
  intro who own stayed
  obtain ⟨origin, shadows, ownActed⟩ := stayed.own
  have inside := ownActed.opened .outside (Nat.le_refl _)
  exact Twins.shadows ⟨ownActed.toFrames.solo shadows.solo, stayed.mirrors,
    fun unwatched => inside.live.any (shadows.idle unwatched)⟩ _

/-- The end of a conditional without results. -/
theorem popped_tracked {bytes : Nat} {done : Machine}
    (inside : Sided batch.program place entry bytes 0 whole done)
    (room : whole.current.offset + bytes < whole.current.function.code.length)
    (tidy : ∀ who, whole.Tidy entry (clean who)) :
    Tracks whole.live
      (fun who => Shadows batch.program (whole.top - 1) (clean who) who done)
      (fun final who last => final.Mirrors (watching who)
        (fun position => clean who position ∧
          (last.live.any = true ∨ position < entry)) last)
      (Machine.act batch .maskPop) done := by
  have tidyDone : ∀ who, done.Tidy entry (clean who) := fun who =>
    inside.toFrames.tidy (tidy who) (Nat.le_refl _)
  refine (Tracks.stays rfl inside.sound ?_ inside.live
    (fun who own _ shadows => Shadows.level shadows (Nat.le_of_eq inside.top))
    (fun who => (tidyDone who).frame) fun who => exposes_none _).relax ?_
  · rw [inside.offset, inside.function]
    exact room
  · intro final who last stayed
    exact stayed.mirrors.mono fun _ _ held => held.1

theorem tracked_when (bodyRuns : body.Runs batch.program place (body.exec batch run limit))
    (bodyTracked : body.Tracked batch.program (body.exec batch run limit))
    (gives : body.Gives batch.program.functions 0) :
    (when body).Tracked batch.program ((when body).exec batch run limit) := by
  refine tracked_of_mirrors (runs_when bodyRuns gives) ?_
  intro entry whole clean ready tidy
  have room := ready.room
  unfold size at room
  have level := (branches_when batch.program.functions).below ready
  refine Tracks.bind (side_tracked bodyRuns bodyTracked gives ready.sound (by omega) level
    tidy fun who => exposes_condition (branches_when _) ready (tidy who)) ?_
  intro done ran
  exact popped_tracked (side_sided bodyRuns gives ready.sound (by omega) level ran)
    (by omega) tidy

/-- The condition of the innermost scope. -/
def condition (machine : Machine) : Mask :=
  match machine.predicates.scopes with
  | [] => .none
  | scope :: _ => scope.condition

theorem condition_of_scopes {machine : Machine} {scope : Scope} {outer : List Scope}
    (scopes : machine.predicates.scopes = scope :: outer) :
    condition machine = scope.condition := by
  rw [condition, scopes]

/-- The watched lane is in the loop and meets the condition of the innermost scope. -/
def Took (who : Option Lane) (machine : Machine) : Prop :=
  ∃ lane, who = some lane ∧ (condition machine).get lane = true ∧
    machine.predicates.running.get lane = true

/--
What is clean behind the first part of a conditional.  Its results, between
two heights, are clean only in lanes that have taken it up to its end.
-/
def HalfClean (low high : Nat) (clean : Nat → Prop) (who : Option Lane)
    (machine : Machine) (position : Nat) : Prop :=
  clean position ∧ (position < low ∨ high ≤ position ∨ Took who machine)

/-- A machine in the first part of a conditional. -/
theorem side_scopes {done : Machine} (bodyRuns : body.Runs batch.program place bodyConduct)
    (gives : body.Gives batch.program.functions count)
    (sound : whole.Sound batch.program)
    (room : whole.current.offset + (1 + body.size) ≤ whole.current.function.code.length)
    (ran : side batch bodyConduct whole = .ok done) :
    done.predicates.scopes =
      ⟨condition done, whole.predicates.mask.both (condition done)⟩ ::
        whole.predicates.scopes := by
  have scopes := scopes_side bodyRuns gives sound room ran
  rw [condition_of_scopes scopes]
  exact scopes

/-- A machine that has turned to the second part of a conditional. -/
theorem turned_scopes {done turned : Machine} {outer : List Scope} {mask : Mask}
    (acted : Machine.Acted program .maskNegate done turned)
    (scopes : done.predicates.scopes = ⟨condition done, mask⟩ :: outer) :
    turned.predicates.scopes =
        ⟨condition turned, (Predicates.maskWithin done.predicates.occupied outer).both
          (condition turned).complement⟩ :: outer ∧
      condition turned = condition done ∧
      turned.predicates.running = done.predicates.running := by
  obtain ⟨scope, around, nested, changed⟩ := acted.onScopes rfl rfl
  rw [scopes] at nested
  obtain ⟨rfl, rfl⟩ := List.cons.inj nested
  have same : condition turned = condition done :=
    condition_of_scopes (congrArg Predicates.scopes changed)
  rw [same, changed]
  exact ⟨rfl, rfl, rfl⟩

/-- A lane that has taken the first part of a conditional is live at its end. -/
theorem Took.live {done : Machine} {who : Option Lane}
    (scopes : done.predicates.scopes =
      ⟨condition done, whole.predicates.mask.both (condition done)⟩ ::
        whole.predicates.scopes)
    (heeds : Heeds whole.live who) (took : Took who done) :
    ∃ lane, who = some lane ∧ done.live.get lane = true := by
  obtain ⟨lane, rfl, meets, running⟩ := took
  have around := heeds lane rfl
  change (Lanes.both _ _).get lane = true at around
  refine ⟨lane, rfl, ?_⟩
  change (Lanes.both (Predicates.maskWithin _ done.predicates.scopes) _).get lane = true
  rw [scopes]
  simp only [Predicates.maskWithin, Lanes.get_both, Bool.and_eq_true] at around ⊢
  exact ⟨⟨around.1, meets⟩, running⟩

/-- The turn from the first part of a conditional to the second. -/
theorem negated_tracked {bytes : Nat} {done : Machine}
    (sided : Sided batch.program place entry bytes count whole done)
    (scopes : done.predicates.scopes =
      ⟨condition done, whole.predicates.mask.both (condition done)⟩ ::
        whole.predicates.scopes)
    (room : whole.current.offset + bytes < whole.current.function.code.length)
    (tidy : ∀ who, whole.Tidy entry (clean who)) :
    Tracks whole.live
      (fun who => Shadows batch.program (whole.top - 1) (clean who) who done)
      (fun turned who own => turned.Mirrors (watching who)
        (HalfClean (whole.top - 1) (whole.top - 1 + count) (clean who) who turned) own)
      (Machine.act batch .maskNegate) done := by
  have roomDone : done.current.offset + Instruction.maskNegate.width ≤
      done.current.function.code.length := by
    rw [sided.offset, sided.function]
    exact room
  refine (@Tracks.stays σ batch .maskNegate whole.live _
    (fun who position => clean who position ∧ (position < whole.top - 1 ∨
      whole.top - 1 + count ≤ position ∨
        ∃ lane, who = some lane ∧ done.live.get lane = true))
    done rfl sided.sound roomDone sided.live ?_ ?_ fun who => exposes_none _).relax ?_
  · intro who own _ shadows
    refine Twins.mono shadows ?_
    rintro position inside ⟨isClean, lower | upper | live⟩
    · exact ⟨isClean, Or.inr lower⟩
    · rw [sided.top] at inside
      omega
    · exact ⟨isClean, Or.inl ((Twins.any_iff shadows).mpr live)⟩
  · intro who position above inside
    have frame := (sided.toFrames.tidy (tidy who) (Nat.le_refl _)).frame
    have present := sided.present
    refine ⟨frame position above inside, Or.inl ?_⟩
    rw [sided.floor] at inside
    omega
  · intro turned who last stayed
    obtain ⟨_, sameCondition, sameRunning⟩ := turned_scopes stayed.acted scopes
    refine stayed.mirrors.mono ?_
    rintro position _ ⟨isClean, placed⟩
    refine ⟨isClean, placed.imp_right (Or.imp_right fun took => ?_)⟩
    unfold Took at took
    rw [sameCondition, sameRunning] at took
    exact Took.live scopes stayed.heeds took

/-- The first part of a conditional, up to where its scope is turned. -/
theorem half_tracked (bodyRuns : body.Runs batch.program place bodyConduct)
    (bodyTracked : body.Tracked batch.program bodyConduct)
    (gives : body.Gives batch.program.functions count)
    (sound : whole.Sound batch.program)
    (room : whole.current.offset + (1 + body.size + 1) ≤
      whole.current.function.code.length)
    (level : whole.current.floor + 1 ≤ whole.top → entry ≤ whole.top - 1)
    (tidy : ∀ who, whole.Tidy entry (clean who))
    (exposed : ∀ who, whole.Exposes (clean who) 1) :
    Tracks whole.live (fun who => Shadows batch.program entry (clean who) who whole)
      (fun turned who => Twins batch.program
        (HalfClean (whole.top - 1) (whole.top - 1 + count) (clean who) who turned) who
        turned)
      (half batch bodyConduct) whole := by
  have tracks : Tracks whole.live
      (fun who => Shadows batch.program entry (clean who) who whole)
      (fun turned who own => turned.Mirrors (watching who)
        (HalfClean (whole.top - 1) (whole.top - 1 + count) (clean who) who turned) own)
      (half batch bodyConduct) whole := by
    refine Tracks.bind (side_tracked bodyRuns bodyTracked gives sound (by omega) level tidy
      exposed) ?_
    intro done ran
    exact negated_tracked (side_sided bodyRuns gives sound (by omega) level ran)
      (side_scopes bodyRuns gives sound (by omega) ran) (by omega) tidy
  refine tracks.imp (fun _ _ _ shadows => shadows) ?_
  intro final who own last _ _ shadows ownRan mirrors
  have current := shadows.mirrors.current
  have top := shadows.mirrors.top
  have sided : Sided batch.program place entry _ _ own last :=
    half_sided bodyRuns gives shadows.solo.sound (by rw [current]; exact room)
      (by rw [current, top]; exact level) ownRan
  exact ⟨sided.toFrames.solo shadows.solo, mirrors,
    fun unwatched => sided.live.any (shadows.idle unwatched)⟩

/-- The two parts of a conditional. -/
theorem sides_tracked {rightCount : Nat}
    (bodyRuns : body.Runs batch.program place bodyConduct)
    (otherwiseRuns : otherwise.Runs batch.program place otherwiseConduct)
    (bodyTracked : body.Tracked batch.program bodyConduct)
    (otherwiseTracked : otherwise.Tracked batch.program otherwiseConduct)
    (gives : body.Gives batch.program.functions count)
    (givesOtherwise : otherwise.Gives batch.program.functions rightCount)
    (sound : whole.Sound batch.program)
    (room : whole.current.offset + (1 + body.size + 1 + otherwise.size) ≤
      whole.current.function.code.length)
    (level : whole.current.floor + 1 ≤ whole.top → entry ≤ whole.top - 1)
    (tidy : ∀ who, whole.Tidy entry (clean who))
    (exposed : ∀ who, whole.Exposes (clean who) 1) :
    Tracks whole.live (fun who => Shadows batch.program entry (clean who) who whole)
      (fun done who => Shadows batch.program (whole.top - 1 + count)
        (HalfClean (whole.top - 1) (whole.top - 1 + count) (clean who) who done) who done)
      (sides batch bodyConduct otherwiseConduct) whole := by
  refine Tracks.bind (half_tracked bodyRuns bodyTracked gives sound (by omega) level tidy
    exposed) ?_
  intro turned ran
  have sided := half_sided bodyRuns gives sound (by omega) level ran
  have ready := ready_otherwise sided room givesOtherwise
  have below := sided.below
  have present := sided.present
  have tidyTurned : ∀ who, turned.Tidy (whole.top - 1 + count)
      (HalfClean (whole.top - 1) (whole.top - 1 + count) (clean who) who turned) := by
    intro who position placed
    have isClean := sided.toFrames.tidy (tidy who) (show entry ≤ _ by omega) position placed
    refine ⟨isClean, ?_⟩
    rw [sided.floor] at placed
    omega
  refine (otherwiseTracked.within otherwiseRuns ready tidyTurned sided.live).imp
    (fun who own _ twins => Twins.shadows twins _) ?_
  intro final who own last ranOtherwise _ _ _ shadows
  have kept := (otherwiseRuns _ _ _ ready ranOtherwise).toKept
  refine Twins.mono shadows ?_
  rintro position _ ⟨⟨isClean, placed⟩, reached⟩
  refine ⟨⟨isClean, placed.imp_right (Or.imp_right ?_)⟩, reached⟩
  rintro ⟨lane, watched, meets, running⟩
  refine ⟨lane, watched, ?_, kept.loops.running lane running⟩
  unfold condition at meets ⊢
  rw [kept.scopes] at meets
  exact meets

theorem tracked_choose
    (bodyRuns : body.Runs batch.program place (body.exec batch run limit))
    (otherwiseRuns : otherwise.Runs batch.program place (otherwise.exec batch run limit))
    (bodyTracked : body.Tracked batch.program (body.exec batch run limit))
    (otherwiseTracked : otherwise.Tracked batch.program (otherwise.exec batch run limit))
    (gives : body.Gives batch.program.functions 0)
    (givesOtherwise : otherwise.Gives batch.program.functions 0) :
    (choose body otherwise).Tracked batch.program
      ((choose body otherwise).exec batch run limit) := by
  refine tracked_of_mirrors (runs_choose bodyRuns otherwiseRuns gives givesOtherwise) ?_
  intro entry whole clean ready tidy
  have room := ready.room
  unfold size at room
  have level := (branches_choose batch.program.functions).below ready
  refine Tracks.bind (sides_tracked bodyRuns otherwiseRuns bodyTracked otherwiseTracked
    gives givesOtherwise ready.sound (by omega) level tidy
    fun who => exposes_condition (branches_choose _) ready (tidy who)) ?_
  intro done ran
  refine (popped_tracked (sides_sided bodyRuns otherwiseRuns gives givesOtherwise
    ready.sound (by omega) level ran) (by omega) tidy).given ?_
  intro who own shadows
  refine Twins.mono shadows ?_
  rintro position _ ⟨isClean, placed⟩
  refine ⟨⟨isClean, ?_⟩, placed⟩
  omega

/-- A machine at the end of the second part of a conditional. -/
theorem sides_scopes {rightCount : Nat} {done : Machine}
    (bodyRuns : body.Runs batch.program place bodyConduct)
    (otherwiseRuns : otherwise.Runs batch.program place otherwiseConduct)
    (gives : body.Gives batch.program.functions count)
    (givesOtherwise : otherwise.Gives batch.program.functions rightCount)
    (sound : whole.Sound batch.program)
    (room : whole.current.offset + (1 + body.size + 1 + otherwise.size) ≤
      whole.current.function.code.length)
    (level : whole.current.floor + 1 ≤ whole.top → entry ≤ whole.top - 1)
    (ran : sides batch bodyConduct otherwiseConduct whole = .ok done) :
    done.predicates.scopes =
      ⟨condition done, whole.predicates.mask.both (condition done).complement⟩ ::
        whole.predicates.scopes := by
  have scopes := scopes_sides bodyRuns otherwiseRuns gives givesOtherwise sound room level ran
  rw [condition_of_scopes scopes]
  exact scopes

/-- A blend at the end of a conditional reads what each lane has taken. -/
theorem blendAgrees_sides {bytes : Nat} {done own : Machine} {who : Option Lane}
    (inside : Sided batch.program place entry bytes (count + count) whole done)
    (scopes : done.predicates.scopes =
      ⟨condition done, whole.predicates.mask.both (condition done).complement⟩ ::
        whole.predicates.scopes)
    (tidy : whole.Tidy entry (clean who)) (heeds : Heeds whole.live who)
    (shadows : Shadows batch.program (whole.top - 1 + count)
      (HalfClean (whole.top - 1) (whole.top - 1 + count) (clean who) who done) who done own) :
    BlendAgrees (watching who)
      (fun position => clean who position ∧ (position < whole.top - 1 ∨
        ∃ lane, who = some lane ∧ done.predicates.running.get lane = true))
      count done own := by
  intro scope outer nested step inRange isMarked lane target mapped
  obtain ⟨rfl, rfl⟩ := watching_eq_some.mp mapped
  rw [scopes] at nested
  obtain ⟨rfl, rfl⟩ := List.cons.inj nested
  have below := inside.below
  have top := inside.top
  have start : done.top - 2 * count = whole.top - 1 := by omega
  rw [start] at isMarked ⊢
  have running : done.predicates.running.get lane = true := by
    rcases isMarked.2 with lower | ⟨_, ⟨⟩, running⟩
    · omega
    · exact running
  have isClean : ∀ position, whole.top - 1 ≤ position → clean (some lane) position := by
    intro position above
    exact tidy position (Or.inr (Nat.le_trans below above))
  dsimp only
  by_cases meets : (condition done).get lane = true
  · rw [if_pos meets]
    refine shadows.mirrors.locals _ ⟨⟨isClean _ (by omega), Or.inr (Or.inr ?_)⟩, Or.inr ?_⟩
      (by omega) lane 0 mapped
    · exact ⟨lane, rfl, meets, running⟩
    · omega
  · rw [if_neg meets]
    refine shadows.mirrors.locals _ ⟨⟨isClean _ (by omega), Or.inr (Or.inl (by omega))⟩,
      Or.inl ((Twins.any_iff shadows).mpr ⟨lane, rfl, ?_⟩)⟩ (by omega) lane 0 mapped
    have around := heeds lane rfl
    change (Lanes.both _ _).get lane = true at around
    change (Lanes.both (Predicates.maskWithin _ done.predicates.scopes) _).get lane = true
    rw [scopes]
    simp only [Predicates.maskWithin, Lanes.get_both, Lanes.get_complement, Bool.and_eq_true,
      Bool.not_eq_true'] at around ⊢
    exact ⟨⟨around.1, (Bool.not_eq_true _).mp meets⟩, running⟩

theorem tracked_blend {count : UInt8}
    (bodyRuns : body.Runs batch.program place (body.exec batch run limit))
    (otherwiseRuns : otherwise.Runs batch.program place (otherwise.exec batch run limit))
    (bodyTracked : body.Tracked batch.program (body.exec batch run limit))
    (otherwiseTracked : otherwise.Tracked batch.program (otherwise.exec batch run limit))
    (gives : body.Gives batch.program.functions count.toNat)
    (givesOtherwise : otherwise.Gives batch.program.functions count.toNat) :
    (blend count body otherwise).Tracked batch.program
      ((blend count body otherwise).exec batch run limit) := by
  refine tracked_of_mirrors (runs_blend bodyRuns otherwiseRuns gives givesOtherwise) ?_
  intro entry whole clean ready tidy
  have room := ready.room
  unfold size at room
  have level := (branches_blend batch.program.functions count).below ready
  refine Tracks.bind (sides_tracked bodyRuns otherwiseRuns bodyTracked otherwiseTracked
    gives givesOtherwise ready.sound (by omega) level tidy
    fun who => exposes_condition (branches_blend _ count) ready (tidy who)) ?_
  intro done ran
  have inside := sides_sided bodyRuns otherwiseRuns gives givesOtherwise ready.sound
    (by omega) level ran
  have scopes := sides_scopes bodyRuns otherwiseRuns gives givesOtherwise ready.sound
    (by omega) level ran
  have below := inside.below
  have top := inside.top
  have roomDone : done.current.offset + (Instruction.maskBlend count).width ≤
      done.current.function.code.length := by
    rw [inside.offset, inside.function]
    change _ + 2 ≤ _
    omega
  have moved : (done.advanced (.maskBlend count)).Sound batch.program :=
    inside.sound.jumped roomDone
  refine @Tracks.act σ _ _ _ _ batch (.maskBlend count)
    (fun who _ final last => final.Mirrors (watching who)
      (fun position => clean who position ∧ (position < whole.top - 1 ∨
        ∃ lane, who = some lane ∧ done.predicates.running.get lane = true)) last)
    inside.sound roomDone inside.live ?_ ?_
  · intro who own heeds shadows
    have mirrors := shadows.mirrors.advanced (.maskBlend count)
    have agrees := blendAgrees_sides inside scopes (tidy who) heeds shadows
    refine Follows.mono (Follows.next (blend_follows moved.fits mirrors ?_
      fun _ => agrees)) fun _ _ => (·.machine)
    rintro position lower ⟨isClean, _⟩
    change position < done.top - 2 * count.toNat at lower
    refine ⟨⟨isClean, Or.inl ?_⟩, Or.inr ?_⟩
    · omega
    · omega
  · intro final who own last ranBlend heeds shadows ownRan mirrors
    have acted := Machine.act_acted inside.sound roomDone rfl ranBlend
    have ownActed := Machine.act_acted shadows.solo.sound
      (by rw [shadows.mirrors.current]; exact roomDone) rfl ownRan
    have solo := ownActed.toFrames.solo shadows.solo
    obtain ⟨scope, outer, _, changed⟩ := acted.onScopes rfl rfl
    cases who with
    | none =>
        exact mirrors.unwatched
    | some lane =>
        refine mirrors.mono ?_
        rintro position _ ⟨isClean, live | lower⟩
        · rw [solo.any_eq, Mirrors.live_only mirrors] at live
          change (Lanes.both _ (Predicates.running _)).get lane = true at live
          rw [changed, Lanes.get_both, Bool.and_eq_true] at live
          exact ⟨isClean, Or.inr ⟨lane, rfl, live.2⟩⟩
        · exact ⟨isClean, Or.inl (Nat.lt_of_lt_of_le lower below)⟩

end Block

end Lockstep
