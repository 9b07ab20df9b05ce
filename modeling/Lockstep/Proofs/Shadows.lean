import Lockstep.Proofs.Blocks
import Lockstep.Proofs.SingleLane

/-!
# Following one lane of a chunk

The machine of a chunk goes on for as long as any lane does, while the machine
of one element, on its own, passes over what its only lane does not take part
in.  The two are compared lane by lane.  A lane is watched while it is live;
once it is not, its registers above the entry, its conditions and its inner
loops hold what nobody will read, and the machine on its own need only stand
at the same place: then no lane is watched.

`Machine.Twins` relates the two machines.  `Tracks` relates what some code
makes of them: where the whole machine comes to its end, so does each machine
on its own, and where the whole machine stops, a machine on its own stops in
the same way.  If any lane takes part, that is the machine of such a lane.
-/

namespace Lockstep

variable {σ : Type}

/-- The map that keeps the lane that is watched, if any, as the lowest one. -/
def watching : Option Lane → Lane → Option Lane
  | none => fun _ => none
  | some chosen => chosen.only

theorem watching_eq_some {who : Option Lane} {lane target : Lane} :
    watching who lane = some target ↔ who = some lane ∧ target = 0 := by
  cases who with
  | none =>
      simp [watching]
  | some chosen =>
      change chosen.only lane = some target ↔ _
      rw [Lane.only_eq_some, Option.some.injEq, eq_comm]

namespace Machine

/-- A whole machine and the machine that follows the watched lane. -/
structure Twins (program : Program) (clean : Nat → Prop) (who : Option Lane)
    (whole own : Machine) : Prop where
  solo : own.Solo program
  mirrors : whole.Mirrors (watching who) clean own
  idle : who = none → own.live.any = false

/-- Twins of which the one on its own need only be clean below the entry once it is idle. -/
def Shadows (program : Program) (entry : Nat) (clean : Nat → Prop) (who : Option Lane)
    (whole own : Machine) : Prop :=
  Twins program (fun position => clean position ∧ (own.live.any = true ∨ position < entry))
    who whole own

variable {program : Program} {clean cleaner : Nat → Prop} {who : Option Lane}
variable {whole own final last : Machine} {entry : Nat}

/-- Where no lane is watched, only the shape of the machines counts. -/
theorem Mirrors.unwatched {image : Lane → Option Lane}
    (mirrors : whole.Mirrors image clean own) :
    whole.Mirrors (watching none) cleaner own := by
  have shape : ∀ {α : Type} (left right : Lanes α), left.Mirrors (watching none) right :=
    fun _ _ _ _ => by rintro ⟨⟩
  refine ⟨mirrors.top, mirrors.current, mirrors.callers, ⟨shape _ _, ?_, ?_⟩,
    fun _ => shape _ _, fun _ _ _ => shape _ _⟩
  · exact mirrors.predicates.scopes.imp fun _ _ _ => ⟨shape _ _, shape _ _⟩
  · exact mirrors.predicates.loops.imp fun _ _ _ => ⟨shape _ _, shape _ _⟩

namespace Twins

theorem mono (twins : Twins program clean who whole own)
    (fewer : ∀ position, position < whole.top → cleaner position → clean position) :
    Twins program cleaner who whole own :=
  ⟨twins.solo, twins.mirrors.mono fewer, twins.idle⟩

/-- The machine on its own is live where the watched lane is. -/
theorem any_iff (twins : Twins program clean who whole own) :
    own.live.any = true ↔ ∃ lane, who = some lane ∧ whole.live.get lane = true := by
  cases who with
  | none =>
      rw [twins.idle rfl]
      simp
  | some chosen =>
      rw [twins.solo.any_eq, Mirrors.live_only twins.mirrors]
      simp

theorem idle_of_all (twins : Twins program clean who whole own)
    (idle : whole.live.any = false) : own.live.any = false := by
  cases awake : own.live.any with
  | false =>
      rfl
  | true =>
      obtain ⟨lane, _, live⟩ := twins.any_iff.mp awake
      rw [(Lanes.any_eq_true _).mpr ⟨lane, live⟩] at idle
      cases idle

theorem idle_of_watched {lane : Lane} (twins : Twins program clean (some lane) whole own)
    (idle : own.live.any = false) : whole.live.get lane = false := by
  cases live : whole.live.get lane with
  | false =>
      rfl
  | true =>
      rw [twins.any_iff.mpr ⟨lane, rfl, live⟩] at idle
      cases idle

theorem covers (twins : Twins program clean who whole own) :
    whole.live.Covers (watching who) own.live := by
  cases who with
  | none =>
      have idle := twins.idle rfl
      have empty : own.live.active = [] := by
        rw [List.eq_nil_iff_forall_not_mem]
        intro lane active
        rw [Lanes.mem_active] at active
        rw [(Lanes.any_eq_true _).mpr ⟨lane, active⟩] at idle
        cases idle
      unfold Lanes.Covers watching
      rw [empty, List.filterMap_none]
  | some chosen =>
      exact Mirrors.covers twins.mirrors twins.solo

/-- An idle machine is the twin of no lane in particular. -/
theorem unwatched (twins : Twins program clean who whole own)
    (idle : own.live.any = false) : Twins program cleaner none whole own :=
  ⟨twins.solo, twins.mirrors.unwatched, fun _ => idle⟩

theorem jumped (twins : Twins program clean who whole own)
    {target : Nat} (inside : target ≤ whole.current.function.code.length) :
    Twins program clean who (whole.jumped target) (own.jumped target) where
  solo := by
    refine ⟨twins.solo.sound.jumped ?_, twins.solo.occupied⟩
    rw [twins.mirrors.current]
    exact inside
  mirrors := twins.mirrors.jumped target
  idle := twins.idle

theorem shadows (twins : Twins program clean who whole own) (entry : Nat) :
    Shadows program entry clean who whole own :=
  twins.mono fun _ _ held => held.1

/-- Both machines are ready for a block at once. -/
theorem ready (twins : Twins program clean who whole own) {block : Block}
    (ready : whole.Ready program block entry) : own.Ready program block entry := by
  have current := twins.mirrors.current
  have top := twins.mirrors.top
  refine ⟨twins.solo.sound, ?_, ?_, ?_, ?_⟩
  · rw [current]
    exact ready.room
  · rw [current]
    exact ready.floor
  · rw [top]
    exact ready.level
  · rw [current, top]
    exact ready.known

end Twins

/-- While the watched lane is live, everything is clean. -/
theorem Shadows.twins (shadows : Shadows program entry clean who whole own)
    (awake : ∀ lane, who = some lane → whole.live.get lane = true) :
    Twins program clean who whole own := by
  cases who with
  | none =>
      exact shadows.unwatched (shadows.idle rfl)
  | some lane =>
      have live := shadows.any_iff.mpr ⟨lane, rfl, awake lane rfl⟩
      exact shadows.mono fun _ _ held => ⟨held, Or.inl live⟩

/-- Where the stack is down to the entry, everything is clean. -/
theorem Shadows.level (shadows : Shadows program entry clean who whole own)
    (level : whole.top ≤ entry) : Twins program clean who whole own :=
  shadows.mono fun _ below held => ⟨held, Or.inr (Nat.lt_of_lt_of_le below level)⟩

theorem Frames.solo {touched : Mask} (frames : Frames program touched entry own last)
    (solo : own.Solo program) : last.Solo program :=
  ⟨frames.sound, frames.occupied ▸ solo.occupied⟩

end Machine

/-! ## Tracking -/

/-- A watched lane is one of some lanes; no lane may be watched as well. -/
def Heeds (lanes : Mask) (who : Option Lane) : Prop :=
  ∀ lane, who = some lane → lanes.get lane = true

/-- A choice of whom to watch: one of some lanes if there are any. -/
def Speaks (lanes : Mask) (who : Option Lane) : Prop :=
  Heeds lanes who ∧ (who = none → lanes.any = false)

theorem heeds_none (lanes : Mask) : Heeds lanes none := by
  rintro _ ⟨⟩

theorem heeds_some {lanes : Mask} {lane : Lane} (inside : lanes.get lane = true) :
    Heeds lanes (some lane) := by
  rintro _ ⟨⟩
  exact inside

theorem Heeds.mono {lanes wider : Mask} {who : Option Lane} (heeds : Heeds lanes who)
    (within : lanes.Within wider) : Heeds wider who :=
  fun lane watched => within lane (heeds lane watched)

theorem exists_speaks (lanes : Mask) : ∃ who, Speaks lanes who := by
  cases held : lanes.any with
  | false =>
      exact ⟨none, heeds_none lanes, fun _ => held⟩
  | true =>
      obtain ⟨lane, inside⟩ := (Lanes.any_eq_true _).mp held
      exact ⟨some lane, heeds_some inside, by rintro ⟨⟩⟩

/--
Some code does to a whole machine what it does to the machines of its lanes
on their own, for the lanes of a mask.
-/
structure Tracks (lanes : Mask) (before : Option Lane → Machine → Prop)
    (after : Machine → Option Lane → Machine → Prop) (conduct : Conduct)
    (whole : Machine) : Prop where
  succeeds : ∀ final, conduct whole = .ok final → ∀ who, Heeds lanes who →
    ∀ own, before who own → ∃ last, conduct own = .ok last ∧ after final who last
  fails : ∀ stop, conduct whole = .error stop → ∃ who, Speaks lanes who ∧
    ∀ own, before who own → ∃ other, conduct own = .error other ∧ other.Alike stop

namespace Tracks

variable {lanes : Mask} {before stronger : Option Lane → Machine → Prop}
variable {middle after weaker : Machine → Option Lane → Machine → Prop}
variable {conduct next : Conduct} {whole : Machine}

theorem bind (begun : Tracks lanes before middle conduct whole)
    (continued : ∀ reached, conduct whole = .ok reached →
      Tracks lanes (middle reached) after next reached) :
    Tracks lanes before after (fun machine => conduct machine >>= next) whole := by
  constructor
  · intro final ran who heeds own related
    obtain ⟨reached, first, second⟩ := bind_eq_ok.mp ran
    obtain ⟨between, ownFirst, kept⟩ := begun.succeeds reached first who heeds own related
    obtain ⟨last, ownSecond, done⟩ :=
      (continued reached first).succeeds final second who heeds between kept
    exact ⟨last, bind_eq_ok.mpr ⟨between, ownFirst, ownSecond⟩, done⟩
  · intro stop ran
    cases first : conduct whole with
    | error other =>
        rw [first] at ran
        cases ran
        obtain ⟨who, speaks, stops⟩ := begun.fails _ first
        refine ⟨who, speaks, fun own related => ?_⟩
        obtain ⟨other, failed, alike⟩ := stops own related
        refine ⟨other, ?_, alike⟩
        rw [failed]
        rfl
    | ok reached =>
        rw [first] at ran
        obtain ⟨who, speaks, stops⟩ := (continued reached first).fails stop ran
        refine ⟨who, speaks, fun own related => ?_⟩
        obtain ⟨between, ownFirst, kept⟩ :=
          begun.succeeds reached first who speaks.1 own related
        obtain ⟨other, failed, alike⟩ := stops between kept
        refine ⟨other, ?_, alike⟩
        rw [ownFirst]
        exact failed

/-- What is known before may be strengthened, and what is known after relaxed. -/
theorem imp (tracks : Tracks lanes before after conduct whole)
    (given : ∀ who own, Heeds lanes who → stronger who own → before who own)
    (follows : ∀ final who own last, conduct whole = .ok final → Heeds lanes who →
      stronger who own → conduct own = .ok last → after final who last →
        weaker final who last) :
    Tracks lanes stronger weaker conduct whole := by
  constructor
  · intro final ran who heeds own related
    obtain ⟨last, ownRan, done⟩ :=
      tracks.succeeds final ran who heeds own (given who own heeds related)
    exact ⟨last, ownRan, follows final who own last ran heeds related ownRan done⟩
  · intro stop ran
    obtain ⟨who, speaks, stops⟩ := tracks.fails stop ran
    exact ⟨who, speaks, fun own related => stops own (given who own speaks.1 related)⟩

theorem given (tracks : Tracks lanes before after conduct whole)
    (holds : ∀ who own, stronger who own → before who own) :
    Tracks lanes stronger after conduct whole :=
  tracks.imp (fun who own _ => holds who own) fun _ _ _ _ _ _ _ _ done => done

theorem relax (tracks : Tracks lanes before after conduct whole)
    (follows : ∀ final who last, after final who last → weaker final who last) :
    Tracks lanes before weaker conduct whole :=
  tracks.imp (fun _ _ _ given => given) fun final who _ last _ _ _ _ => follows final who last

/-- Code that does the same to all machines concerned. -/
theorem congr (tracks : Tracks lanes before after conduct whole)
    (same : next whole = conduct whole)
    (ownSame : ∀ who own, before who own → next own = conduct own) :
    Tracks lanes before after next whole := by
  constructor
  · intro final ran who heeds own related
    rw [same] at ran
    rw [ownSame who own related]
    exact tracks.succeeds final ran who heeds own related
  · intro stop ran
    rw [same] at ran
    obtain ⟨who, speaks, stops⟩ := tracks.fails stop ran
    refine ⟨who, speaks, fun own related => ?_⟩
    rw [ownSame who own related]
    exact stops own related

/-- Code that cannot stop. -/
theorem pure {change : Machine → Machine}
    (related : ∀ who own, Heeds lanes who → before who own →
      after (change whole) who (change own)) :
    Tracks lanes before after (fun machine => .ok (change machine)) whole := by
  constructor
  · intro final ran who heeds own given
    cases ran
    exact ⟨_, rfl, related who own heeds given⟩
  · rintro stop ⟨⟩

/-- An instruction that the machines carry out in step. -/
theorem act {batch : Batch σ} {instruction : Instruction}
    {related : Option Lane → Machine → Machine → Machine → Prop}
    (sound : whole.Sound batch.program)
    (room : whole.current.offset + instruction.width ≤
      whole.current.function.code.length)
    (narrow : whole.live.Within lanes)
    (follows : ∀ who own, Heeds lanes who → before who own →
      Follows (watching who)
        (fun flow answer => related who own flow.machine answer.machine)
        ((whole.advanced instruction).carry batch instruction)
        ((own.advanced instruction).carry batch instruction))
    (finish : ∀ final who own last, whole.act batch instruction = .ok final →
      Heeds lanes who → before who own → own.act batch instruction = .ok last →
        related who own final last → after final who last) :
    Tracks lanes before after (Machine.act batch instruction) whole := by
  have moved : (whole.advanced instruction).Sound batch.program := sound.jumped room
  have yields := @Machine.carry_yields σ batch (whole.advanced instruction) moved.fits
    moved.predicates instruction
  constructor
  · intro final ran who heeds own given
    obtain ⟨flow, carried, rfl⟩ := Machine.act_eq_ok.mp ran
    obtain ⟨answer, answered, done⟩ := (follows who own heeds given).of_ok carried
    have ownRan := Machine.act_eq_ok.mpr ⟨answer, answered, rfl⟩
    exact ⟨answer.machine, ownRan, finish _ who own _ ran heeds given ownRan done⟩
  · intro stop ran
    obtain ⟨failure, carried, rfl⟩ := Machine.act_eq_error.mp ran
    cases concerned : failure.lane? with
    | none =>
        obtain ⟨who, speaks⟩ := exists_speaks lanes
        refine ⟨who, speaks, fun own given => ?_⟩
        have failed := (follows who own speaks.1 given).of_error carried concerned
        exact ⟨.failed failure, Machine.act_eq_error.mpr ⟨failure, failed, rfl⟩, rfl⟩
    | some lane =>
        -- A failure of one lane is a failure of a live lane, which is then watched.
        have live : whole.live.get lane = true := by
          rcases yields.of_error carried with (⟨_, live⟩ | ⟨rfl, _⟩) | ⟨_, shared, _⟩
          · exact live lane concerned
          · cases concerned
          · rw [shared] at concerned
            cases concerned
        have heeds : Heeds lanes (some lane) := heeds_some (narrow lane live)
        refine ⟨some lane, ⟨heeds, by rintro ⟨⟩⟩, fun own given => ?_⟩
        have mapped : watching (some lane) lane = some 0 :=
          Lane.only_eq_some.mpr ⟨rfl, rfl⟩
        have failed := (follows _ own heeds given).of_lane_error carried concerned mapped
        exact ⟨.failed (failure.inLane 0), Machine.act_eq_error.mpr ⟨_, failed, rfl⟩,
          failure.kind_inLane 0⟩

/--
Code that is passed over where no lane is live.  The whole machine carries it
out if any lane is; a machine on its own may pass over it even so.
-/
theorem unlessIdle {skip : Machine → Machine} (narrow : whole.live.Within lanes)
    (aware : ∀ who own, before who own →
      (own.live.any = true ↔ ∃ lane, who = some lane ∧ whole.live.get lane = true))
    (goes : whole.live.any = true → Tracks whole.live
      (fun who own => before who own ∧ own.live.any = true) after conduct whole)
    (rests : ∀ final, conduct.unlessIdle skip whole = .ok final → ∀ who own,
      Heeds lanes who → before who own → own.live.any = false →
        after final who (skip own)) :
    Tracks lanes before after (conduct.unlessIdle skip) whole := by
  constructor
  · intro final ran who heeds own related
    cases awake : own.live.any with
    | false =>
        rw [Conduct.unlessIdle_idle awake]
        exact ⟨_, rfl, rests final ran who own heeds related awake⟩
    | true =>
        obtain ⟨lane, rfl, inside⟩ := (aware who own related).mp awake
        have live : whole.live.any = true := (Lanes.any_eq_true _).mpr ⟨lane, inside⟩
        rw [Conduct.unlessIdle_live live] at ran
        rw [Conduct.unlessIdle_live awake]
        exact (goes live).succeeds final ran _ (heeds_some inside) own ⟨related, awake⟩
  · intro stop ran
    cases live : whole.live.any with
    | false =>
        rw [Conduct.unlessIdle_idle live] at ran
        cases ran
    | true =>
        rw [Conduct.unlessIdle_live live] at ran
        obtain ⟨who, ⟨heeds, silent⟩, stops⟩ := (goes live).fails stop ran
        cases who with
        | none =>
            rw [silent rfl] at live
            cases live
        | some lane =>
            refine ⟨some lane, ⟨heeds.mono narrow, by rintro ⟨⟩⟩, fun own related => ?_⟩
            have awake := (aware _ own related).mpr ⟨lane, rfl, heeds lane rfl⟩
            rw [Conduct.unlessIdle_live awake]
            exact stops own ⟨related, awake⟩

end Tracks

/-! ## Lanes that do not take part -/

/-- Idle lanes mirror each other in the loops that blocks leave behind. -/
theorem LoopsKeep.mirrors {image : Lane → Option Lane} {place : Place}
    {live ownLive : Mask} {first second other another : List Loop}
    (mirrors : List.Forall₂ (Loop.Mirrors image) first other)
    (keeps : LoopsKeep place live first second)
    (ownKeeps : LoopsKeep place ownLive other another)
    (idle : ∀ lane target, image lane = some target →
      live.get lane = false ∧ ownLive.get target = false) :
    List.Forall₂ (Loop.Mirrors image) second another := by
  cases mirrors with
  | nil =>
      cases keeps
      cases ownKeeps
      exact .nil
  | @cons loop answer outer answers innermost rest =>
      have changed : ∃ now, second = now :: outer ∧ ∀ lane, live.get lane = false →
          now.running.get lane = loop.running.get lane ∧
            now.parked.get lane = loop.parked.get lane := by
        cases keeps with
        | same =>
            exact ⟨loop, rfl, fun _ _ => ⟨rfl, rfl⟩⟩
        | innermost keeps =>
            exact ⟨_, rfl, keeps.idle⟩
      have ownChanged : ∃ now, another = now :: answers ∧
          ∀ lane, ownLive.get lane = false →
            now.running.get lane = answer.running.get lane ∧
              now.parked.get lane = answer.parked.get lane := by
        cases ownKeeps with
        | same =>
            exact ⟨answer, rfl, fun _ _ => ⟨rfl, rfl⟩⟩
        | innermost keeps =>
            exact ⟨_, rfl, keeps.idle⟩
      obtain ⟨now, rfl, kept⟩ := changed
      obtain ⟨ownNow, rfl, ownKept⟩ := ownChanged
      refine .cons ⟨?_, ?_⟩ rest
      · intro lane target mapped
        obtain ⟨asleep, ownAsleep⟩ := idle lane target mapped
        rw [(kept lane asleep).1, (ownKept target ownAsleep).1]
        exact innermost.running lane target mapped
      · intro lane target mapped
        obtain ⟨asleep, ownAsleep⟩ := idle lane target mapped
        rw [(kept lane asleep).2, (ownKept target ownAsleep).2]
        exact innermost.parked lane target mapped

namespace Machine

variable {program : Program} {clean : Nat → Prop} {who : Option Lane}
variable {whole own final last : Machine} {entry : Nat} {place : Place}

/-- Lanes of an idle machine on its own. -/
theorem Twins.asleep (twins : Twins program clean who whole own)
    (idle : own.live.any = false) (lane target : Lane)
    (mapped : watching who lane = some target) :
    whole.live.get lane = false ∧ own.live.get target = false := by
  constructor
  · cases who with
    | none =>
        cases mapped
    | some chosen =>
        rcases Lane.only_eq_some.mp mapped with ⟨rfl, _⟩
        exact twins.idle_of_watched idle
  · cases live : own.live.get target with
    | false =>
        rfl
    | true =>
        rw [(Lanes.any_eq_true _).mpr ⟨target, live⟩] at idle
        cases idle

/-- A lane that takes no part is found again as it was left, below the entry. -/
theorem Shadows.restored (shadows : Shadows program entry clean who whole own)
    (idle : own.live.any = false) (level : entry ≤ whole.top)
    (frames : Frames program whole.live entry whole final)
    (ownFrames : Frames program own.live entry own last)
    (top : last.top = final.top) (current : last.current = final.current)
    (predicates : final.predicates.Mirrors (watching who) last.predicates)
    (still : last.live.any = false) : Shadows program entry clean who final last where
  solo := ownFrames.solo shadows.solo
  mirrors := by
    have asleep := shadows.asleep idle
    refine ⟨top, current, ?_, predicates, ?_, ?_⟩
    · rw [frames.callers, ownFrames.callers]
      exact shadows.mirrors.callers
    · intro position lane target mapped
      obtain ⟨wholeIdle, ownIdle⟩ := asleep lane target mapped
      rw [frames.cells .global position lane wholeIdle (by rintro ⟨⟩),
        ownFrames.cells .global position target ownIdle (by rintro ⟨⟩)]
      exact shadows.mirrors.globals position lane target mapped
    · rintro position ⟨isClean, placed⟩ _ lane target mapped
      obtain ⟨wholeIdle, ownIdle⟩ := asleep lane target mapped
      have below : position < entry := by
        rcases placed with live | below
        · rw [still] at live
          cases live
        · exact below
      rw [frames.cells .local position lane wholeIdle fun _ => below,
        ownFrames.cells .local position target ownIdle fun _ => below]
      exact shadows.mirrors.locals position ⟨isClean, Or.inr below⟩ (by omega) lane target
        mapped
  idle := fun _ => still

theorem Kept.mirrors (kept : Kept program place entry whole final)
    (ownKept : Kept program place entry own last)
    (mirrors : whole.predicates.Mirrors (watching who) own.predicates)
    (asleep : ∀ lane target, watching who lane = some target →
      whole.live.get lane = false ∧ own.live.get target = false) :
    final.predicates.Mirrors (watching who) last.predicates where
  occupied := by
    rw [kept.occupied, ownKept.occupied]
    exact mirrors.occupied
  scopes := by
    rw [kept.scopes, ownKept.scopes]
    exact mirrors.scopes
  loops := kept.loops.mirrors mirrors.loops ownKept.loops asleep

/-- A block that a lane takes no part in. -/
theorem Shadows.passed {block : Block} (shadows : Shadows program entry clean who whole own)
    (idle : own.live.any = false) (level : entry ≤ whole.top)
    (ran : Ran program place block entry whole final)
    (ownRan : Ran program place block entry own last) (top : last.top = final.top) :
    Shadows program entry clean who final last := by
  refine shadows.restored idle level ran.toFrames ownRan.toFrames top ?_
    (ran.toKept.mirrors ownRan.toKept shadows.mirrors.predicates (shadows.asleep idle))
    (ownRan.live.any idle)
  rw [ran.current, ownRan.current, ran.offset, ownRan.offset, shadows.mirrors.current]

end Machine

/-! ## Blocks -/

/-- The frame of the running function and everything from the entry on is clean. -/
def Machine.Tidy (machine : Machine) (entry : Nat) (clean : Nat → Prop) : Prop :=
  ∀ position, (machine.current.base ≤ position ∧ position < machine.current.floor) ∨
    entry ≤ position → clean position

/-- A way to carry out a block does to a whole machine what it does to its live lanes. -/
def Block.Tracked (program : Program) (block : Block) (conduct : Conduct) : Prop :=
  ∀ entry whole (clean : Option Lane → Nat → Prop), whole.Ready program block entry →
    (∀ who, whole.Tidy entry (clean who)) →
      Tracks whole.live (fun who => Machine.Shadows program entry (clean who) who whole)
        (fun final who => Machine.Shadows program entry (clean who) who final) conduct whole

/-- A way to carry out a function does to a whole machine what it does to its lanes. -/
def Conduct.Tracked (program : Program) (run : Conduct) : Prop :=
  ∀ whole (clean : Option Lane → Nat → Prop), whole.Sound program →
    whole.current.offset = 0 → whole.callers ≠ [] →
      (∀ who, whole.Tidy whole.current.floor (clean who)) →
        Tracks whole.live (fun who => Machine.Twins program (clean who) who whole)
          (fun final who => Machine.Twins program (clean who) who final) run whole

/--
A block as part of others.  Lanes that do not take part in it are not watched
in it, and found again behind it.
-/
theorem Block.Tracked.within {program : Program} {block : Block} {conduct : Conduct}
    {place : Place} {entry : Nat} {whole : Machine} {lanes : Mask}
    {clean : Option Lane → Nat → Prop}
    (tracked : block.Tracked program conduct) (runs : block.Runs program place conduct)
    (ready : whole.Ready program block entry) (tidy : ∀ who, whole.Tidy entry (clean who))
    (narrow : whole.live.Within lanes) :
    Tracks lanes (fun who => Machine.Shadows program entry (clean who) who whole)
      (fun final who => Machine.Shadows program entry (clean who) who final)
      conduct whole := by
  have tracks := tracked entry whole clean ready tidy
  constructor
  · intro final ran who heeds own shadows
    have ranWhole := runs entry whole final ready ran
    cases awake : own.live.any with
    | true =>
        obtain ⟨lane, rfl, inside⟩ := shadows.any_iff.mp awake
        exact tracks.succeeds final ran _ (heeds_some inside) own shadows
    | false =>
        obtain ⟨last, ownRan, done⟩ :=
          tracks.succeeds final ran none (heeds_none _) own (shadows.unwatched awake)
        have ranOwn := runs entry own last (shadows.ready ready) ownRan
        exact ⟨last, ownRan,
          shadows.passed awake ready.level ranWhole ranOwn done.mirrors.top⟩
  · intro stop ran
    obtain ⟨who, ⟨heeds, silent⟩, stops⟩ := tracks.fails stop ran
    cases who with
    | some lane =>
        exact ⟨some lane, ⟨heeds.mono narrow, by rintro ⟨⟩⟩, stops⟩
    | none =>
        obtain ⟨other, speaks⟩ := exists_speaks lanes
        refine ⟨other, speaks, fun own shadows => ?_⟩
        exact stops own (shadows.unwatched (shadows.idle_of_all (silent rfl)))

end Lockstep
