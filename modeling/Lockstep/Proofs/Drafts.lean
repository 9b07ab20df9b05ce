import Lockstep.Proofs.Assembly

/-!
# Drafts and their finished code

A draft holds the bytes of what an assembler has recorded, with zeros in the
place of the targets of branches, and a fixup for each of them:
`Draft.Renders`.  Patching a target in touches no other byte, so the fixups can
be worked off one after the other, and what comes out is the code that the
assembler would have encoded: `Draft.finish_eq`.  The code of a draft therefore
reads back as what was asked for.
-/

namespace Lockstep

/-! ## Patching -/

/-- Bytes in the middle of a code are exchanged for as many others. -/
theorem patchBytes_middle {before old after bytes : List UInt8}
    (same : old.length = bytes.length) :
    patchBytes (before ++ (old ++ after)) before.length bytes =
      .ok (before ++ (bytes ++ after)) := by
  unfold patchBytes
  rw [if_pos (by simp only [List.length_append]; omega), List.take_left, ← same,
    ← List.length_append, ← List.append_assoc before old after, List.drop_left,
    List.append_assoc]

/-- Patching leaves the other bytes as they are. -/
theorem patchBytes_getElem? {code bytes patched : List UInt8} {position : Nat}
    (done : patchBytes code position bytes = .ok patched) {other : Nat}
    (apart : other < position ∨ position + bytes.length ≤ other) :
    patched[other]? = code[other]? := by
  unfold patchBytes at done
  split at done
  · rename_i inside
    rcases done with ⟨⟩
    have front : (code.take position).length = position := by
      rw [List.length_take]
      omega
    rcases apart with before | after
    · rw [List.append_assoc, List.getElem?_append_left (by omega),
        List.getElem?_take_of_lt before]
    · rw [List.getElem?_append_right (by rw [List.length_append]; omega),
        List.length_append, front, List.getElem?_drop]
      congr 1
      omega
  · cases done

theorem bytes16_length (number : UInt16) : (bytes16 number).length = 2 :=
  rfl

namespace Fixup

/-- The two bytes that a fixup waits to patch. -/
def Covers (fixup : Fixup) (position : Nat) : Prop :=
  fixup.position ≤ position ∧ position < fixup.position + 2

theorem patch_getElem? {labels : Array (Option Nat)} {code patched : List UInt8}
    {fixup : Fixup} (done : fixup.patch labels code = .ok patched) {position : Nat}
    (apart : ¬ fixup.Covers position) : patched[position]? = code[position]? := by
  unfold patch at done
  split at done
  · split at done
    · apply patchBytes_getElem? done
      rw [bytes16_length]
      unfold Covers at apart
      omega
    · cases done
  · cases done

/-- Working off fixups leaves the bytes that none of them covers as they are. -/
theorem foldlM_getElem? {labels : Array (Option Nat)} {fixups : List Fixup}
    {code patched : List UInt8}
    (done : fixups.foldlM (patch labels) code = .ok patched) {position : Nat}
    (apart : ∀ fixup ∈ fixups, ¬ fixup.Covers position) :
    patched[position]? = code[position]? := by
  induction fixups generalizing code with
  | nil =>
      rcases done with ⟨⟩
      rfl
  | cons fixup fixups induction =>
      rw [List.foldlM_cons] at done
      obtain ⟨between, first, rest⟩ := bind_eq_ok.mp done
      have later := induction rest fun other member => apart other (.tail _ member)
      exact later.trans (patch_getElem? first (apart fixup (.head _)))

end Fixup

/-! ## Emissions -/

namespace Emission

/-- The bytes that a draft has for an emission. -/
def bytes : Emission → List UInt8
  | .plain instruction => instruction.encode
  | .branch kind _ => [kind.opcode.byte, 0, 0]

/-- The fixups of emissions of which the first one stands at an offset. -/
def fixupsFrom (offset : Nat) : List Emission → List Fixup
  | [] => []
  | .plain instruction :: rest => fixupsFrom (offset + instruction.width) rest
  | .branch _ label :: rest => ⟨offset + 1, label⟩ :: fixupsFrom (offset + 3) rest

theorem length_bytes (emission : Emission) : emission.bytes.length = emission.width := by
  cases emission <;> rfl

theorem fixupsFrom_append (offset : Nat) (earlier later : List Emission) :
    fixupsFrom offset (earlier ++ later) =
      fixupsFrom offset earlier ++
        fixupsFrom (offset + (earlier.flatMap bytes).length) later := by
  induction earlier generalizing offset with
  | nil =>
      rfl
  | cons emission earlier induction =>
      rw [List.flatMap_cons, List.length_append, length_bytes, ← Nat.add_assoc]
      cases emission with
      | plain instruction =>
          exact induction _
      | branch kind label =>
          exact congrArg (_ :: ·) (induction _)

/-- A branch whose label has a place gets its target, and no other byte changes. -/
theorem patch_branch {labels : Array (Option Nat)} {kind : BranchKind} {label : Nat}
    (done after : List UInt8) :
    Fixup.patch labels (done ++ (bytes (.branch kind label) ++ after))
        ⟨done.length + 1, label⟩ =
      match resolve labels (.branch kind label) with
      | .ok instruction => .ok (done ++ instruction.encode ++ after)
      | .error fault => .error (.fault (.bytecode fault)) := by
  unfold Fixup.patch resolve
  dsimp only
  rcases labels[label]? with _ | _ | target
  · rfl
  · rfl
  · by_cases small : target < 65536
    · have middle := @patchBytes_middle (done ++ [kind.opcode.byte]) [0, 0] after
        (bytes16 (UInt16.ofNat target)) rfl
      have spelled : (kind.instruction (UInt16.ofNat target)).encode =
          [kind.opcode.byte] ++ bytes16 (UInt16.ofNat target) := by
        cases kind <;> rfl
      rw [List.length_append, List.append_assoc] at middle
      simp only [if_pos small, spelled]
      simpa [bytes] using middle
    · simp only [if_neg small]

/--
Working off the fixups of some emissions gives the code of the instructions that
the emissions resolve to.  The induction is along the emissions; those before
are already encoded, and none of the fixups to come reaches them.
-/
theorem foldlM_fixupsFrom (labels : Array (Option Nat)) (done : List UInt8)
    (emissions : List Emission) :
    (fixupsFrom done.length emissions).foldlM (Fixup.patch labels)
        (done ++ emissions.flatMap bytes) =
      match emissions.mapM (resolve labels) with
      | .ok instructions => .ok (done ++ instructions.flatMap Instruction.encode)
      | .error fault => .error (.fault (.bytecode fault)) := by
  induction emissions generalizing done with
  | nil =>
      rfl
  | cons emission emissions induction =>
      rw [List.flatMap_cons, List.mapM_cons]
      cases emission with
      | plain instruction =>
          have rest := induction (done ++ instruction.encode)
          rw [List.length_append, List.append_assoc] at rest
          refine rest.trans ?_
          cases emissions.mapM (resolve labels) with
          | error fault =>
              rfl
          | ok instructions =>
              simp [resolve, bind, Except.bind, pure, Except.pure]
      | branch kind label =>
          rw [fixupsFrom, List.foldlM_cons, patch_branch]
          cases resolved : resolve labels (.branch kind label) with
          | error fault =>
              rfl
          | ok instruction =>
              have rest := induction (done ++ instruction.encode)
              have width : instruction.encode.length = 3 :=
                Assembler.width_of_resolve resolved
              rw [List.length_append, width] at rest
              refine rest.trans ?_
              cases emissions.mapM (resolve labels) with
              | error fault =>
                  rfl
              | ok instructions =>
                  simp [bind, Except.bind, pure, Except.pure]

end Emission

/-! ## Drafts -/

namespace Draft

/-- A draft that holds the bytes of what an assembler has recorded. -/
structure Renders (draft : Draft) (assembler : Assembler) : Prop where
  code : draft.code.toList = assembler.emitted.toList.flatMap Emission.bytes
  fixups : draft.fixups.toList = Emission.fixupsFrom 0 assembler.emitted.toList
  labels : draft.labels = assembler.labels
  refusal : draft.refusal = assembler.refusal
  size : draft.here = assembler.size

theorem renders_empty : empty.Renders .empty :=
  ⟨rfl, rfl, rfl, rfl, rfl⟩

namespace Renders

variable {draft : Draft} {assembler : Assembler}

theorem refuse (renders : draft.Renders assembler) (fault : BytecodeFault) :
    (draft.refuse fault).Renders (assembler.refuse fault) where
  code := renders.code
  fixups := renders.fixups
  labels := renders.labels
  refusal := congrArg (· <|> some fault) renders.refusal
  size := renders.size

/-- Writing the bytes of an emission, with its fixup, renders the emission. -/
theorem append (renders : draft.Renders assembler) (emission : Emission) {after : Draft}
    (code : after.code.toList = draft.code.toList ++ emission.bytes)
    (fixups : after.fixups.toList =
      draft.fixups.toList ++ Emission.fixupsFrom draft.here [emission])
    (labels : after.labels = draft.labels) (refusal : after.refusal = draft.refusal) :
    after.Renders (assembler.append emission) where
  code := by
    rw [code, renders.code]
    simp [Assembler.append]
  fixups := by
    have offset : draft.here = 0 + (assembler.emitted.toList.flatMap Emission.bytes).length := by
      rw [← renders.code, Nat.zero_add]
      rfl
    rw [fixups, renders.fixups, offset, Assembler.append, Array.toList_push,
      Emission.fixupsFrom_append]
  labels := labels.trans renders.labels
  refusal := refusal.trans renders.refusal
  size := by
    have lengths := congrArg List.length code
    rw [List.length_append, Emission.length_bytes] at lengths
    exact lengths.trans (congrArg (· + emission.width) renders.size)

theorem take (renders : draft.Renders assembler) (statement : Statement) :
    (draft.take statement).Renders (assembler.take statement) := by
  cases statement with
  | newLabel =>
      exact ⟨renders.code, renders.fixups, congrArg (·.push none) renders.labels,
        renders.refusal, renders.size⟩
  | bind label =>
      simp only [Draft.take, Assembler.take, renders.labels, renders.size]
      rcases assembler.labels[label]? with _ | _ | earlier
      · exact renders.refuse _
      · exact ⟨renders.code, renders.fixups, rfl, renders.refusal, renders.size⟩
      · exact renders.refuse _
  | branch kind label =>
      apply renders.append
      · simp [Draft.take, jump, write, Emission.bytes]
      · simp [Draft.take, jump, write, here, Emission.fixupsFrom]
      · rfl
      · rfl
  | emit request =>
      simp only [Draft.take, Assembler.take]
      cases granted : request.instruction with
      | error fault =>
          exact renders.refuse fault
      | ok instruction =>
          have spells := Request.spells granted
          apply renders.append
          · simp [write, Emission.bytes, Instruction.encode, spells.opcode_eq,
              spells.operands_eq]
          · simp [write, Emission.fixupsFrom]
          · rfl
          · rfl

theorem takeAll (renders : draft.Renders assembler) (statements : List Statement) :
    (draft.takeAll statements).Renders (assembler.takeAll statements) := by
  induction statements generalizing draft assembler with
  | nil =>
      exact renders
  | cons statement statements induction =>
      exact induction (renders.take statement)

/-- A draft finishes as the assembler does whose record it renders. -/
theorem finish_eq (renders : draft.Renders assembler) :
    draft.finish = assembler.finish := by
  unfold Draft.finish Assembler.finish Assembler.instructions
  rw [renders.refusal]
  cases assembler.refusal with
  | some fault =>
      rfl
  | none =>
      rw [renders.fixups, renders.labels, renders.code]
      exact Emission.foldlM_fixupsFrom assembler.labels [] assembler.emitted.toList

end Renders

/-- Drafts and assemblers finish with the same code, or with the same failure. -/
theorem finish_eq (statements : List Statement) :
    (empty.takeAll statements).finish = (Assembler.empty.takeAll statements).finish :=
  (renders_empty.takeAll statements).finish_eq

/-! ## Finished code -/

/-- The statements of a list, each with the offset at which it is taken. -/
def history (draft : Draft) : List Statement → List Taken
  | [] => []
  | statement :: later => ⟨draft.here, statement⟩ :: (draft.take statement).history later

theorem Renders.history_eq {draft : Draft} {assembler : Assembler}
    (renders : draft.Renders assembler) (statements : List Statement) :
    draft.history statements = assembler.history statements := by
  induction statements generalizing draft assembler with
  | nil =>
      rfl
  | cons statement statements induction =>
      rw [history, Assembler.history, renders.size, induction (renders.take statement)]

end Draft

/-- The fixup of a branch: its target follows its opcode. -/
def Taken.fixup? : Taken → Option Fixup
  | ⟨here, .branch _ label⟩ => some ⟨here + 1, label⟩
  | _ => none

namespace Draft

theorem fixups_take (draft : Draft) (statement : Statement) :
    (draft.take statement).fixups.toList =
      draft.fixups.toList ++ (Taken.fixup? ⟨draft.here, statement⟩).toList := by
  cases statement with
  | newLabel =>
      exact (List.append_nil _).symm
  | bind label =>
      simp only [take]
      split <;> exact (List.append_nil _).symm
  | branch kind label =>
      simp [take, jump, write, here, Taken.fixup?]
  | emit request =>
      simp only [take]
      split <;> exact (List.append_nil _).symm

/-- There is a fixup for each branch, and for nothing else. -/
theorem fixups_takeAll (draft : Draft) (statements : List Statement) :
    (draft.takeAll statements).fixups.toList =
      draft.fixups.toList ++ (draft.history statements).filterMap Taken.fixup? := by
  induction statements generalizing draft with
  | nil =>
      exact (List.append_nil _).symm
  | cons statement statements induction =>
      refine (induction (draft.take statement)).trans ?_
      rw [fixups_take, history, List.append_assoc, List.filterMap_cons]
      cases Taken.fixup? ⟨draft.here, statement⟩ <;> rfl

/-- Code that differs from a draft only where targets of branches were patched in. -/
structure Patched (draft : Draft) (history : List Taken) (code : List UInt8) : Prop where
  length : code.length = draft.here
  fixups : draft.fixups.toList = history.filterMap Taken.fixup?
  kept : ∀ position, (∀ fixup ∈ draft.fixups, ¬ fixup.Covers position) →
    code[position]? = draft.code[position]?

/--
The code of a draft reads back as the instructions of the statements that emit.
It ends where the draft ends, and differs from the draft only in the targets of
branches.
-/
theorem assembly_reads_back (statements : List Statement) (code : List UInt8)
    (finished : (empty.takeAll statements).finish = .ok code) :
    Assembled (empty.history statements) code ∧
      (empty.takeAll statements).Patched (empty.history statements) code := by
  have renders := renders_empty.takeAll statements
  have recorded := finished
  rw [finish_eq] at recorded
  obtain ⟨assembled, ends⟩ := Assembler.assembled_of_finish statements code recorded
  rw [renders_empty.history_eq]
  refine ⟨assembled, ?_, ?_, ?_⟩
  · rw [renders.size, ends]
  · rw [← renders_empty.history_eq]
    exact fixups_takeAll empty statements
  · intro position apart
    unfold finish at finished
    split at finished
    · cases finished
    · rw [Fixup.foldlM_getElem? finished fun fixup member =>
        apart fixup (Array.mem_toList_iff.mp member), Array.getElem?_toList]

/-- A loop that is left by a branch forward and repeated by a branch backward. -/
def roundabout : List Statement :=
  [.newLabel, .newLabel, .bind 0, .emit (.push 7), .branch .ifAllFalse 1,
    .branch .always 0, .bind 1, .emit (.ret 1)]

/-- The code of `roundabout` reads back with both targets patched in. -/
theorem assembly_reads_back_roundabout :
    (empty.takeAll roundabout).code.toList =
        (Instruction.compute (.immediate 7)).encode ++
          (Instruction.branchIfAllFalse 0).encode ++ (Instruction.branch 0).encode ++
            (Instruction.ret 1).encode ∧
      (empty.takeAll roundabout).fixups = #[⟨6, 1⟩, ⟨9, 0⟩] ∧
      ∃ code, (empty.takeAll roundabout).finish = .ok code ∧
        code = (Instruction.compute (.immediate 7)).encode ++
          (Instruction.branchIfAllFalse 11).encode ++ (Instruction.branch 0).encode ++
            (Instruction.ret 1).encode ∧
        Assembled (empty.history roundabout) code ∧
          (empty.takeAll roundabout).Patched (empty.history roundabout) code :=
  ⟨rfl, rfl, _, rfl, rfl, assembly_reads_back roundabout _ rfl⟩

end Draft

end Lockstep
