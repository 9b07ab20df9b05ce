import Lockstep.Proofs.JsonRoundTrip
import Lockstep.Proofs.Records
import Lockstep.Proofs.Verification

/-!
# Programs in documents

A program is read back from the document that holds it, provided that its
counts are sizes.  So loading the document of a program is the same as
verifying the program: the program is loaded if it passes, and otherwise the
objection of the verifier is reported.
-/

namespace Lockstep

open Json

theorem textual_ofList {α : Type} {encode : α → Json} {values : List α}
    (each : ∀ value ∈ values, (encode value).Textual) : (ofList encode values).Textual := by
  refine .array fun item member => ?_
  obtain ⟨value, present, rfl⟩ := List.mem_map.mp member
  exact each value present

theorem textual_ofFields {fields : List (String × Json)}
    (each : ∀ field ∈ fields, field.2.Textual) : (ofFields fields).Textual := by
  refine .object (fun member among => ?_) (fun member among => ?_)
  · obtain ⟨field, _, rfl⟩ := List.mem_map.mp among
    exact ⟨field.1, rfl⟩
  · obtain ⟨field, present, rfl⟩ := List.mem_map.mp among
    exact each field present

theorem Parameter.textual_toJson (parameter : Parameter) : parameter.toJson.Textual := by
  apply textual_ofFields
  simp only [List.forall_mem_cons, List.not_mem_nil, false_imp_iff, implies_true, and_true]
  exact ⟨.number _, .bool _⟩

theorem Function.textual_toJson (function : Function) : function.toJson.Textual := by
  apply textual_ofFields
  simp only [List.forall_mem_cons, List.not_mem_nil, false_imp_iff, implies_true, and_true]
  exact ⟨.string _, .number _, .number _, .number _, .number _,
    textual_ofList fun parameter _ => parameter.textual_toJson, .number _, .number _,
    textual_ofList fun _ _ => .number _⟩

theorem Program.textual_toJson (program : Program) : program.toJson.Textual := by
  apply textual_ofFields
  simp only [List.forall_mem_cons, List.not_mem_nil, false_imp_iff, implies_true, and_true]
  exact ⟨textual_ofList fun function _ => function.textual_toJson, .number _, .number _,
    textual_ofList fun _ _ => .number _⟩

/-- A program is read back from its document. -/
theorem Program.parse?_document {program : Program} (sized : program.Sized) :
    parse? program.document = some program := by
  unfold parse? document
  rw [parse?_pretty program.textual_toJson]
  exact ofJson?_of_shows sized program.shows_toJson

namespace Linked

variable {σ : Type}

/-- Loading a document that holds a program is verifying the program. -/
theorem load_of_parse? {document : String} {program : Program}
    (holds : Program.parse? document = some program) (externals : List (External σ)) :
    load document externals =
      (verify ⟨program, externals⟩).map fun _ => ⟨program, externals⟩ := by
  unfold load
  rw [holds]
  change (program.verify externals.length).bind _ = _
  unfold verify
  cases program.verify externals.length <;> rfl

/--
Documents are faithful.  The document of a program is read back as the program;
it is loaded with externals exactly if the program passes the verifier with
them, as that program with those externals, and otherwise the failure is that
of the verifier.
-/
theorem documents_are_faithful (program : Program) (externals : List (External σ))
    (sized : program.Sized) :
    Program.parse? program.document = some program ∧
      (∀ loaded, load program.document externals = .ok loaded ↔
        verify ⟨program, externals⟩ = .ok () ∧ loaded = ⟨program, externals⟩) ∧
      ∀ failure, load program.document externals = .error failure ↔
        verify ⟨program, externals⟩ = .error failure := by
  have holds := Program.parse?_document sized
  refine ⟨holds, ?_, ?_⟩
  · intro loaded
    rw [load_of_parse? holds]
    cases verify ⟨program, externals⟩ with
    | error failure =>
        simp [Except.map]
    | ok done =>
        simp [Except.map, eq_comm]
  · intro failure
    rw [load_of_parse? holds]
    cases verify ⟨program, externals⟩ with
    | error other =>
        simp [Except.map]
    | ok done =>
        simp [Except.map]

/-- The function `echo` under a name with marks, blanks and letters that need care. -/
def labelled : Program where
  functions := [{ echo with name := "\"\\\n\x01/é😀" }]
  uniformCount := largestSize

/-- A program with such a name and the largest count is loaded from its document. -/
theorem documents_are_faithful_labelled :
    labelled.Sized ∧ Program.parse? labelled.document = some labelled ∧
      load labelled.document ([] : List (External Unit)) = .ok ⟨labelled, []⟩ := by
  have sized : labelled.Sized := by
    refine ⟨?_, by decide, by decide, by decide⟩
    intro function member
    obtain rfl := List.mem_singleton.mp member
    refine ⟨by decide, by decide, by decide, by decide, ?_, by decide, by decide⟩
    intro parameter declared
    obtain rfl := List.mem_singleton.mp declared
    exact (by decide : 1 ≤ largestSize)
  have faithful := documents_are_faithful labelled ([] : List (External Unit)) sized
  exact ⟨sized, faithful.1, (faithful.2.1 _).mpr ⟨rfl, rfl⟩⟩

end Linked

end Lockstep
