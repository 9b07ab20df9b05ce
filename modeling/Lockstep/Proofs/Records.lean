import Mathlib.Data.List.Forall2
import Lockstep.Program.Document

/-!
# Records in documents

A record may be put down in many ways.  Its members stand in any order, a field
whose value is the default may be left out, and members with other keys may
stand between the fields, with any value.  The same holds for the records in
its lists.  However a parameter, a function or a program is put down, it is
read back, provided that its counts are sizes.
-/

namespace Lockstep

open Json

/-! ## Lists -/

/-- Reading one by one, where what is read off each value is known. -/
theorem exists_mapM_eq_some {α β γ : Type} {key : α → β} {read : β → Option γ}
    {relates : α → γ → Prop} {values : List α}
    (each : ∀ value ∈ values, ∃ found, read (key value) = some found ∧ relates value found) :
    ∃ results, (values.map key).mapM read = some results ∧
      List.Forall₂ relates values results := by
  induction values with
  | nil =>
      exact ⟨[], rfl, .nil⟩
  | cons value values induction =>
      obtain ⟨found, reads, related⟩ := each value List.mem_cons_self
      obtain ⟨results, readsOthers, others⟩ := induction fun other member =>
        each other (List.mem_cons_of_mem value member)
      refine ⟨found :: results, ?_, .cons related others⟩
      rw [List.map_cons, List.mapM_cons, reads, readsOthers]
      rfl

/-- Values that were read one by one. -/
theorem forall₂_of_mapM_eq_some {α β : Type} {read : α → Option β} {values : List α}
    {results : List β} (reads : values.mapM read = some results) :
    List.Forall₂ (fun value result => read value = some result) values results := by
  induction values generalizing results with
  | nil =>
      obtain rfl := Option.some.inj reads
      exact .nil
  | cons value values induction =>
      rw [List.mapM_cons] at reads
      obtain ⟨first, readsFirst, rest⟩ := Option.bind_eq_some_iff.mp reads
      obtain ⟨others, readsOthers, same⟩ := Option.bind_eq_some_iff.mp rest
      obtain rfl := Option.some.inj same
      exact .cons readsFirst (induction readsOthers)

namespace Json

/-- An array that shows the values of a list one by one. -/
def Lists {α : Type} (shows : α → Json → Prop) (values : List α) (json : Json) : Prop :=
  ∃ items, json = .array items ∧ List.Forall₂ shows values items

theorem Lists.ofList {α : Type} {shows : α → Json → Prop} {encode : α → Json}
    {values : List α} (each : ∀ value ∈ values, shows value (encode value)) :
    Lists shows values (.ofList encode values) := by
  refine ⟨values.map encode, rfl, ?_⟩
  rw [List.forall₂_map_right_iff, List.forall₂_same]
  exact each

theorem list?_of_lists {α : Type} {read : Json → Option α} {shows : α → Json → Prop}
    {values : List α} {json : Json} (lists : Lists shows values json)
    (each : ∀ value ∈ values, ∀ item, shows value item → read item = some value) :
    list? read json = some values := by
  obtain ⟨items, rfl, shown⟩ := lists
  change items.mapM read = _
  induction shown with
  | nil =>
      rfl
  | cons first _ induction =>
      have others := induction fun value member =>
        each value (List.mem_cons_of_mem _ member)
      rw [List.mapM_cons, each _ List.mem_cons_self _ first, others]
      rfl

theorem size?_ofNat {size : Nat} (bounded : size ≤ largestSize) :
    size? (.ofNat size) = some size :=
  if_pos bounded

theorem truth?_bool (truth : Bool) : truth? (.bool truth) = some truth :=
  rfl

theorem text?_ofString (text : String) : text? (.ofString text) = some text :=
  rfl

theorem byte?_ofNat (byte : UInt8) : byte? (.ofNat byte.toNat) = some byte := by
  change (if byte.toNat < 256 then some (UInt8.ofNat byte.toNat) else none) = _
  rw [if_pos byte.toNat_lt, UInt8.ofNat_toNat]

end Json

/-! ## Fields -/

namespace Fields

/-- The members of an object whose keys denote texts. -/
def members (entries : List (String × Json)) : List (JsonText × Json) :=
  entries.map fun entry => (some entry.1, entry.2)

theorem filter_members {entries : List (String × Json)} {key : String}
    (missing : key ∉ entries.map Prod.fst) :
    (members entries).filter (fun member => member.1 == some key) = [] := by
  rw [List.filter_eq_nil_iff]
  intro member among same
  obtain ⟨entry, present, rfl⟩ := List.mem_map.mp among
  exact missing (List.mem_map.mpr ⟨entry, present, by simpa using same⟩)

/-- Nothing is found under the keys of others. -/
theorem lookup?_of_not_mem {entries : List (String × Json)} {key : String}
    (missing : key ∉ entries.map Prod.fst) : lookup? (members entries) key = some none := by
  unfold lookup?
  rw [filter_members missing]

theorem lookup?_cons_self {entries : List (String × Json)} {key : String}
    (missing : key ∉ entries.map Prod.fst) (value : Json) :
    lookup? (members ((key, value) :: entries)) key = some (some value) := by
  have found : (members ((key, value) :: entries)).filter
      (fun member => member.1 == some key) = [(some key, value)] := by
    change ((some key, value) :: members entries).filter _ = _
    rw [List.filter_cons_of_pos (by simp), filter_members missing]
  unfold lookup?
  rw [found]

theorem lookup?_cons_of_ne {entry : String × Json} {key : String} (other : entry.1 ≠ key)
    (entries : List (String × Json)) :
    lookup? (members (entry :: entries)) key = lookup? (members entries) key := by
  have skipped : (members (entry :: entries)).filter (fun member => member.1 == some key) =
      (members entries).filter (fun member => member.1 == some key) :=
    List.filter_cons_of_neg (by simpa using other)
  unfold lookup?
  rw [skipped]

theorem lookup?_append_of_not_mem {extra : List (String × Json)} {key : String}
    (missing : key ∉ extra.map Prod.fst) (entries : List (String × Json)) :
    lookup? (members (entries ++ extra)) key = lookup? (members entries) key := by
  have ignored : (members (entries ++ extra)).filter (fun member => member.1 == some key) =
      (members entries).filter (fun member => member.1 == some key) := by
    rw [members, List.map_append, List.filter_append]
    change _ ++ (members extra).filter _ = _
    rw [filter_members missing, List.append_nil]
    rfl
  unfold lookup?
  rw [ignored]

/-- The order of the members does not matter. -/
theorem lookup?_perm {members others : List (JsonText × Json)}
    (arranged : members.Perm others) (key : String) :
    lookup? members key = lookup? others key := by
  have alike := arranged.filter fun member => member.1 == some key
  unfold lookup?
  generalize members.filter _ = here at alike ⊢
  generalize others.filter _ = there at alike ⊢
  match here, there, alike.length_eq with
  | [], [], _ =>
      rfl
  | [member], [other], _ =>
      obtain rfl := List.singleton_perm_singleton.mp alike
      rfl
  | _ :: _ :: _, _ :: _ :: _, _ =>
      rfl

end Fields

/-- A field of a record: its key, the values that show it, and whether it may be missing. -/
structure Field where
  key : String
  shows : Json → Prop
  optional : Prop

namespace Field

/-- A field without default. -/
def needed (key : String) (shows : Json → Prop) : Field :=
  ⟨key, shows, False⟩

/-- A field with a default, which may be missing if its value is the default. -/
def lenient {α : Type} (key : String) (default value : α) (shows : α → Json → Prop) :
    Field :=
  ⟨key, shows value, value = default⟩

/-- A count with default zero. -/
def count (key : String) (size : Nat) : Field :=
  lenient key 0 size fun size json => json = .ofNat size

/-- What a record gives for a field. -/
def Found (field : Field) : Option Json → Prop
  | some value => field.shows value
  | none => field.optional

variable {key : String} {found : Option Json}

theorem required_eq_some {α : Type} {shows : Json → Prop} {read : Json → Option α}
    {value : α} (holds : (needed key shows).Found found)
    (reads : ∀ json, shows json → read json = some value) :
    Fields.required read found = some value := by
  cases found with
  | none =>
      exact holds.elim
  | some json =>
      exact reads json holds

theorem defaulted_eq_some {α : Type} {default value : α} {shows : α → Json → Prop}
    {read : Json → Option α} (holds : (lenient key default value shows).Found found)
    (reads : ∀ json, shows value json → read json = some value) :
    Fields.defaulted default read found = some value := by
  cases found with
  | none =>
      exact congrArg some (Eq.symm holds)
  | some json =>
      exact reads json holds

theorem count_eq_some {size : Nat} (holds : (count key size).Found found)
    (bounded : size ≤ largestSize) : Fields.defaulted 0 size? found = some size :=
  defaulted_eq_some holds fun _ same => same ▸ size?_ofNat bounded

end Field

/-- Entries for some of the fields in their order, and for all that may not be missing. -/
inductive Selects : List Field → List (String × Json) → Prop
  | nil : Selects [] []
  | given {field : Field} {fields : List Field} {value : Json}
      {entries : List (String × Json)} (shown : field.shows value)
      (others : Selects fields entries) :
      Selects (field :: fields) ((field.key, value) :: entries)
  | omitted {field : Field} {fields : List Field} {entries : List (String × Json)}
      (optional : field.optional) (others : Selects fields entries) :
      Selects (field :: fields) entries

/--
An object that presents a record: entries for its fields and entries with
unknown keys, in any order.
-/
inductive Presents (fields : List Field) : Json → Prop
  | object {entries extra : List (String × Json)} {members : List (JsonText × Json)}
      (selected : Selects fields entries)
      (unknown : ∀ entry ∈ extra, entry.1 ∉ fields.map Field.key)
      (arranged : members.Perm (Fields.members (entries ++ extra))) :
      Presents fields (.object members)

section Records

variable {fields : List Field} {entries : List (String × Json)}

theorem Selects.keys_subset (selected : Selects fields entries) :
    entries.map Prod.fst ⊆ fields.map Field.key := by
  induction selected with
  | nil =>
      exact List.Subset.refl _
  | given _ _ induction =>
      exact List.cons_subset_cons _ induction
  | omitted _ _ induction =>
      exact List.subset_cons_of_subset _ induction

/-- Under the key of a field stands a value that shows it, or nothing if it may be missing. -/
theorem Selects.found (selected : Selects fields entries)
    (distinct : (fields.map Field.key).Nodup) {field : Field} (present : field ∈ fields) :
    ∃ found, Fields.lookup? (Fields.members entries) field.key = some found ∧
      field.Found found := by
  induction selected with
  | nil =>
      exact absurd present List.not_mem_nil
  | @given first fields value entries shown others induction =>
      obtain ⟨missing, distinctOthers⟩ := List.nodup_cons.mp distinct
      rcases List.mem_cons.mp present with rfl | later
      · have absent := fun among => missing (others.keys_subset among)
        exact ⟨some value, Fields.lookup?_cons_self absent value, shown⟩
      · have other : first.key ≠ field.key := fun same =>
          missing (same ▸ List.mem_map_of_mem later)
        rw [Fields.lookup?_cons_of_ne other]
        exact induction distinctOthers later
  | omitted optional others induction =>
      obtain ⟨missing, distinctOthers⟩ := List.nodup_cons.mp distinct
      rcases List.mem_cons.mp present with rfl | later
      · have absent := fun among => missing (others.keys_subset among)
        exact ⟨none, Fields.lookup?_of_not_mem absent, optional⟩
      · exact induction distinctOthers later

/-- Every field is found in what presents a record. -/
theorem Presents.found {json : Json} {keys : List String}
    (presents : Presents fields json) (named : fields.map Field.key = keys)
    (distinct : keys.Nodup) :
    ∃ found, Fields.ofJson? keys json = some found ∧
      List.Forall₂ Field.Found fields found := by
  subst named
  obtain ⟨selected, unknown, arranged⟩ := presents
  rename_i entries extra members
  have denoted : members.all (fun member => member.1.isSome) = true := by
    rw [List.all_eq_true]
    intro member among
    obtain ⟨entry, _, rfl⟩ := List.mem_map.mp (arranged.subset among)
    rfl
  have each : ∀ field ∈ fields, ∃ found,
      Fields.lookup? members field.key = some found ∧ field.Found found := by
    intro field present
    have absent : field.key ∉ extra.map Prod.fst := by
      intro among
      obtain ⟨entry, member, same⟩ := List.mem_map.mp among
      exact unknown entry member (same ▸ List.mem_map_of_mem present)
    rw [Fields.lookup?_perm arranged, Fields.lookup?_append_of_not_mem absent]
    exact selected.found distinct present
  obtain ⟨found, reads, holds⟩ := exists_mapM_eq_some each
  refine ⟨found, ?_, holds⟩
  change (if _ then _ else none) = _
  rw [if_pos denoted]
  exact reads

/-- All fields in their order present a record. -/
theorem Selects.presents (selected : Selects fields entries) :
    Presents fields (.ofFields entries) := by
  refine .object selected (fun _ among => absurd among List.not_mem_nil) ?_
  rw [List.append_nil]
  exact .refl _

end Records

/-! ## Parameters -/

namespace Parameter

/-- The fields of a parameter. -/
def fields (parameter : Parameter) : List Field := [
  .needed "slot_count" fun json => json = .ofNat parameter.slotCount,
  .lenient "is_out" false parameter.isOut fun truth json => json = .bool truth]

/-- An object that shows a parameter. -/
def Shows (parameter : Parameter) : Json → Prop :=
  Presents parameter.fields

theorem shows_toJson (parameter : Parameter) : parameter.Shows parameter.toJson :=
  Selects.presents (.given rfl (.given rfl .nil))

/-- A parameter whose width is a size. -/
def Sized (parameter : Parameter) : Prop :=
  parameter.slotCount ≤ largestSize

/-- A parameter is read from what shows it. -/
theorem ofJson?_of_shows {parameter : Parameter} {json : Json} (sized : parameter.Sized)
    (shown : parameter.Shows json) : ofJson? json = some parameter := by
  obtain ⟨found, reads, holds⟩ := shown.found (rfl : _ = keys) (by decide)
  match found, holds with
  | [_, _], .cons slotCount (.cons isOut .nil) =>
      have slotCount := Field.required_eq_some slotCount
        fun _ same => same ▸ size?_ofNat sized
      have isOut := Field.defaulted_eq_some isOut
        fun _ same => same ▸ truth?_bool parameter.isOut
      unfold ofJson?
      simp only [Option.bind_eq_bind, reads, Option.bind_some, slotCount, isOut]
      rfl

end Parameter

/-! ## Functions -/

namespace Function

/-- The fields of a function. -/
def fields (function : Function) : List Field := [
  .needed "name" fun json => json = .ofString function.name,
  .needed "parameter_count" fun json => json = .ofNat function.parameterCount,
  .count "local_count" function.localCount,
  .count "stack_count" function.stackCount,
  .count "return_count" function.returnCount,
  .lenient "parameters" [] function.parameters (Lists Parameter.Shows),
  .count "condition_depth" function.conditionDepth,
  .count "loop_depth" function.loopDepth,
  .needed "code" (Lists (fun byte json => json = .ofNat byte.toNat) function.code)]

/-- An object that shows a function. -/
def Shows (function : Function) : Json → Prop :=
  Presents function.fields

theorem shows_toJson (function : Function) : function.Shows function.toJson := by
  have parameters : Lists Parameter.Shows function.parameters
      (.ofList Parameter.toJson function.parameters) :=
    .ofList fun parameter _ => parameter.shows_toJson
  have code : Lists (fun byte json => json = .ofNat byte.toNat) function.code
      (.ofList (fun byte => .ofNat byte.toNat) function.code) :=
    .ofList fun _ _ => rfl
  exact Selects.presents (.given rfl (.given rfl (.given rfl (.given rfl (.given rfl
    (.given parameters (.given rfl (.given rfl (.given code .nil)))))))))

/-- A function whose counts are sizes. -/
structure Sized (function : Function) : Prop where
  parameterCount : function.parameterCount ≤ largestSize
  localCount : function.localCount ≤ largestSize
  stackCount : function.stackCount ≤ largestSize
  returnCount : function.returnCount ≤ largestSize
  parameters : ∀ parameter ∈ function.parameters, parameter.Sized
  conditionDepth : function.conditionDepth ≤ largestSize
  loopDepth : function.loopDepth ≤ largestSize

/-- A function is read from what shows it. -/
theorem ofJson?_of_shows {function : Function} {json : Json} (sized : function.Sized)
    (shown : function.Shows json) : ofJson? json = some function := by
  obtain ⟨found, reads, holds⟩ := shown.found (rfl : _ = keys) (by decide)
  match found, holds with
  | [_, _, _, _, _, _, _, _, _], .cons name (.cons parameterCount (.cons localCount
      (.cons stackCount (.cons returnCount (.cons parameters (.cons conditionDepth
        (.cons loopDepth (.cons code .nil)))))))) =>
      have name := Field.required_eq_some name
        fun _ same => same ▸ text?_ofString function.name
      have parameterCount := Field.required_eq_some parameterCount
        fun _ same => same ▸ size?_ofNat sized.parameterCount
      have parameters := Field.defaulted_eq_some parameters fun _ lists =>
        list?_of_lists lists fun parameter member _ =>
          Parameter.ofJson?_of_shows (sized.parameters parameter member)
      have code := Field.required_eq_some code fun _ lists =>
        list?_of_lists lists fun byte _ _ same => same ▸ byte?_ofNat byte
      unfold ofJson?
      simp only [Option.bind_eq_bind, reads, Option.bind_some, name, parameterCount,
        Field.count_eq_some localCount sized.localCount,
        Field.count_eq_some stackCount sized.stackCount,
        Field.count_eq_some returnCount sized.returnCount, parameters,
        Field.count_eq_some conditionDepth sized.conditionDepth,
        Field.count_eq_some loopDepth sized.loopDepth, code]
      rfl

end Function

/-! ## Programs -/

namespace Program

/-- The fields of a program. -/
def fields (program : Program) : List Field := [
  .needed "functions" (Lists Function.Shows program.functions),
  .count "global_slot_count" program.globalCount,
  .count "uniform_slot_count" program.uniformCount,
  .lenient "input_slot_map" [] program.inputMap
    (Lists fun slot json => json = .ofNat slot)]

/-- An object that shows a program. -/
def Shows (program : Program) : Json → Prop :=
  Presents program.fields

theorem shows_toJson (program : Program) : program.Shows program.toJson := by
  have functions : Lists Function.Shows program.functions
      (.ofList Function.toJson program.functions) :=
    .ofList fun function _ => function.shows_toJson
  have inputs : Lists (fun slot json => json = .ofNat slot) program.inputMap
      (.ofList .ofNat program.inputMap) :=
    .ofList fun _ _ => rfl
  exact Selects.presents
    (.given functions (.given rfl (.given rfl (.given inputs .nil))))

/-- A program whose counts are sizes. -/
structure Sized (program : Program) : Prop where
  functions : ∀ function ∈ program.functions, function.Sized
  globalCount : program.globalCount ≤ largestSize
  uniformCount : program.uniformCount ≤ largestSize
  inputMap : ∀ slot ∈ program.inputMap, slot ≤ largestSize

/-- A program is read from what shows it. -/
theorem ofJson?_of_shows {program : Program} {json : Json} (sized : program.Sized)
    (shown : program.Shows json) : ofJson? json = some program := by
  obtain ⟨found, reads, holds⟩ := shown.found (rfl : _ = keys) (by decide)
  match found, holds with
  | [_, _, _, _], .cons functions (.cons globalCount (.cons uniformCount
      (.cons inputMap .nil))) =>
      have functions := Field.required_eq_some functions fun _ lists =>
        list?_of_lists lists fun function member _ =>
          Function.ofJson?_of_shows (sized.functions function member)
      have inputMap := Field.defaulted_eq_some inputMap fun _ lists =>
        list?_of_lists lists fun slot member _ same =>
          same ▸ size?_ofNat (sized.inputMap slot member)
      unfold ofJson?
      simp only [Option.bind_eq_bind, reads, Option.bind_some, functions,
        Field.count_eq_some globalCount sized.globalCount,
        Field.count_eq_some uniformCount sized.uniformCount, inputMap]
      rfl

end Program

end Lockstep
