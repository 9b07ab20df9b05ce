import Mathlib.Data.List.Nodup
import Lockstep.Proofs.Documents

/-!
# Presentation

What a document holds does not depend on its presentation: on the blanks
between its tokens, on the order of its members, on members with unknown keys
and on defaults that are put down.  What is refused does not depend on it
either: a record that lacks a field without default or gives a field twice,
wherever it stands.
-/

namespace Lockstep

open Json

namespace Fields

/-! ## Flaws of a record -/

/-- A value that a record gives for a field, under its key or in its place. -/
inductive Gives (keys : List String) : Json → String → Json → Prop
  | member {members : List (JsonText × Json)} {key : String} {value : Json}
      (among : (some key, value) ∈ members) : Gives keys (.object members) key value
  | item {items : List Json} {place : Nat} {key : String} {value : Json}
      (named : keys[place]? = some key) (stands : items[place]? = some value) :
      Gives keys (.array items) key value

/-- A record that lacks a field without default, or gives a field twice. -/
inductive Flawed (keys needed : List String) (json : Json) : Prop
  | missing {key : String} (needs : key ∈ needed)
      (lacks : ∀ value, ¬ Gives keys json key value)
  | repeated {members : List (JsonText × Json)} {key : String}
      (record : json = .object members) (known : key ∈ keys)
      (twice : 2 ≤ (members.map Prod.fst).count (some key))

/-- What is found under a key is all that the members give for it. -/
theorem mem_iff_of_lookup? {members : List (JsonText × Json)} {key : String}
    {found : Option Json} (looked : lookup? members key = some found) (value : Json) :
    (some key, value) ∈ members ↔ found = some value := by
  have among : (some key, value) ∈ members ↔
      (some key, value) ∈ members.filter fun member => member.1 == some key := by
    simp [List.mem_filter]
  rw [among]
  unfold lookup? at looked
  split at looked
  case h_1 empty =>
    obtain rfl := Option.some.inj looked
    simp [empty]
  case h_2 member one =>
    obtain rfl := Option.some.inj looked
    have kept : member ∈ members.filter fun member => member.1 == some key :=
      one ▸ List.mem_singleton_self member
    have named : member.1 = some key := by
      simpa using (List.mem_filter.mp kept).2
    rw [one]
    simp [Prod.ext_iff, named, eq_comm]
  case h_3 =>
    cases looked

/-- A key under which something is found, or nothing, does not stand twice. -/
theorem count_le_of_lookup? {members : List (JsonText × Json)} {key : String}
    {found : Option Json} (looked : lookup? members key = some found) :
    (members.map Prod.fst).count (some key) ≤ 1 := by
  have count : (members.map Prod.fst).count (some key) =
      (members.filter fun member => member.1 == some key).length := by
    rw [List.count, List.countP_map, List.countP_eq_length_filter]
    rfl
  rw [count]
  unfold lookup? at looked
  split at looked
  case h_1 empty =>
    simp [empty]
  case h_2 one =>
    simp [one]
  case h_3 =>
    cases looked

section Read

variable {keys : List String} {json : Json} {found : Fields}

/-- The fields of an object are looked up. -/
theorem forall₂_lookup? {members : List (JsonText × Json)}
    (reads : ofJson? keys (.object members) = some found) :
    List.Forall₂ (fun key given => lookup? members key = some given) keys found := by
  change (if _ then _ else none) = _ at reads
  exact forall₂_of_mapM_eq_some (Option.ite_none_right_eq_some.mp reads).2

/-- What is read for a field is all that the record gives for it. -/
theorem gives_of_ofJson? (reads : ofJson? keys json = some found) (distinct : keys.Nodup) :
    List.Forall₂ (fun key given => ∀ value, Gives keys json key value ↔ given = some value)
      keys found := by
  cases json with
  | object members =>
      refine (forall₂_lookup? reads).imp fun key given here value => ?_
      rw [← mem_iff_of_lookup? here]
      exact ⟨fun | .member among => among, .member⟩
  | array items =>
      change (if _ then _ else none) = _ at reads
      obtain ⟨short, same⟩ := Option.ite_none_right_eq_some.mp reads
      obtain rfl := Option.some.inj same
      refine List.forall₂_iff_get.mpr ⟨by simp; omega, fun place inside within value => ?_⟩
      have padded : (items.map some ++ List.replicate (keys.length - items.length) none).get
          ⟨place, within⟩ = items[place]? := by
        grind
      rw [padded]
      constructor
      · rintro (_ | ⟨named, stands⟩)
        obtain ⟨also, same⟩ := List.getElem?_eq_some_iff.mp named
        rw [← (distinct.getElem_inj_iff.mp same : _ = place)]
        exact stands
      · exact .item (List.getElem?_eq_getElem inside)
  | null | bool | number | string =>
      cases reads

/-- A record from which fields are read is not flawed, if it gives the needed ones. -/
theorem not_flawed {needed : List String} (reads : ofJson? keys json = some found)
    (given : ∀ key ∈ needed, ∃ value, Gives keys json key value) :
    ¬ Flawed keys needed json := by
  rintro (⟨needs, lacks⟩ | ⟨rfl, known, twice⟩)
  · obtain ⟨value, gives⟩ := given _ needs
    exact lacks value gives
  · obtain ⟨place, inside, rfl⟩ := List.mem_iff_getElem.mp known
    have each := forall₂_lookup? reads
    have once := count_le_of_lookup? (each.get inside (each.length_eq ▸ inside))
    exact absurd (Nat.le_trans twice once) (by decide)

end Read

theorem exists_of_required {α : Type} {read : Json → Option α} {found : Option Json}
    {value : α} (reads : required read found = some value) :
    ∃ json, found = some json := by
  cases found with
  | none =>
      cases reads
  | some json =>
      exact ⟨json, rfl⟩

end Fields

/-- Items of a list that is read are read themselves. -/
theorem Json.exists_of_list? {α : Type} {read : Json → Option α} {items : List Json}
    {values : List α} (reads : list? read (.array items) = some values) {item : Json}
    (among : item ∈ items) : ∃ value, read item = some value := by
  obtain ⟨place, inside, rfl⟩ := List.mem_iff_getElem.mp among
  have looked : items.mapM read = some values := reads
  have each := forall₂_of_mapM_eq_some looked
  exact ⟨_, each.get inside (each.length_eq ▸ inside)⟩

/-! ## Flaws of a program -/

/-- A parameter without width, or with a field that is given twice. -/
def Parameter.Flawed (json : Json) : Prop :=
  Fields.Flawed keys ["slot_count"] json

theorem Parameter.ofJson?_of_flawed {json : Json} (flawed : Flawed json) :
    ofJson? json = none := by
  rw [Option.eq_none_iff_forall_not_mem]
  intro parameter result
  obtain ⟨found, reads, rest⟩ := Option.bind_eq_some_iff.mp result
  match found, Fields.gives_of_ofJson? reads (by decide), rest with
  | [_, _], .cons slotCount _, rest =>
      obtain ⟨_, width, _⟩ := Option.bind_eq_some_iff.mp rest
      obtain ⟨value, stands⟩ := Fields.exists_of_required width
      refine Fields.not_flawed reads (fun key needs => ?_) flawed
      obtain rfl := List.mem_singleton.mp needs
      exact ⟨value, (slotCount value).mpr stands⟩

/--
A function without name, parameter count or code, or with a field that is given
twice, or with a flawed parameter.
-/
inductive Function.Flawed (json : Json) : Prop
  | record (flawed : Fields.Flawed keys ["name", "parameter_count", "code"] json)
  | parameter {items : List Json} {item : Json}
      (given : Fields.Gives keys json "parameters" (.array items)) (among : item ∈ items)
      (flawed : Parameter.Flawed item)

theorem Function.ofJson?_of_flawed {json : Json} (flawed : Flawed json) :
    ofJson? json = none := by
  rw [Option.eq_none_iff_forall_not_mem]
  intro function result
  obtain ⟨found, reads, rest⟩ := Option.bind_eq_some_iff.mp result
  match found, Fields.gives_of_ofJson? reads (by decide), rest with
  | [_, _, _, _, _, _, _, _, _], .cons name (.cons parameterCount (.cons _ (.cons _
      (.cons _ (.cons parameters (.cons _ (.cons _ (.cons code _)))))))), rest =>
      simp only [Option.bind_eq_bind, Option.bind_eq_some_iff] at rest
      obtain ⟨_, readsName, _, readsCount, _, _, _, _, _, _, _, readsParameters, _, _, _, _,
        _, readsCode, _⟩ := rest
      cases flawed with
      | record flawed =>
          refine Fields.not_flawed reads (fun key needs => ?_) flawed
          simp only [List.mem_cons, List.not_mem_nil, or_false] at needs
          rcases needs with rfl | rfl | rfl
          · obtain ⟨value, stands⟩ := Fields.exists_of_required readsName
            exact ⟨value, (name value).mpr stands⟩
          · obtain ⟨value, stands⟩ := Fields.exists_of_required readsCount
            exact ⟨value, (parameterCount value).mpr stands⟩
          · obtain ⟨value, stands⟩ := Fields.exists_of_required readsCode
            exact ⟨value, (code value).mpr stands⟩
      | parameter given among flawed =>
          rw [(parameters _).mp given] at readsParameters
          obtain ⟨parameter, reading⟩ := exists_of_list? readsParameters among
          rw [Parameter.ofJson?_of_flawed flawed] at reading
          cases reading

/--
A program without functions, or with a field that is given twice, or with a
flawed function.
-/
inductive Program.Flawed (json : Json) : Prop
  | record (flawed : Fields.Flawed keys ["functions"] json)
  | function {items : List Json} {item : Json}
      (given : Fields.Gives keys json "functions" (.array items)) (among : item ∈ items)
      (flawed : Function.Flawed item)

theorem Program.ofJson?_of_flawed {json : Json} (flawed : Flawed json) :
    ofJson? json = none := by
  rw [Option.eq_none_iff_forall_not_mem]
  intro program result
  obtain ⟨found, reads, rest⟩ := Option.bind_eq_some_iff.mp result
  match found, Fields.gives_of_ofJson? reads (by decide), rest with
  | [_, _, _, _], .cons functions _, rest =>
      obtain ⟨_, readsFunctions, _⟩ := Option.bind_eq_some_iff.mp rest
      obtain ⟨value, stands⟩ := Fields.exists_of_required readsFunctions
      cases flawed with
      | record flawed =>
          refine Fields.not_flawed reads (fun key needs => ?_) flawed
          obtain rfl := List.mem_singleton.mp needs
          exact ⟨value, (functions value).mpr stands⟩
      | function given among flawed =>
          rw [(functions _).mp given] at readsFunctions
          obtain ⟨function, reading⟩ := exists_of_list? readsFunctions among
          rw [Function.ofJson?_of_flawed flawed] at reading
          cases reading

/-! ## Documents -/

namespace Program

theorem parse?_of_spells {text : String} {json : Json} (spelled : Spells text json) :
    parse? text = ofJson? json := by
  unfold parse?
  rw [Json.parse?_of_spells spelled]
  rfl

variable {σ : Type}

/--
Reading ignores presentation.  The document of a program spells an object that
shows the program; any text that spells any such object is read as the same
program and loaded with the same outcome; and a text that spells a flawed
object is not read and reported as unreadable.
-/
theorem presentation_is_ignored (program : Program) (sized : program.Sized)
    (externals : List (External σ)) :
    (program.Shows program.toJson ∧ Spells program.document program.toJson) ∧
      (∀ text json, Spells text json → program.Shows json →
        parse? text = some program ∧ parse? text = parse? program.document ∧
          Linked.load text externals = Linked.load program.document externals) ∧
      ∀ text json, Spells text json → Flawed json →
        parse? text = none ∧ Linked.load text externals = .error .unreadable := by
  refine ⟨⟨program.shows_toJson, spells_written 0 program.textual_toJson⟩, ?_, ?_⟩
  · intro text json spelled shown
    have holds : parse? text = some program := by
      rw [parse?_of_spells spelled]
      exact ofJson?_of_shows sized shown
    have original := parse?_document sized
    refine ⟨holds, by rw [holds, original], ?_⟩
    rw [Linked.load_of_parse? holds, Linked.load_of_parse? original]
  · intro text json spelled flawed
    have unread : parse? text = none := by
      rw [parse?_of_spells spelled]
      exact ofJson?_of_flawed flawed
    refine ⟨unread, ?_⟩
    unfold Linked.load
    rw [unread]
    rfl

/-- A program with the function `echo` alone. -/
def echoing : Program where
  functions := [Linked.echo]

/-- The function `echo` from its code to its name, with a remark and without defaults. -/
def sparseEcho : Json :=
  .ofFields [
    ("remark", .ofFields [("remark", .null), ("remark", .number .real)]),
    ("code", .ofList (fun byte => .ofNat byte.toNat) Linked.echo.code),
    ("parameters", .ofList id [.ofFields [("slot_count", .ofNat 1)]]),
    ("return_count", .ofNat 1), ("stack_count", .ofNat 1),
    ("parameter_count", .ofNat 1), ("name", .ofString "echo")]

theorem shows_sparseEcho : Linked.echo.Shows sparseEcho := by
  have width : (⟨1, false⟩ : Parameter).Shows (.ofFields [("slot_count", .ofNat 1)]) :=
    Selects.presents (.given rfl (.omitted rfl .nil))
  have code : Lists (fun byte json => json = .ofNat byte.toNat) Linked.echo.code
      (.ofList (fun byte => .ofNat byte.toNat) Linked.echo.code) :=
    .ofList fun _ _ => rfl
  have selected : Selects Linked.echo.fields _ :=
    .given rfl (.given rfl (.omitted rfl (.given rfl (.given rfl
      (.given ⟨_, rfl, .cons width .nil⟩ (.omitted rfl (.omitted rfl (.given code .nil))))))))
  refine @Presents.object _ _ [("remark", _)] _ selected ?_ (List.reverse_perm _).symm
  simp [Function.fields, Field.needed, Field.lenient, Field.count]

/-- The program after an unknown member. -/
def sparse : Json :=
  .ofFields [("external_values", .ofList id [.null]), ("functions", .ofList id [sparseEcho])]

theorem shows_sparse : echoing.Shows sparse := by
  have selected : Selects echoing.fields [("functions", .ofList id [sparseEcho])] :=
    .given ⟨_, rfl, .cons shows_sparseEcho .nil⟩
      (.omitted rfl (.omitted rfl (.omitted rfl .nil)))
  refine @Presents.object _ _ [("external_values", _)] _ selected ?_ (.swap _ _ _)
  simp [Program.fields, Field.needed, Field.lenient, Field.count]

theorem textual_sparse : sparse.Textual := by
  have width : (Json.ofFields [("slot_count", .ofNat 1)]).Textual :=
    textual_ofFields (by simpa using .number _)
  have remark : (Json.ofFields [("remark", .null), ("remark", .number .real)]).Textual :=
    textual_ofFields (by simpa using ⟨.null, .number _⟩)
  have function : sparseEcho.Textual := by
    apply textual_ofFields
    simp only [List.forall_mem_cons, List.not_mem_nil, false_imp_iff, implies_true, and_true]
    exact ⟨remark, textual_ofList fun _ _ => .number _, textual_ofList (by simpa using width),
      .number _, .number _, .number _, .string _⟩
  apply textual_ofFields
  simp only [List.forall_mem_cons, List.not_mem_nil, false_imp_iff, implies_true, and_true]
  exact ⟨textual_ofList (by simpa using .null), textual_ofList (by simpa using function)⟩

/-- A program that gives its functions twice. -/
def twofold : Json :=
  .ofFields [("functions", .ofList id []), ("functions", .ofList id [])]

/-- The sparse program after a tab is read, and the twofold one is not. -/
theorem presentation_is_ignored_sparse :
    (echoing.Sized ∧ echoing.Shows sparse ∧ Flawed twofold) ∧
      parse? (String.ofList ('\t' :: written 3 sparse)) = some echoing ∧
      parse? (String.ofList (written 1 twofold)) = none := by
  have sized : echoing.Sized := by
    refine ⟨?_, by decide, by decide, by decide⟩
    intro function member
    obtain rfl := List.mem_singleton.mp member
    refine ⟨by decide, by decide, by decide, by decide, ?_, by decide, by decide⟩
    intro parameter declared
    obtain rfl := List.mem_singleton.mp declared
    exact (by decide : 1 ≤ largestSize)
  have flawed : Flawed twofold :=
    .record (@Fields.Flawed.repeated _ _ _ _ "functions" rfl (by decide) (by decide))
  have spelled : Spells (String.ofList ('\t' :: written 3 sparse)) sparse := by
    have spaced := spells_written 3 textual_sparse
    unfold Spells at spaced ⊢
    rw [String.toList_ofList] at spaced ⊢
    exact .blank rfl spaced
  have spelledTwice : Spells (String.ofList (written 1 twofold)) twofold := by
    refine spells_written 1 (textual_ofFields ?_)
    simp only [List.forall_mem_cons, List.not_mem_nil, false_imp_iff, implies_true, and_true]
    exact ⟨textual_ofList (by simp), textual_ofList (by simp)⟩
  obtain ⟨_, same, refused⟩ :=
    presentation_is_ignored echoing sized ([] : List (External Unit))
  exact ⟨⟨sized, shows_sparse, flawed⟩, (same _ _ spelled shows_sparse).1,
    (refused _ _ spelledTwice flawed).1⟩

end Program

end Lockstep
