import Lockstep.Json.Printer
import Lockstep.Proofs.JsonGrammar

/-!
# Reading back what was written

The written form of a value whose strings all denote texts spells the value,
whatever the indentation, so the value is read back from it.
-/

namespace Lockstep

namespace Token

/-! ## Numbers -/

/-- Digits of a positive number do not start with a zero. -/
theorem head?_toDigits_ne {magnitude : Nat} (positive : 0 < magnitude) :
    (Nat.toDigits 10 magnitude).head? ≠ some '0' := by
  induction magnitude using Nat.strongRecOn with
  | ind magnitude induction =>
      by_cases small : magnitude < 10
      · rw [Nat.toDigits_of_lt_base small, List.head?_cons, ne_eq, Option.some.injEq,
          Nat.digitChar_eq_zero]
        omega
      · have leading := induction (magnitude / 10) (by omega) (by omega)
        rw [Nat.toDigits_of_base_le (by decide) (by omega)]
        cases digits : Nat.toDigits 10 (magnitude / 10) with
        | nil =>
            exact absurd digits Nat.toDigits_ne_nil
        | cons first others =>
            rw [digits] at leading
            exact leading

/-- Digits of a number are digits that a number may start with. -/
theorem leading_toDigits (magnitude : Nat) : Leading (Nat.toDigits 10 magnitude) where
  nonempty := Nat.toDigits_ne_nil
  each := fun _ member => Nat.isDigit_of_mem_toDigits (by decide) (by decide) member
  zero := by
    cases magnitude with
    | zero =>
        exact fun _ => rfl
    | succ smaller =>
        exact fun starts => absurd starts (head?_toDigits_ne (Nat.succ_pos smaller))

/-- The written form of a number spells it. -/
theorem numeral_written (number : Number) : Numeral number (Json.writtenNumber number) := by
  cases number with
  | integer negative magnitude =>
      have spelled := Numeral.whole negative (leading_toDigits magnitude)
      rw [Nat.ofDigitChars_ten_toDigits] at spelled
      exact spelled
  | real =>
      have zero : Digits ['0'] :=
        ⟨List.cons_ne_nil _ _, List.forall_mem_singleton.mpr rfl⟩
      exact .real false ⟨zero, fun _ => rfl⟩ (.present zero) .absent rfl

/-! ## Strings -/

theorem pairUnits?_char (c : Char) (others : List Piece) :
    pairUnits? (.char c :: others) = (pairUnits? others).map fun later => c :: later := by
  rw [pairUnits?]
  cases pairUnits? others <;> rfl

/-- A unit below the surrogates stands for itself. -/
theorem pairUnits?_unit {code : Nat} (low : code < 0xd800) (others : List Piece) :
    pairUnits? (.unit code :: others) =
      (pairUnits? others).map fun later => Char.ofNat code :: later := by
  have notLeading : isLeading code = false := by
    simp only [isLeading, Bool.and_eq_false_iff, decide_eq_false_iff_not]
    omega
  have notTrailing : isTrailing code = false := by
    simp only [isTrailing, Bool.and_eq_false_iff, decide_eq_false_iff_not]
    omega
  by_cases paired : ∃ trailing later, others = .unit trailing :: later
  · obtain ⟨trailing, later, rfl⟩ := paired
    rw [pairUnits?.eq_3, notLeading, notTrailing]
    cases pairUnits? (.unit trailing :: later) <;> rfl
  · rw [pairUnits?.eq_4 code others fun trailing later same =>
      paired ⟨trailing, later, same⟩, notLeading, notTrailing]
    cases pairUnits? others <;> rfl

theorem hexDigit?_digitChar {digit : Nat} (small : digit < 16) :
    hexDigit? (Nat.digitChar digit) = some digit := by
  have all : ∀ digit < 16, hexDigit? (Nat.digitChar digit) = some digit := by decide
  exact all digit small

/-- Characters that spell a piece of a string, which stands for a character. -/
structure Denotes (written : List Char) (piece : Piece) (c : Char) : Prop where
  spelled : piece.Spelled written
  stands : ∀ others, pairUnits? (piece :: others) =
    (pairUnits? others).map fun later => c :: later

/-- A short escape. -/
theorem denotes_short {letter c escaped : Char} (same : c = escaped)
    (escapes : shortEscape? letter = some escaped) : Denotes ['\\', letter] (.char c) c :=
  ⟨.short (same ▸ escapes), pairUnits?_char c⟩

/-- A control character that is written by its code. -/
theorem denotes_control {c : Char} (control : c.toNat < 0x20) :
    Denotes (['\\', 'u', '0', '0'] ++ Json.controlDigits c) (.unit c.toNat) c := by
  constructor
  · refine .unit ?_
    unfold hexUnit?
    rw [hexDigit?_digitChar (by omega), hexDigit?_digitChar (by omega)]
    change some (((0 * 16 + 0) * 16 + c.toNat / 16) * 16 + c.toNat % 16) = _
    congr 1
    omega
  · intro others
    have same := pairUnits?_unit (show c.toNat < 0xd800 by omega) others
    rw [Char.ofNat_toNat] at same
    exact same

/-- The written form of every character spells a piece that stands for it. -/
theorem exists_denotes (c : Char) : ∃ piece, Denotes (Json.escape c) piece c := by
  unfold Json.escape
  iterate 7
    split
    · exact ⟨_, denotes_short ‹_› rfl⟩
  split
  case isTrue control =>
    exact ⟨_, denotes_control control⟩
  case isFalse unquoted solid _ _ _ _ _ printable =>
    exact ⟨_, .plain printable unquoted solid, pairUnits?_char c⟩

/-- The written form of a text spells pieces that stand for the text. -/
theorem inscribed_written (characters : List Char) :
    ∃ pieces, Inscribed pieces (characters.flatMap Json.escape) ∧
      pairUnits? pieces = some characters := by
  induction characters with
  | nil =>
      exact ⟨[], .nil, rfl⟩
  | cons c others induction =>
      obtain ⟨pieces, inscribed, paired⟩ := induction
      obtain ⟨piece, denotes⟩ := exists_denotes c
      refine ⟨piece :: pieces, .cons denotes.spelled inscribed, ?_⟩
      rw [denotes.stands, paired]
      rfl

theorem spelled_text (text : String) :
    Spelled (.string (some text)) (Json.writtenText (some text)) := by
  obtain ⟨pieces, inscribed, paired⟩ := inscribed_written text.toList
  have stands : Token.text pieces = some text := by
    unfold Token.text
    rw [paired, Option.map_some, String.ofList_toList]
  have spelled := Spelled.string inscribed
  rw [stands] at spelled
  exact spelled

end Token

namespace Json

open Token

/-! ## Values -/

/-- A value whose strings all denote texts. -/
inductive Textual : Json → Prop
  | null : Textual .null
  | bool (truth : Bool) : Textual (.bool truth)
  | number (number : Number) : Textual (.number number)
  | string (text : String) : Textual (.string (some text))
  | array {items : List Json} (each : ∀ item ∈ items, Textual item) :
      Textual (.array items)
  | object {members : List (JsonText × Json)}
      (keys : ∀ member ∈ members, ∃ key, member.1 = some key)
      (values : ∀ member ∈ members, Textual member.2) : Textual (.object members)

theorem spaced_newline {later : List Token} {rest : List Char} (depth : Nat)
    (spaced : Spaced later rest) :
    Spaced later (newline depth ++ rest) := by
  change Spaced later ('\n' :: (List.replicate (2 * depth) ' ' ++ rest))
  refine .blank rfl ?_
  induction 2 * depth with
  | zero =>
      exact spaced
  | succ count induction =>
      exact .blank rfl induction

mutual

/-- The written form of a value spells its tokens. -/
theorem spaced_written {later : List Token} {rest : List Char} (depth : Nat)
    (value : Json) (textual : value.Textual) (spaced : Spaced later rest) :
    Spaced (tokens value ++ later) (written depth value ++ rest) := by
  match value, textual with
  | .null, _ =>
      exact .token .null spaced
  | .bool true, _ =>
      exact .token .yes spaced
  | .bool false, _ =>
      exact .token .no spaced
  | .number given, _ =>
      exact .token (.number (numeral_written given)) spaced
  | .string _, .string text =>
      exact .token (spelled_text text) spaced
  | .array [], _ =>
      simp only [written, List.cons_append, List.nil_append]
      exact .token .openArray (.token .closeArray spaced)
  | .array (item :: items), .array each =>
      have others := fun other (member : other ∈ items) =>
        each other (List.mem_cons_of_mem item member)
      simp only [written, tokens, List.cons_append, List.append_assoc, List.nil_append]
      refine .token .openArray (spaced_newline _ ?_)
      refine spaced_written (depth + 1) item (each item List.mem_cons_self) ?_
      refine spaced_items (depth + 1) items others (spaced_newline _ ?_)
      exact .token .closeArray spaced
  | .object [], _ =>
      simp only [written, List.cons_append, List.nil_append]
      exact .token .openObject (.token .closeObject spaced)
  | .object (member :: members), .object keys values =>
      have laterKeys := fun other (among : other ∈ members) =>
        keys other (List.mem_cons_of_mem member among)
      have laterValues := fun other (among : other ∈ members) =>
        values other (List.mem_cons_of_mem member among)
      simp only [written, tokens, List.cons_append, List.append_assoc, List.nil_append]
      refine .token .openObject (spaced_newline _ ?_)
      refine spaced_member (depth + 1) member (keys member List.mem_cons_self)
        (values member List.mem_cons_self) ?_
      refine spaced_members (depth + 1) members laterKeys laterValues (spaced_newline _ ?_)
      exact .token .closeObject spaced

theorem spaced_items {later : List Token} {rest : List Char} (depth : Nat)
    (items : List Json) (textual : ∀ item ∈ items, item.Textual)
    (spaced : Spaced later rest) :
    Spaced (itemTokens items ++ later) (writtenItems depth items ++ rest) := by
  match items with
  | [] =>
      exact spaced
  | item :: items =>
      have others := fun other (member : other ∈ items) =>
        textual other (List.mem_cons_of_mem item member)
      simp only [writtenItems, itemTokens, List.cons_append, List.append_assoc]
      refine .token .comma (spaced_newline _ ?_)
      refine spaced_written depth item (textual item List.mem_cons_self) ?_
      exact spaced_items depth items others spaced

theorem spaced_member {later : List Token} {rest : List Char} (depth : Nat)
    (member : JsonText × Json) (key : ∃ key, member.1 = some key)
    (value : member.2.Textual) (spaced : Spaced later rest) :
    Spaced (memberTokens member ++ later) (writtenMember depth member ++ rest) := by
  match member, key with
  | (_, given), ⟨text, rfl⟩ =>
      simp only [writtenMember, memberTokens, List.cons_append, List.append_assoc,
        List.nil_append]
      refine .token (spelled_text text) (.token .colon (.blank rfl ?_))
      exact spaced_written depth given value spaced

theorem spaced_members {later : List Token} {rest : List Char} (depth : Nat)
    (members : List (JsonText × Json))
    (keys : ∀ member ∈ members, ∃ key, member.1 = some key)
    (values : ∀ member ∈ members, member.2.Textual) (spaced : Spaced later rest) :
    Spaced (membersTokens members ++ later) (writtenMembers depth members ++ rest) := by
  match members with
  | [] =>
      exact spaced
  | member :: members =>
      have laterKeys := fun other (among : other ∈ members) =>
        keys other (List.mem_cons_of_mem member among)
      have laterValues := fun other (among : other ∈ members) =>
        values other (List.mem_cons_of_mem member among)
      simp only [writtenMembers, membersTokens, List.cons_append, List.append_assoc]
      refine .token .comma (spaced_newline _ ?_)
      refine spaced_member depth member (keys member List.mem_cons_self)
        (values member List.mem_cons_self) ?_
      exact spaced_members depth members laterKeys laterValues spaced

end

/-- The written form of a value spells the value at every depth. -/
theorem spells_written (depth : Nat) {value : Json} (textual : value.Textual) :
    Spells (String.ofList (written depth value)) value := by
  have spaced := spaced_written depth value textual .done
  rw [List.append_nil, List.append_nil] at spaced
  unfold Spells
  rw [String.toList_ofList]
  exact spaced

/-- A value is read back from its written form. -/
theorem parse?_pretty {value : Json} (textual : value.Textual) :
    parse? value.pretty = some value :=
  parse?_of_spells (spells_written 0 textual)

end Json

end Lockstep
