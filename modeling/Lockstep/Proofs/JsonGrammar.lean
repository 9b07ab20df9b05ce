import Lockstep.Json.Parser

/-!
# The texts of a value

The grammar of documents, apart from how they are read: `Token.Spelled` says
which characters spell a token, `Token.Spaced` which texts spell some tokens
with any blanks between them, and `Json.Spells` which texts spell a value.
Every text that spells a value is read as that value (`Json.parse?_of_spells`),
so neither blanks nor the ways to write a number or a string matter.

Only a number has no character of its own at its end.  It is read to its end
because the tokens of a value never put one number right behind another.
-/

namespace Lockstep

namespace Token

/-! ## Numbers -/

/-- A run of digits. -/
structure Digits (characters : List Char) : Prop where
  nonempty : characters ≠ []
  each : ∀ c ∈ characters, c.isDigit = true

/-- Digits before a fraction, where a zero leads no others. -/
structure Leading (characters : List Char) : Prop extends Digits characters where
  zero : characters.head? = some '0' → characters.length = 1

/-- The sign in front of a number. -/
def sign (negative : Bool) : List Char :=
  if negative then ['-'] else []

/-- A fraction, which may be missing. -/
inductive Fraction : Bool → List Char → Prop
  | absent : Fraction false []
  | present {digits : List Char} (spelled : Digits digits) : Fraction true ('.' :: digits)

/-- An exponent, which may be missing. -/
inductive Exponent : Bool → List Char → Prop
  | absent : Exponent false []
  | present {mark : Char} {sign digits : List Char} (marked : mark = 'e' ∨ mark = 'E')
      (signed : sign = [] ∨ sign = ['+'] ∨ sign = ['-']) (spelled : Digits digits) :
      Exponent true (mark :: (sign ++ digits))

/-- The characters that spell a number. -/
inductive Numeral : Number → List Char → Prop
  | whole (negative : Bool) {digits : List Char} (spelled : Leading digits) :
      Numeral (.integer negative (Nat.ofDigitChars 10 digits 0)) (sign negative ++ digits)
  | real (negative : Bool) {fractional exponential : Bool}
      {digits fraction exponent : List Char} (spelled : Leading digits)
      (before : Fraction fractional fraction) (behind : Exponent exponential exponent)
      (inexact : (fractional || exponential) = true) :
      Numeral .real (sign negative ++ (digits ++ (fraction ++ exponent)))

/-- A text that does not start with a digit. -/
def NoDigit : List Char → Prop
  | [] => True
  | c :: _ => c.isDigit = false

/-- A text at which a number is at its end. -/
def Breaks : List Char → Prop
  | [] => True
  | c :: _ => c.isDigit = false ∧ c ≠ '.' ∧ c ≠ 'e' ∧ c ≠ 'E'

theorem Breaks.noDigit {rest : List Char} (breaks : Breaks rest) : NoDigit rest := by
  cases rest with
  | nil => trivial
  | cons c later => exact breaks.1

/-- Digits start with a digit. -/
theorem Digits.starts {digits : List Char} (spelled : Digits digits) :
    ∃ c others, digits = c :: others ∧ c.isDigit = true := by
  cases digits with
  | nil =>
      exact absurd rfl spelled.nonempty
  | cons c others =>
      exact ⟨c, others, rfl, spelled.each c List.mem_cons_self⟩

/-- Digits are taken up to where they end. -/
theorem Digits.span {digits rest : List Char} (spelled : Digits digits)
    (ends : NoDigit rest) :
    (digits ++ rest).takeWhile Char.isDigit = digits ∧
      (digits ++ rest).dropWhile Char.isDigit = rest := by
  have stops : rest.takeWhile Char.isDigit = [] ∧ rest.dropWhile Char.isDigit = rest := by
    cases rest with
    | nil =>
        exact ⟨rfl, rfl⟩
    | cons c later =>
        have other : c.isDigit = false := ends
        simp [other]
  rw [List.takeWhile_append_of_pos spelled.each, List.dropWhile_append_of_pos spelled.each,
    stops.1, stops.2, List.append_nil]
  exact ⟨rfl, rfl⟩

theorem dropDigits?_digits {digits rest : List Char} (spelled : Digits digits)
    (ends : NoDigit rest) : dropDigits? (digits ++ rest) = some rest := by
  obtain ⟨taken, left⟩ := spelled.span ends
  unfold dropDigits?
  rw [taken, left, if_neg spelled.nonempty]

/-- Signs are not digits. -/
theorem Digits.not_sign {digits rest : List Char} (spelled : Digits digits) :
    dropSign (digits ++ rest) = digits ++ rest := by
  obtain ⟨c, others, rfl, digit⟩ := spelled.starts
  rw [List.cons_append]
  unfold dropSign
  split
  case h_1 same =>
    rw [(List.cons.inj same).1] at digit
    exact absurd digit (by decide)
  case h_2 same =>
    rw [(List.cons.inj same).1] at digit
    exact absurd digit (by decide)
  case h_3 =>
    rfl

theorem Exponent.dropped {exponential : Bool} {exponent rest : List Char}
    (spelled : Exponent exponential exponent) (breaks : Breaks rest) :
    dropExponent? (exponent ++ rest) = some (exponential, rest) := by
  cases spelled with
  | absent =>
      cases rest with
      | nil =>
          rfl
      | cons c later =>
          obtain ⟨_, _, small, large⟩ := breaks
          exact dropExponent?.eq_3 _ (fun _ same => small (List.cons.inj same).1)
            fun _ same => large (List.cons.inj same).1
  | @present mark sign digits marked signed spelled =>
      have unsigned : dropSign ((sign ++ digits) ++ rest) = digits ++ rest := by
        rcases signed with rfl | rfl | rfl
        · exact spelled.not_sign
        · rfl
        · rfl
      have dropped := dropDigits?_digits spelled breaks.noDigit
      rcases marked with rfl | rfl
      · change (dropDigits? (dropSign ((sign ++ digits) ++ rest))).map _ = _
        rw [unsigned, dropped]
        rfl
      · change (dropDigits? (dropSign ((sign ++ digits) ++ rest))).map _ = _
        rw [unsigned, dropped]
        rfl

theorem Exponent.noDigit {exponential : Bool} {exponent rest : List Char}
    (spelled : Exponent exponential exponent) (breaks : Breaks rest) :
    NoDigit (exponent ++ rest) := by
  cases spelled with
  | absent => exact breaks.noDigit
  | present marked signed spelled => rcases marked with rfl | rfl <;> rfl

theorem Fraction.dropped {fractional exponential : Bool} {fraction exponent rest : List Char}
    (spelled : Fraction fractional fraction) (behind : Exponent exponential exponent)
    (breaks : Breaks rest) :
    dropFraction? (fraction ++ (exponent ++ rest)) = some (fractional, exponent ++ rest) := by
  cases spelled with
  | absent =>
      refine dropFraction?.eq_2 _ ?_
      intro later same
      cases behind with
      | absent =>
          change rest = '.' :: later at same
          subst same
          exact breaks.2.1 rfl
      | present marked signed spelled =>
          have mark := (List.cons.inj same).1
          rcases marked with rfl | rfl <;> exact absurd mark (by decide)
  | @present digits spelled =>
      change (dropDigits? (digits ++ (exponent ++ rest))).map _ = _
      rw [dropDigits?_digits spelled (behind.noDigit breaks)]
      rfl

theorem Fraction.noDigit {fractional exponential : Bool} {fraction exponent rest : List Char}
    (spelled : Fraction fractional fraction) (behind : Exponent exponential exponent)
    (breaks : Breaks rest) : NoDigit (fraction ++ (exponent ++ rest)) := by
  cases spelled with
  | absent => exact behind.noDigit breaks
  | present spelled => rfl

/-- The parts of a number are read one after the other. -/
theorem readMagnitude?_parts (negative : Bool) {fractional exponential : Bool}
    {digits fraction exponent rest : List Char} (spelled : Leading digits)
    (before : Fraction fractional fraction) (behind : Exponent exponential exponent)
    (breaks : Breaks rest) :
    readMagnitude? negative (digits ++ (fraction ++ (exponent ++ rest))) =
      some (if fractional || exponential then .real
        else .integer negative (Nat.ofDigitChars 10 digits 0), rest) := by
  obtain ⟨taken, left⟩ := spelled.span (before.noDigit behind breaks)
  have allowed : ¬ (digits = [] ∨ (1 < digits.length ∧ digits.head? = some '0')) := by
    rintro (empty | ⟨long, zero⟩)
    · exact spelled.nonempty empty
    · have single := spelled.zero zero
      omega
  unfold readMagnitude?
  rw [taken, left]
  dsimp only
  rw [if_neg allowed, before.dropped behind breaks]
  change (dropExponent? (exponent ++ rest)).bind _ = _
  rw [behind.dropped breaks]
  rfl

theorem readNumber?_signed (negative : Bool) {digits rest : List Char}
    (spelled : Digits digits) :
    readNumber? (sign negative ++ (digits ++ rest)) =
      readMagnitude? negative (digits ++ rest) := by
  cases negative with
  | true =>
      rfl
  | false =>
      refine readNumber?.eq_2 _ ?_
      intro later same
      obtain ⟨c, others, rfl, digit⟩ := spelled.starts
      rw [(List.cons.inj same).1] at digit
      exact absurd digit (by decide)

/-- A number is read to its end. -/
theorem Numeral.read {number : Number} {spelling rest : List Char}
    (spelled : Numeral number spelling) (breaks : Breaks rest) :
    readNumber? (spelling ++ rest) = some (number, rest) := by
  cases spelled with
  | whole negative spelled =>
      have parts := readMagnitude?_parts negative spelled .absent .absent breaks
      rw [List.append_assoc, readNumber?_signed negative spelled.toDigits]
      exact parts
  | real negative spelled before behind inexact =>
      have parts := readMagnitude?_parts negative spelled before behind breaks
      rw [inexact] at parts
      rw [List.append_assoc, List.append_assoc, List.append_assoc,
        readNumber?_signed negative spelled.toDigits]
      exact parts

/-- A number starts with a sign or a digit. -/
theorem Numeral.starts {number : Number} {spelling : List Char}
    (spelled : Numeral number spelling) :
    ∃ first others, spelling = first :: others ∧ (first = '-' ∨ first.isDigit = true) := by
  have leads : ∀ (negative : Bool) (digits others : List Char), Digits digits →
      ∃ first later, sign negative ++ (digits ++ others) = first :: later ∧
        (first = '-' ∨ first.isDigit = true) := by
    intro negative digits others spelled
    cases negative with
    | true =>
        exact ⟨_, _, rfl, Or.inl rfl⟩
    | false =>
        obtain ⟨c, later, rfl, digit⟩ := spelled.starts
        exact ⟨c, later ++ others, rfl, Or.inr digit⟩
  cases spelled with
  | whole negative spelled =>
      have starts := leads negative _ [] spelled.toDigits
      rw [List.append_nil] at starts
      exact starts
  | real negative spelled before behind inexact =>
      exact leads negative _ _ spelled.toDigits

/-! ## Strings -/

/-- The characters that spell a piece of a string. -/
inductive Piece.Spelled : Piece → List Char → Prop
  | plain {c : Char} (printable : ¬ c.toNat < 0x20) (unquoted : c ≠ '"') (solid : c ≠ '\\') :
      Piece.Spelled (.char c) [c]
  | short {letter escaped : Char} (escapes : shortEscape? letter = some escaped) :
      Piece.Spelled (.char escaped) ['\\', letter]
  | unit {c₃ c₂ c₁ c₀ : Char} {code : Nat} (digits : hexUnit? c₃ c₂ c₁ c₀ = some code) :
      Piece.Spelled (.unit code) ['\\', 'u', c₃, c₂, c₁, c₀]

/-- The characters that spell the pieces of a string. -/
inductive Inscribed : List Piece → List Char → Prop
  | nil : Inscribed [] []
  | cons {piece : Piece} {pieces : List Piece} {spelling others : List Char}
      (spelled : piece.Spelled spelling) (later : Inscribed pieces others) :
      Inscribed (piece :: pieces) (spelling ++ others)

theorem Piece.Spelled.read {piece : Piece} {spelling : List Char}
    (spelled : piece.Spelled spelling) (rest : List Char) :
    readString? (spelling ++ rest) =
      (readString? rest).map fun found => (piece :: found.1, found.2) := by
  cases spelled with
  | @plain c printable unquoted solid =>
      change readString? (c :: rest) = _
      rw [readString?.eq_5 c rest unquoted (fun _ _ _ _ _ slash => absurd slash solid)
        fun _ _ slash => absurd slash solid, if_neg (not_or.mpr ⟨printable, solid⟩)]
      cases readString? rest <;> rfl
  | @short letter escaped escapes =>
      have short : letter ≠ 'u' := by
        rintro rfl
        cases escapes
      change readString? ('\\' :: letter :: rest) = _
      rw [readString?.eq_4 letter rest fun _ _ _ _ _ long => absurd long short, escapes]
      cases readString? rest <;> rfl
  | @unit c₃ c₂ c₁ c₀ code digits =>
      change readString? ('\\' :: 'u' :: c₃ :: c₂ :: c₁ :: c₀ :: rest) = _
      rw [readString?, digits]
      cases readString? rest <;> rfl

/-- A string is read to its closing quote. -/
theorem Inscribed.read {pieces : List Piece} {spelling : List Char}
    (inscribed : Inscribed pieces spelling) (rest : List Char) :
    readString? (spelling ++ '"' :: rest) = some (pieces, rest) := by
  induction inscribed with
  | nil =>
      rfl
  | cons spelled later induction =>
      rw [List.append_assoc, spelled.read, induction]
      rfl

/-! ## Tokens -/

/-- The characters that spell a token. -/
inductive Spelled : Token → List Char → Prop
  | openObject : Spelled .openObject ['\x7b']
  | closeObject : Spelled .closeObject ['\x7d']
  | openArray : Spelled .openArray ['[']
  | closeArray : Spelled .closeArray [']']
  | colon : Spelled .colon [':']
  | comma : Spelled .comma [',']
  | null : Spelled .null ['n', 'u', 'l', 'l']
  | yes : Spelled (.bool true) ['t', 'r', 'u', 'e']
  | no : Spelled (.bool false) ['f', 'a', 'l', 's', 'e']
  | number {number : Number} {spelling : List Char} (spelled : Numeral number spelling) :
      Spelled (.number number) spelling
  | string {pieces : List Piece} {spelling : List Char}
      (inscribed : Inscribed pieces spelling) :
      Spelled (.string (text pieces)) ('"' :: (spelling ++ ['"']))

/-- The texts that spell some tokens, with any blanks before, between and behind them. -/
inductive Spaced : List Token → List Char → Prop
  | done : Spaced [] []
  | blank {tokens : List Token} {c : Char} {rest : List Char} (blank : isBlank c = true)
      (later : Spaced tokens rest) : Spaced tokens (c :: rest)
  | token {token : Token} {tokens : List Token} {spelling rest : List Char}
      (spelled : token.Spelled spelling) (later : Spaced tokens rest) :
      Spaced (token :: tokens) (spelling ++ rest)

/-- Tokens that do not start with a number. -/
def Detached : List Token → Prop
  | .number _ :: _ => False
  | _ => True

/-- Tokens in which no number stands right behind another. -/
def Separated : List Token → Prop
  | [] => True
  | .number _ :: tokens => Detached tokens ∧ Separated tokens
  | _ :: tokens => Separated tokens

theorem Separated.tail {token : Token} {tokens : List Token}
    (separated : Separated (token :: tokens)) : Separated tokens := by
  cases token with
  | number number => exact separated.2
  | _ => exact separated

/-- A number before other tokens is at its end, even without a blank. -/
theorem Spaced.breaks {tokens : List Token} {rest : List Char} (spaced : Spaced tokens rest)
    (detached : Detached tokens) : Breaks rest := by
  cases spaced with
  | done =>
      trivial
  | @blank _ c _ blank later =>
      unfold isBlank at blank
      simp only [Bool.or_eq_true, beq_iff_eq] at blank
      rcases blank with ((rfl | rfl) | rfl) | rfl <;> exact ⟨rfl, by decide⟩
  | token spelled later =>
      cases spelled with
      | number numeral => exact detached.elim
      | _ => exact ⟨rfl, by decide⟩

theorem Numeral.read? {number : Number} {spelling rest : List Char}
    (spelled : Numeral number spelling) (breaks : Breaks rest) :
    Token.read? (spelling ++ rest) = some (.number number, rest) := by
  have reads := spelled.read breaks
  obtain ⟨first, others, rfl, starts⟩ := spelled.starts
  unfold Token.read?
  split
  case h_11 =>
    rw [reads]
    rfl
  all_goals
    rename_i same
    obtain ⟨rfl, _⟩ := List.cons.inj same
    exact absurd starts (by decide)

/-- A token is read from its characters. -/
theorem Spelled.read {token : Token} {spelling rest : List Char}
    (spelled : token.Spelled spelling)
    (ends : ∀ number, token = .number number → Breaks rest) :
    read? (spelling ++ rest) = some (token, rest) := by
  cases spelled with
  | number numeral =>
      exact numeral.read? (ends _ rfl)
  | @string pieces spelling inscribed =>
      change (readString? ((spelling ++ ['"']) ++ rest)).map _ = _
      rw [List.append_assoc, List.singleton_append, inscribed.read]
      rfl
  | _ =>
      rfl

theorem isBlank_of_isDigit {c : Char} (digit : c.isDigit = true) : isBlank c = false := by
  unfold isBlank
  simp only [Bool.or_eq_false_iff, beq_eq_false_iff_ne]
  refine ⟨⟨⟨?_, ?_⟩, ?_⟩, ?_⟩ <;>
    · rintro rfl
      exact absurd digit (by decide)

/-- A token starts with a character that is no blank. -/
theorem Spelled.starts {token : Token} {spelling : List Char}
    (spelled : token.Spelled spelling) :
    ∃ first others, spelling = first :: others ∧ isBlank first = false := by
  cases spelled with
  | number numeral =>
      obtain ⟨first, others, rfl, starts⟩ := numeral.starts
      refine ⟨first, others, rfl, ?_⟩
      rcases starts with rfl | digit
      · rfl
      · exact isBlank_of_isDigit digit
  | _ =>
      exact ⟨_, _, rfl, rfl⟩

/-- Blanks are passed over. -/
theorem lex_blank {c : Char} (blank : isBlank c = true) (rest : List Char) :
    lex (c :: rest) = lex rest := by
  rw [lex, if_pos blank]

/-- A token is split off. -/
theorem lex_read {c : Char} {rest later : List Char} {token : Token}
    (solid : isBlank c = false) (read : read? (c :: rest) = some (token, later)) :
    lex (c :: rest) = (lex later).map (token :: ·) := by
  rw [lex, if_neg (by rw [solid]; decide)]
  split
  · rename_i failed
    rw [read] at failed
    cases failed
  · rename_i found
    rw [read] at found
    cases found
    rfl

/-- A text is split into the tokens that it spells. -/
theorem lex_spaced {tokens : List Token} {characters : List Char}
    (spaced : Spaced tokens characters) (separated : Separated tokens) :
    lex characters = some tokens := by
  induction spaced with
  | done =>
      rw [lex]
  | blank blank later induction =>
      rw [lex_blank blank, induction separated]
  | @token token tokens spelling rest spelled later induction =>
      have reads : read? (spelling ++ rest) = some (token, rest) := by
        refine spelled.read ?_
        rintro number rfl
        exact later.breaks separated.1
      obtain ⟨first, others, rfl, solid⟩ := spelled.starts
      rw [List.cons_append] at reads ⊢
      rw [lex_read solid reads, induction separated.tail]
      rfl

end Token

namespace Json

open Token

/-! ## Values -/

mutual

/-- The tokens of a value. -/
def tokens : Json → List Token
  | .null => [.null]
  | .bool truth => [.bool truth]
  | .number value => [.number value]
  | .string text => [.string text]
  | .array [] => [.openArray, .closeArray]
  | .array (item :: items) =>
      .openArray :: (tokens item ++ (itemTokens items ++ [.closeArray]))
  | .object [] => [.openObject, .closeObject]
  | .object (member :: members) =>
      .openObject :: (memberTokens member ++ (membersTokens members ++ [.closeObject]))

/-- The tokens of the items after the first. -/
def itemTokens : List Json → List Token
  | [] => []
  | item :: items => .comma :: (tokens item ++ itemTokens items)

/-- The tokens of a member. -/
def memberTokens : JsonText × Json → List Token
  | (key, value) => .string key :: .colon :: tokens value

/-- The tokens of the members after the first. -/
def membersTokens : List (JsonText × Json) → List Token
  | [] => []
  | member :: members => .comma :: (memberTokens member ++ membersTokens members)

end

/-- A text spells a value. -/
def Spells (text : String) (value : Json) : Prop :=
  Spaced value.tokens text.toList

theorem detached_items (items : List Json) {rest : List Token} (detached : Detached rest) :
    Detached (itemTokens items ++ rest) := by
  cases items with
  | nil => exact detached
  | cons item items => trivial

theorem detached_members (members : List (JsonText × Json)) {rest : List Token}
    (detached : Detached rest) : Detached (membersTokens members ++ rest) := by
  cases members with
  | nil => exact detached
  | cons member members => trivial

mutual

/-- The tokens of a value put no number right behind another. -/
theorem separated_tokens (value : Json) {rest : List Token} (detached : Detached rest)
    (separated : Separated rest) : Separated (tokens value ++ rest) := by
  match value with
  | .null | .bool _ | .string _ | .array [] | .object [] =>
      exact separated
  | .number _ =>
      exact ⟨detached, separated⟩
  | .array (item :: items) =>
      have closed : Separated (.closeArray :: rest) := separated
      simp only [tokens, List.cons_append, List.append_assoc, List.nil_append]
      exact separated_tokens item (detached_items items trivial)
        (separated_items items trivial closed)
  | .object ((key, given) :: members) =>
      have closed : Separated (.closeObject :: rest) := separated
      simp only [tokens, memberTokens, List.cons_append, List.append_assoc, List.nil_append]
      exact separated_tokens given (detached_members members trivial)
        (separated_members members trivial closed)

theorem separated_items (items : List Json) {rest : List Token} (detached : Detached rest)
    (separated : Separated rest) : Separated (itemTokens items ++ rest) := by
  match items with
  | [] =>
      exact separated
  | item :: items =>
      simp only [itemTokens, List.cons_append, List.append_assoc]
      exact separated_tokens item (detached_items items detached)
        (separated_items items detached separated)

theorem separated_members (members : List (JsonText × Json)) {rest : List Token}
    (detached : Detached rest) (separated : Separated rest) :
    Separated (membersTokens members ++ rest) := by
  match members with
  | [] =>
      exact separated
  | (key, given) :: members =>
      simp only [membersTokens, memberTokens, List.cons_append, List.append_assoc]
      exact separated_tokens given (detached_members members detached)
        (separated_members members detached separated)

end

/-! ## From tokens to values -/

theorem tokens_eq_cons (value : Json) :
    ∃ first others, tokens value = first :: others ∧ first ≠ .closeArray := by
  match value with
  | .null | .bool _ | .number _ | .string _ | .array [] | .array (_ :: _)
  | .object [] | .object (_ :: _) =>
      exact ⟨_, _, rfl, by simp⟩

/-- The first item of an array is read like any other value. -/
theorem take_firstItem (value : Json) (rest : List Token) (frames : List Frame) :
    (tokens value ++ rest).foldlM advance (.firstItem frames) =
      (tokens value ++ rest).foldlM advance (.value (.array [] :: frames)) := by
  obtain ⟨first, others, starts, different⟩ := tokens_eq_cons value
  have same : advance (.firstItem frames) first =
      advance (.value (.array [] :: frames)) first := by
    cases first with
    | closeArray =>
        exact absurd rfl different
    | _ =>
        rfl
  rw [starts, List.cons_append, List.foldlM_cons, List.foldlM_cons, same]

mutual

/-- The tokens of a value are put together to the value. -/
theorem take_tokens (value : Json) (rest : List Token) (frames : List Frame) :
    (tokens value ++ rest).foldlM advance (.value frames) =
      rest.foldlM advance (deliver value frames) := by
  match value with
  | .null | .bool _ | .number _ | .string _ | .array [] | .object [] =>
      rfl
  | .array (item :: items) =>
      simp only [tokens, List.cons_append, List.append_assoc, List.nil_append]
      change (tokens item ++ (itemTokens items ++ .closeArray :: rest)).foldlM advance
        (.firstItem frames) = _
      rw [take_firstItem, take_tokens item]
      change (itemTokens items ++ .closeArray :: rest).foldlM advance
        (.afterItem [item] frames) = _
      rw [take_items items]
      change rest.foldlM advance (deliver (.array (items.reverse ++ [item]).reverse) frames) =
        _
      rw [List.reverse_append, List.reverse_reverse]
      rfl
  | .object ((key, given) :: members) =>
      simp only [tokens, memberTokens, List.cons_append, List.append_assoc,
        List.nil_append]
      change (tokens given ++ (membersTokens members ++ .closeObject :: rest)).foldlM advance
        (.value (.object [] key :: frames)) = _
      rw [take_tokens given]
      change (membersTokens members ++ .closeObject :: rest).foldlM advance
        (.afterMember [(key, given)] frames) = _
      rw [take_members members]
      change rest.foldlM advance
        (deliver (.object (members.reverse ++ [(key, given)]).reverse) frames) = _
      rw [List.reverse_append, List.reverse_reverse]
      rfl

theorem take_items (items : List Json) (rest : List Token) (taken : List Json)
    (frames : List Frame) :
    (itemTokens items ++ rest).foldlM advance (.afterItem taken frames) =
      rest.foldlM advance (.afterItem (items.reverse ++ taken) frames) := by
  match items with
  | [] =>
      rfl
  | item :: items =>
      simp only [itemTokens, List.cons_append, List.append_assoc]
      change (tokens item ++ (itemTokens items ++ rest)).foldlM advance
        (.value (.array taken :: frames)) = _
      rw [take_tokens item]
      change (itemTokens items ++ rest).foldlM advance (.afterItem (item :: taken) frames) =
        _
      rw [take_items items, List.reverse_cons, List.append_assoc]
      rfl

theorem take_members (members : List (JsonText × Json)) (rest : List Token)
    (taken : List (JsonText × Json)) (frames : List Frame) :
    (membersTokens members ++ rest).foldlM advance (.afterMember taken frames) =
      rest.foldlM advance (.afterMember (members.reverse ++ taken) frames) := by
  match members with
  | [] =>
      rfl
  | (key, given) :: members =>
      simp only [membersTokens, memberTokens, List.cons_append, List.append_assoc]
      change (tokens given ++ (membersTokens members ++ rest)).foldlM advance
        (.value (.object taken key :: frames)) = _
      rw [take_tokens given]
      change (membersTokens members ++ rest).foldlM advance
        (.afterMember ((key, given) :: taken) frames) = _
      rw [take_members members, List.reverse_cons, List.append_assoc]
      rfl

end

theorem ofTokens?_tokens (value : Json) : ofTokens? (tokens value) = some value := by
  have taken := take_tokens value [] []
  rw [List.append_nil] at taken
  unfold ofTokens?
  rw [taken]
  rfl

/-- A text that spells a value is read as that value. -/
theorem parse?_of_spells {text : String} {value : Json} (spells : Spells text value) :
    parse? text = some value := by
  have separated := @separated_tokens value [] trivial trivial
  rw [List.append_nil] at separated
  unfold parse?
  rw [lex_spaced spells separated]
  exact ofTokens?_tokens value

end Json

end Lockstep
