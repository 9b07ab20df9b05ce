import Lockstep.Json.Basic

/-!
# JSON tokens

`Token.lex` splits the text of a document into tokens and drops the blanks
between them.  It refuses a text with a malformed number, a malformed string,
a raw control character inside a string, or a character that starts no token.
-/

namespace Lockstep

/-- A token of a document. -/
inductive Token where
  | openObject
  | closeObject
  | openArray
  | closeArray
  | colon
  | comma
  | null
  | bool (truth : Bool)
  | number (number : Number)
  | string (text : JsonText)
deriving DecidableEq

namespace Token

/-- The characters that may stand between tokens. -/
def isBlank (c : Char) : Bool :=
  c == ' ' || c == '\n' || c == '\t' || c == '\r'

/-! ## Strings -/

/-- A part of a string as it is written. -/
inductive Piece where
  /-- A character, written plainly or by a short escape. -/
  | char (c : Char)
  /-- A UTF-16 unit, written by its four hexadecimal digits. -/
  | unit (code : Nat)
deriving DecidableEq

/-- The character that a short escape stands for. -/
def shortEscape? : Char → Option Char
  | '"' => some '"'
  | '\\' => some '\\'
  | '/' => some '/'
  | 'b' => some '\x08'
  | 'f' => some '\x0c'
  | 'n' => some '\n'
  | 'r' => some '\r'
  | 't' => some '\t'
  | _ => none

/-- The value of a hexadecimal digit of either case. -/
def hexDigit? (c : Char) : Option Nat :=
  if '0' ≤ c ∧ c ≤ '9' then some (c.toNat - '0'.toNat)
  else if 'a' ≤ c ∧ c ≤ 'f' then some (c.toNat - 'a'.toNat + 10)
  else if 'A' ≤ c ∧ c ≤ 'F' then some (c.toNat - 'A'.toNat + 10)
  else none

/-- The unit that four hexadecimal digits spell. -/
def hexUnit? (c₃ c₂ c₁ c₀ : Char) : Option Nat := do
  return (((← hexDigit? c₃) * 16 + (← hexDigit? c₂)) * 16 + (← hexDigit? c₁)) * 16
    + (← hexDigit? c₀)

/-- Read a string up to its closing quote; the opening quote is already read. -/
def readString? : List Char → Option (List Piece × List Char)
  | [] => none
  | '"' :: rest => some ([], rest)
  | '\\' :: 'u' :: c₃ :: c₂ :: c₁ :: c₀ :: rest => do
      let code ← hexUnit? c₃ c₂ c₁ c₀
      let (pieces, later) ← readString? rest
      return (.unit code :: pieces, later)
  | '\\' :: c :: rest => do
      let escaped ← shortEscape? c
      let (pieces, later) ← readString? rest
      return (.char escaped :: pieces, later)
  | c :: rest =>
      if c.toNat < 0x20 ∨ c = '\\' then none
      else do
        let (pieces, later) ← readString? rest
        return (.char c :: pieces, later)

/-- Whether a unit is the first half of a surrogate pair. -/
def isLeading (code : Nat) : Bool :=
  0xd800 ≤ code && code ≤ 0xdbff

/-- Whether a unit is the second half of a surrogate pair. -/
def isTrailing (code : Nat) : Bool :=
  0xdc00 ≤ code && code ≤ 0xdfff

/-- The character of a surrogate pair. -/
def pairChar (leading trailing : Nat) : Char :=
  Char.ofNat ((leading - 0xd800) * 0x400 + (trailing - 0xdc00) + 0x10000)

/-- The characters of the pieces, unless a surrogate stands alone. -/
def pairUnits? : List Piece → Option (List Char)
  | [] => some []
  | .char c :: rest => do return c :: (← pairUnits? rest)
  | .unit leading :: .unit trailing :: rest =>
      if isLeading leading then
        if isTrailing trailing then do
          return pairChar leading trailing :: (← pairUnits? rest)
        else none
      else if isTrailing leading then none
      else do return Char.ofNat leading :: (← pairUnits? (.unit trailing :: rest))
  | .unit code :: rest =>
      if isLeading code || isTrailing code then none
      else do return Char.ofNat code :: (← pairUnits? rest)

/-- The text of the pieces, unless a surrogate stands alone. -/
def text (pieces : List Piece) : JsonText :=
  (pairUnits? pieces).map String.ofList

theorem readString?_length {characters later : List Char} {pieces : List Piece}
    (read : readString? characters = some (pieces, later)) :
    later.length < characters.length := by
  fun_induction readString? characters generalizing pieces later with
  | case1 => simp at read
  | case2 rest => simp_all
  | case3 c₃ c₂ c₁ c₀ rest ih =>
    simp only [Option.bind_eq_bind, Option.bind_eq_some_iff] at read
    obtain ⟨_, _, ⟨inner, tail⟩, found, result⟩ := read
    have shorter := ih found
    simp only [pure, Option.some.injEq, Prod.mk.injEq] at result
    obtain ⟨_, rfl⟩ := result
    simp only [List.length_cons]
    omega
  | case4 c rest _ ih =>
    simp only [Option.bind_eq_bind, Option.bind_eq_some_iff] at read
    obtain ⟨_, _, ⟨inner, tail⟩, found, result⟩ := read
    have shorter := ih found
    simp only [pure, Option.some.injEq, Prod.mk.injEq] at result
    obtain ⟨_, rfl⟩ := result
    simp only [List.length_cons]
    omega
  | case5 => simp at read
  | case6 c rest _ _ _ _ ih =>
    simp only [Option.bind_eq_bind, Option.bind_eq_some_iff] at read
    obtain ⟨⟨inner, tail⟩, found, result⟩ := read
    have shorter := ih found
    simp only [pure, Option.some.injEq, Prod.mk.injEq] at result
    obtain ⟨_, rfl⟩ := result
    simp only [List.length_cons]
    omega

/-! ## Numbers -/

/-- Drop a run of digits that must not be empty. -/
def dropDigits? (characters : List Char) : Option (List Char) :=
  if characters.takeWhile Char.isDigit = [] then none
  else some (characters.dropWhile Char.isDigit)

/-- Drop a fraction if there is one, and tell whether there was. -/
def dropFraction? : List Char → Option (Bool × List Char)
  | '.' :: rest => (dropDigits? rest).map fun later => (true, later)
  | characters => some (false, characters)

/-- Drop the sign of an exponent. -/
def dropSign : List Char → List Char
  | '+' :: rest => rest
  | '-' :: rest => rest
  | characters => characters

/-- Drop an exponent if there is one, and tell whether there was. -/
def dropExponent? : List Char → Option (Bool × List Char)
  | 'e' :: rest => (dropDigits? (dropSign rest)).map fun later => (true, later)
  | 'E' :: rest => (dropDigits? (dropSign rest)).map fun later => (true, later)
  | characters => some (false, characters)

/-- Read a number without its sign. -/
def readMagnitude? (negative : Bool) (characters : List Char) :
    Option (Number × List Char) := do
  let digits := characters.takeWhile Char.isDigit
  if digits = [] ∨ (1 < digits.length ∧ digits.head? = some '0') then none
  else
    let (fraction, afterFraction) ←
      dropFraction? (characters.dropWhile Char.isDigit)
    let (exponent, later) ← dropExponent? afterFraction
    let number :=
      if fraction || exponent then .real
      else .integer negative (Nat.ofDigitChars 10 digits 0)
    return (number, later)

/-- Read a number. -/
def readNumber? : List Char → Option (Number × List Char)
  | '-' :: rest => readMagnitude? true rest
  | characters => readMagnitude? false characters

theorem length_dropWhile_lt {test : Char → Bool} {characters : List Char}
    (nonempty : characters.takeWhile test ≠ []) :
    (characters.dropWhile test).length < characters.length := by
  have split := congrArg List.length
    (List.takeWhile_append_dropWhile (p := test) (l := characters))
  have positive := List.length_pos_iff.mpr nonempty
  simp only [List.length_append] at split
  omega

theorem dropDigits?_length {characters later : List Char}
    (dropped : dropDigits? characters = some later) :
    later.length < characters.length := by
  unfold dropDigits? at dropped
  split at dropped
  · simp at dropped
  · next nonempty =>
    simp only [Option.some.injEq] at dropped
    subst dropped
    exact length_dropWhile_lt nonempty

theorem length_dropSign_le (characters : List Char) :
    (dropSign characters).length ≤ characters.length := by
  unfold dropSign
  split <;> simp

theorem dropFraction?_length {characters later : List Char} {found : Bool}
    (dropped : dropFraction? characters = some (found, later)) :
    later.length ≤ characters.length := by
  unfold dropFraction? at dropped
  split at dropped
  · simp only [Option.map_eq_some_iff, Prod.mk.injEq] at dropped
    obtain ⟨_, digits, _, rfl⟩ := dropped
    have shorter := dropDigits?_length digits
    simp only [List.length_cons]
    omega
  · simp_all

theorem dropExponent?_length {characters later : List Char} {found : Bool}
    (dropped : dropExponent? characters = some (found, later)) :
    later.length ≤ characters.length := by
  have exponent : ∀ rest : List Char,
      (dropDigits? (dropSign rest)).map (fun later => (true, later)) =
        some (found, later) → later.length ≤ rest.length + 1 := by
    intro rest equation
    simp only [Option.map_eq_some_iff, Prod.mk.injEq] at equation
    obtain ⟨_, digits, _, rfl⟩ := equation
    have shorter := dropDigits?_length digits
    have sign := length_dropSign_le rest
    omega
  unfold dropExponent? at dropped
  split at dropped
  · simpa using exponent _ dropped
  · simpa using exponent _ dropped
  · simp_all

theorem readMagnitude?_length {negative : Bool} {characters later : List Char}
    {number : Number}
    (read : readMagnitude? negative characters = some (number, later)) :
    later.length < characters.length := by
  unfold readMagnitude? at read
  simp only at read
  split at read
  · simp at read
  · next digits =>
    simp only [not_or] at digits
    simp only [Option.bind_eq_bind, Option.bind_eq_some_iff] at read
    obtain ⟨⟨_, _⟩, fraction, ⟨_, _⟩, exponent, result⟩ := read
    simp only [pure, Option.some.injEq, Prod.mk.injEq] at result
    obtain ⟨_, rfl⟩ := result
    have afterDigits := length_dropWhile_lt digits.1
    have afterFraction := dropFraction?_length fraction
    have afterExponent := dropExponent?_length exponent
    simp only at afterExponent
    omega

theorem readNumber?_length {characters later : List Char} {number : Number}
    (read : readNumber? characters = some (number, later)) :
    later.length < characters.length := by
  unfold readNumber? at read
  split at read
  · have shorter := readMagnitude?_length read
    simp only [List.length_cons]
    omega
  · exact readMagnitude?_length read

/-! ## Texts -/

/-- Read the token at the front of a text. -/
def read? : List Char → Option (Token × List Char)
  | '\x7b' :: rest => some (.openObject, rest)
  | '\x7d' :: rest => some (.closeObject, rest)
  | '[' :: rest => some (.openArray, rest)
  | ']' :: rest => some (.closeArray, rest)
  | ':' :: rest => some (.colon, rest)
  | ',' :: rest => some (.comma, rest)
  | '"' :: rest =>
      (readString? rest).map fun (pieces, later) => (.string (text pieces), later)
  | 'n' :: 'u' :: 'l' :: 'l' :: rest => some (.null, rest)
  | 't' :: 'r' :: 'u' :: 'e' :: rest => some (.bool true, rest)
  | 'f' :: 'a' :: 'l' :: 's' :: 'e' :: rest => some (.bool false, rest)
  | characters =>
      (readNumber? characters).map fun (value, later) => (.number value, later)

/-- Reading a token leaves a shorter text. -/
theorem read?_length {characters later : List Char} {token : Token}
    (read : read? characters = some (token, later)) :
    later.length < characters.length := by
  unfold read? at read
  split at read
  case h_7 rest =>
    simp only [Option.map_eq_some_iff, Prod.mk.injEq] at read
    obtain ⟨⟨_, _⟩, found, _, rfl⟩ := read
    have shorter := readString?_length found
    simp only [List.length_cons]
    omega
  case h_11 =>
    simp only [Option.map_eq_some_iff, Prod.mk.injEq] at read
    obtain ⟨⟨_, _⟩, found, _, rfl⟩ := read
    exact readNumber?_length found
  all_goals
    simp only [Option.some.injEq, Prod.mk.injEq] at read
    obtain ⟨_, rfl⟩ := read
    simp only [List.length_cons]
    omega

/-- The tokens of a text. -/
def lex : List Char → Option (List Token)
  | [] => some []
  | c :: rest =>
      if isBlank c then lex rest
      else
        match _read : read? (c :: rest) with
        | none => none
        | some (token, later) => (lex later).map (token :: ·)
termination_by characters => characters.length
decreasing_by
  · simp
  · exact read?_length _read

end Token

end Lockstep
