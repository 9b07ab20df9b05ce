import Lockstep.Json.Basic

/-!
# Writing JSON values

A value is written with one item or member to a line, two blanks of
indentation for each container around it, and one blank after a colon.  Empty
containers stay on one line.  Strings escape the quote, the backslash and the
control characters, and nothing else.
-/

namespace Lockstep.Json

/-- The last two hexadecimal digits of a character below the blank. -/
def controlDigits (c : Char) : List Char :=
  [Nat.digitChar (c.toNat / 16), Nat.digitChar (c.toNat % 16)]

/-- The written form of one character of a string. -/
def escape (c : Char) : List Char :=
  if c = '"' then ['\\', '"']
  else if c = '\\' then ['\\', '\\']
  else if c = '\x08' then ['\\', 'b']
  else if c = '\x0c' then ['\\', 'f']
  else if c = '\n' then ['\\', 'n']
  else if c = '\r' then ['\\', 'r']
  else if c = '\t' then ['\\', 't']
  else if c.toNat < 0x20 then ['\\', 'u', '0', '0'] ++ controlDigits c
  else [c]

/-- The written form of a text. -/
def quoted (text : List Char) : List Char :=
  '"' :: (text.flatMap escape ++ ['"'])

/-- The written form of a string; one that denotes no text is written empty. -/
def writtenText (text : JsonText) : List Char :=
  quoted (text.getD "").toList

/-- The written form of a number; one that is not whole is written as `0.0`. -/
def writtenNumber : Number → List Char
  | .integer negative magnitude =>
      (if negative then ['-'] else []) ++ Nat.toDigits 10 magnitude
  | .real => ['0', '.', '0']

/-- Start a line inside a given number of containers. -/
def newline (depth : Nat) : List Char :=
  '\n' :: List.replicate (2 * depth) ' '

mutual

/-- The written form of a value inside a given number of containers. -/
def written (depth : Nat) : Json → List Char
  | .null => ['n', 'u', 'l', 'l']
  | .bool true => ['t', 'r', 'u', 'e']
  | .bool false => ['f', 'a', 'l', 's', 'e']
  | .number value => writtenNumber value
  | .string text => writtenText text
  | .array [] => ['[', ']']
  | .array (item :: items) =>
      '[' :: (newline (depth + 1) ++ written (depth + 1) item ++
        writtenItems (depth + 1) items ++ newline depth ++ [']'])
  | .object [] => ['\x7b', '\x7d']
  | .object (member :: members) =>
      '\x7b' :: (newline (depth + 1) ++ writtenMember (depth + 1) member ++
        writtenMembers (depth + 1) members ++ newline depth ++ ['\x7d'])

/-- The written form of the items after the first. -/
def writtenItems (depth : Nat) : List Json → List Char
  | [] => []
  | item :: items =>
      ',' :: (newline depth ++ written depth item ++ writtenItems depth items)

/-- The written form of a member. -/
def writtenMember (depth : Nat) : JsonText × Json → List Char
  | (key, value) => writtenText key ++ [':', ' '] ++ written depth value

/-- The written form of the members after the first. -/
def writtenMembers (depth : Nat) : List (JsonText × Json) → List Char
  | [] => []
  | member :: members =>
      ',' :: (newline depth ++ writtenMember depth member ++
        writtenMembers depth members)

end

/-- The text of a document that holds a value. -/
def pretty (value : Json) : String :=
  String.ofList (written 0 value)

end Lockstep.Json
