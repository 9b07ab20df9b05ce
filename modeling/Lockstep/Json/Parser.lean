import Lockstep.Json.Token

/-!
# From tokens to values

A value is built by walking its tokens once from left to right.  What has been
read so far is a stack of containers that are still open, so the depth of
nesting is limited by nothing but the text.  A container is delivered to the
one around it as soon as it closes.
-/

namespace Lockstep.Json

/-- A container that is still open, its parts so far in reverse order. -/
inductive Frame where
  | array (items : List Json)
  /-- The value of the key is being read. -/
  | object (members : List (JsonText × Json)) (key : JsonText)

/-- What may come next. -/
inductive Expectation where
  /-- A value. -/
  | value (frames : List Frame)
  /-- The first item of an array, or its end. -/
  | firstItem (frames : List Frame)
  /-- The first key of an object, or its end. -/
  | firstKey (frames : List Frame)
  /-- Another key of an object. -/
  | key (members : List (JsonText × Json)) (frames : List Frame)
  /-- The colon after a key. -/
  | colon (members : List (JsonText × Json)) (key : JsonText) (frames : List Frame)
  /-- A comma, or the end of an array. -/
  | afterItem (items : List Json) (frames : List Frame)
  /-- A comma, or the end of an object. -/
  | afterMember (members : List (JsonText × Json)) (frames : List Frame)
  /-- Nothing. -/
  | finished (value : Json)

/-- Hand a finished value to the container around it. -/
def deliver (value : Json) : List Frame → Expectation
  | [] => .finished value
  | .array items :: frames => .afterItem (value :: items) frames
  | .object members key :: frames => .afterMember ((key, value) :: members) frames

/-- Start a value with its first token. -/
def begin (frames : List Frame) : Token → Option Expectation
  | .null => some (deliver .null frames)
  | .bool truth => some (deliver (.bool truth) frames)
  | .number value => some (deliver (.number value) frames)
  | .string text => some (deliver (.string text) frames)
  | .openArray => some (.firstItem frames)
  | .openObject => some (.firstKey frames)
  | _ => none

/-- Take one token. -/
def advance : Expectation → Token → Option Expectation
  | .value frames, token => begin frames token
  | .firstItem frames, .closeArray => some (deliver (.array []) frames)
  | .firstItem frames, token => begin (.array [] :: frames) token
  | .firstKey frames, .closeObject => some (deliver (.object []) frames)
  | .firstKey frames, .string key => some (.colon [] key frames)
  | .key members frames, .string key => some (.colon members key frames)
  | .colon members key frames, .colon => some (.value (.object members key :: frames))
  | .afterItem items frames, .comma => some (.value (.array items :: frames))
  | .afterItem items frames, .closeArray =>
      some (deliver (.array items.reverse) frames)
  | .afterMember members frames, .comma => some (.key members frames)
  | .afterMember members frames, .closeObject =>
      some (deliver (.object members.reverse) frames)
  | _, _ => none

/-- The value that some tokens spell. -/
def ofTokens? (tokens : List Token) : Option Json :=
  match tokens.foldlM advance (.value []) with
  | some (.finished value) => some value
  | _ => none

/-- The value that a text spells. -/
def parse? (text : String) : Option Json :=
  (Token.lex text.toList).bind ofTokens?

end Lockstep.Json
