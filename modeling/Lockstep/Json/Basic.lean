/-!
# JSON values

A JSON value as a document writes it: members stay in the order of the text
and a repeated key stays repeated, because a reader may object to it.  Only
whole numbers keep their value.
-/

namespace Lockstep

/-- A number of a document. -/
inductive Number where
  /-- Written without fraction and exponent; the sign is kept on zero too. -/
  | integer (negative : Bool) (magnitude : Nat)
  /-- Written with a fraction or an exponent. -/
  | real
deriving DecidableEq

/--
The text that a string of a document denotes.  A string with an unpaired
surrogate is well formed and denotes no text.
-/
abbrev JsonText : Type := Option String

/-- A value of a document. -/
inductive Json where
  | null
  | bool (truth : Bool)
  | number (number : Number)
  | string (text : JsonText)
  | array (items : List Json)
  | object (members : List (JsonText × Json))

namespace Json

/-- A size as a JSON number. -/
def ofNat (size : Nat) : Json :=
  .number (.integer false size)

/-- A text as a JSON string. -/
def ofString (text : String) : Json :=
  .string (some text)

/-- A list of values as a JSON array. -/
def ofList {α : Type} (encode : α → Json) (values : List α) : Json :=
  .array (values.map encode)

/-- An object from its keys and values. -/
def ofFields (fields : List (String × Json)) : Json :=
  .object (fields.map fun field => (some field.1, field.2))

end Json

end Lockstep
