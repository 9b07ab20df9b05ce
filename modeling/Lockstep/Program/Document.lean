import Lockstep.Json.Parser
import Lockstep.Json.Printer
import Lockstep.Program.Basic

/-!
# Programs as documents

A program is stored as a JSON document.  Writing puts down every field in
declaration order.  Reading is more generous: a record is an object whose
members may stand in any order, or an array of its fields in declaration
order; fields with a default may be missing; members with unknown keys are
ignored.  A known key that stands twice, a missing field without default and
a value of the wrong form are refused.
-/

namespace Lockstep

/-- The fields of a record as a document gives them, if it gives them. -/
abbrev Fields : Type := List (Option Json)

namespace Fields

/-- The value of a key that must not stand twice. -/
def lookup? (members : List (JsonText × Json)) (key : String) :
    Option (Option Json) :=
  match members.filter fun member => member.1 == some key with
  | [] => some none
  | [member] => some (some member.2)
  | _ => none

/-- The fields with given keys, from an object or an array. -/
def ofJson? (keys : List String) : Json → Option Fields
  | .object members =>
      if members.all fun member => member.1.isSome then
        keys.mapM (lookup? members)
      else none
  | .array items =>
      if items.length ≤ keys.length then
        some (items.map some ++ List.replicate (keys.length - items.length) none)
      else none
  | _ => none

/-- A field that must be there. -/
def required {α : Type} (read : Json → Option α) : Option Json → Option α
  | some value => read value
  | none => none

/-- A field that has a default. -/
def defaulted {α : Type} (default : α) (read : Json → Option α) :
    Option Json → Option α
  | some value => read value
  | none => some default

end Fields

namespace Json

/-- Read a size. -/
def size? : Json → Option Nat
  | .number (.integer false magnitude) =>
      if magnitude ≤ largestSize then some magnitude else none
  | _ => none

/-- Read a byte. -/
def byte? : Json → Option UInt8
  | .number (.integer false magnitude) =>
      if magnitude < 256 then some (UInt8.ofNat magnitude) else none
  | _ => none

/-- Read a truth value. -/
def truth? : Json → Option Bool
  | .bool truth => some truth
  | _ => none

/-- Read a text. -/
def text? : Json → Option String
  | .string text => text
  | _ => none

/-- Read a list. -/
def list? {α : Type} (read : Json → Option α) : Json → Option (List α)
  | .array items => items.mapM read
  | _ => none

end Json

open Fields Json

/-- The keys of a parameter. -/
def Parameter.keys : List String := ["slot_count", "is_out"]

/-- Read a parameter. -/
def Parameter.ofJson? (json : Json) : Option Parameter := do
  match ← Fields.ofJson? Parameter.keys json with
  | [slotCount, isOut] =>
      return {
        slotCount := ← required size? slotCount
        isOut := ← defaulted false truth? isOut }
  | _ => none

/-- A parameter as a JSON value. -/
def Parameter.toJson (parameter : Parameter) : Json :=
  .ofFields [
    ("slot_count", .ofNat parameter.slotCount),
    ("is_out", .bool parameter.isOut)]

/-- The keys of a function. -/
def Function.keys : List String :=
  ["name", "parameter_count", "local_count", "stack_count", "return_count",
    "parameters", "condition_depth", "loop_depth", "code"]

/-- Read a function. -/
def Function.ofJson? (json : Json) : Option Function := do
  match ← Fields.ofJson? Function.keys json with
  | [name, parameterCount, localCount, stackCount, returnCount, parameters,
      conditionDepth, loopDepth, code] =>
      return {
        name := ← required text? name
        parameterCount := ← required size? parameterCount
        localCount := ← defaulted 0 size? localCount
        stackCount := ← defaulted 0 size? stackCount
        returnCount := ← defaulted 0 size? returnCount
        parameters := ← defaulted [] (list? Parameter.ofJson?) parameters
        conditionDepth := ← defaulted 0 size? conditionDepth
        loopDepth := ← defaulted 0 size? loopDepth
        code := ← required (list? byte?) code }
  | _ => none

/-- A function as a JSON value. -/
def Function.toJson (function : Function) : Json :=
  .ofFields [
    ("name", .ofString function.name),
    ("parameter_count", .ofNat function.parameterCount),
    ("local_count", .ofNat function.localCount),
    ("stack_count", .ofNat function.stackCount),
    ("return_count", .ofNat function.returnCount),
    ("parameters", .ofList Parameter.toJson function.parameters),
    ("condition_depth", .ofNat function.conditionDepth),
    ("loop_depth", .ofNat function.loopDepth),
    ("code", .ofList (fun byte => .ofNat byte.toNat) function.code)]

/-- The keys of a program. -/
def Program.keys : List String :=
  ["functions", "global_slot_count", "uniform_slot_count", "input_slot_map"]

/-- Read a program. -/
def Program.ofJson? (json : Json) : Option Program := do
  match ← Fields.ofJson? Program.keys json with
  | [functions, globalCount, uniformCount, inputMap] =>
      return {
        functions := ← required (list? Function.ofJson?) functions
        globalCount := ← defaulted 0 size? globalCount
        uniformCount := ← defaulted 0 size? uniformCount
        inputMap := ← defaulted [] (list? size?) inputMap }
  | _ => none

/-- A program as a JSON value. -/
def Program.toJson (program : Program) : Json :=
  .ofFields [
    ("functions", .ofList Function.toJson program.functions),
    ("global_slot_count", .ofNat program.globalCount),
    ("uniform_slot_count", .ofNat program.uniformCount),
    ("input_slot_map", .ofList .ofNat program.inputMap)]

/-- The program that a document holds. -/
def Program.parse? (text : String) : Option Program :=
  (Json.parse? text).bind Program.ofJson?

/-- The document that holds a program. -/
def Program.document (program : Program) : String :=
  program.toJson.pretty

end Lockstep
