import Lockstep.Program.Basic

/-!
# One-line summaries

A program can be shown on one line: every record with its fields in order,
lists in brackets, and only the number of the attached externals.  Names are
taken to be printable ASCII; a quote or a backslash in a name is escaped.
-/

namespace Lockstep

namespace Summary

/-- A list in brackets. -/
def list {α : Type} (render : α → String) (values : List α) : String :=
  "[" ++ String.intercalate ", " (values.map render) ++ "]"

/-- A record with its title and its fields. -/
def record (title : String) (fields : List (String × String)) : String :=
  title ++ " \x7b " ++
    String.intercalate ", " (fields.map fun field => field.1 ++ ": " ++ field.2) ++
    " \x7d"

/-- A name in quotes. -/
def quoted (name : String) : String :=
  String.ofList ('"' :: (name.toList.flatMap fun c =>
    if c = '"' ∨ c = '\\' then ['\\', c] else [c]) ++ ['"'])

end Summary

open Summary

/-- The summary of a parameter. -/
def Parameter.summary (parameter : Parameter) : String :=
  record "Parameter" [
    ("slot_count", toString parameter.slotCount),
    ("is_out", toString parameter.isOut)]

/-- The summary of a function. -/
def Function.summary (function : Function) : String :=
  record "Function" [
    ("name", quoted function.name),
    ("parameter_count", toString function.parameterCount),
    ("local_count", toString function.localCount),
    ("stack_count", toString function.stackCount),
    ("return_count", toString function.returnCount),
    ("parameters", list Parameter.summary function.parameters),
    ("condition_depth", toString function.conditionDepth),
    ("loop_depth", toString function.loopDepth),
    ("code", list toString function.code)]

/-- The summary of a program with a given number of externals. -/
def Program.summary (program : Program) (externals : Nat) : String :=
  record "Program" [
    ("functions", list Function.summary program.functions),
    ("global_slot_count", toString program.globalCount),
    ("uniform_slot_count", toString program.uniformCount),
    ("input_slot_map", list toString program.inputMap),
    ("external_values", toString externals)]

end Lockstep
