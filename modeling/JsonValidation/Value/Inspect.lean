import JsonValidation.Value.Basic
import JsonValidation.Inspect

/-!
# Developer texts of values

`Value.inspect` names the constructor of every part of a value, so that an integer and a double, or
a string and a number, cannot be confused.
-/

namespace JsonValidation

mutual

/-- The developer text of a value. -/
def Value.inspect : Value → String
  | .null => "Null"
  | .boolean b => Inspect.labelled "Bool" (if b then "true" else "false")
  | .number n => Inspect.labelled "Number" n.text
  | .string s => Inspect.labelled "String" (Inspect.quoted s)
  | .array items => "Array " ++ Inspect.list (Value.inspectItems items)
  | .object entries => "Object " ++ Inspect.map (Value.inspectEntries entries)

/-- The developer texts of values. -/
def Value.inspectItems : List Value → List String
  | [] => []
  | v :: rest => v.inspect :: Value.inspectItems rest

/-- The keys of entries with the developer texts of their values. -/
def Value.inspectEntries : List (String × Value) → List (String × String)
  | [] => []
  | (key, v) :: rest => (key, v.inspect) :: Value.inspectEntries rest

end

/-- The developer text of an input. -/
def Input.inspect : Input → String
  | .absent => Inspect.option none
  | .present v => Inspect.option (some v.inspect)

end JsonValidation
