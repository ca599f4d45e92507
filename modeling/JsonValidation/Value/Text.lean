import JsonValidation.Value.Basic

/-!
# JSON text

The compact text of a value: no blanks, entries in order, and only those characters escaped that
JSON does not allow in a string.

* `Value.quoted`: a string in quotes;
* `Value.text`, `Input.text`: the text of a value, and of an input.
-/

namespace JsonValidation

/-- A character of a string as JSON text. -/
def Value.escaped (c : Char) : List Char :=
  if c = '"' then ['\\', '"']
  else if c = '\\' then ['\\', '\\']
  else if c = '\n' then ['\\', 'n']
  else if c = '\r' then ['\\', 'r']
  else if c = '\t' then ['\\', 't']
  else if c = '\x08' then ['\\', 'b']
  else if c = '\x0c' then ['\\', 'f']
  else if c.toNat < 0x20 then
    ['\\', 'u', '0', '0', Nat.digitChar (c.toNat / 16), Nat.digitChar (c.toNat % 16)]
  else [c]

/-- A string in quotes. -/
def Value.quoted (s : String) : String :=
  "\"" ++ String.ofList (s.toList.flatMap Value.escaped) ++ "\""

mutual

/-- The compact JSON text of a value. -/
def Value.text : Value → String
  | .null => "null"
  | .boolean b => if b then "true" else "false"
  | .number n => n.text
  | .string s => Value.quoted s
  | .array items => "[" ++ ",".intercalate (Value.itemTexts items) ++ "]"
  | .object entries => "\x7b" ++ ",".intercalate (Value.entryTexts entries) ++ "\x7d"

/-- The texts of values. -/
def Value.itemTexts : List Value → List String
  | [] => []
  | v :: rest => v.text :: Value.itemTexts rest

/-- The texts of entries. -/
def Value.entryTexts : List (String × Value) → List String
  | [] => []
  | (key, v) :: rest => (Value.quoted key ++ ":" ++ v.text) :: Value.entryTexts rest

end

theorem Value.itemTexts_eq_map (items : List Value) :
    Value.itemTexts items = items.map Value.text := by
  induction items with
  | nil => rfl
  | cons v rest ih => rw [Value.itemTexts, ih, List.map_cons]

theorem Value.entryTexts_eq_map (entries : List (String × Value)) :
    Value.entryTexts entries = entries.map fun e => Value.quoted e.1 ++ ":" ++ e.2.text := by
  induction entries with
  | nil => rfl
  | cons e rest ih => rw [Value.entryTexts, ih, List.map_cons]

/-- The text of an input in messages. -/
def Input.text : Input → String
  | .absent => "undefined"
  | .present v => v.text

end JsonValidation
