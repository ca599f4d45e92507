import JsonValidation.ViewType
import JsonValidation.Value.Basic
import JsonValidation.Fault

/-!
# Views of accepted values

A view holds an input together with the type it is used as. The accessors of a view are those of its
type; one that meets an input of another kind is a fault, because the schema that accepted the input
claimed more than it checked.

* `View.string`, `View.number`, `View.boolean`: the contents of scalar values;
* `View.elements`, `View.entries`: views of the parts of arrays and records.
-/

namespace JsonValidation

/-- An input used as a type; `isWhole` tells the input that was parsed from its parts. -/
structure View (type : ViewType) where
  input : Input
  isWhole : Bool

namespace View

variable {type : ViewType}

/-- The view of the input that was parsed. -/
def whole (type : ViewType) (input : Input) : View type := ⟨input, true⟩

/-- The view of a part of the input that was parsed. -/
def part (type : ViewType) (v : Value) : View type := ⟨.present v, false⟩

/-- Whether a view is of the value that was parsed. -/
def isInput (view : View type) : Bool := view.isWhole && view.input.isPresent

/-- The entries of the value, if it is an object. -/
def entries? (view : View type) : Option (List (String × Value)) :=
  view.input.value?.bind Value.entries?

/-- The elements of the value, if it is an array. -/
def items? (view : View type) : Option (List Value) :=
  view.input.value?.bind Value.items?

/-- What a view holds, which has to be of a kind. -/
def expect {α : Type} (kind : Kind) : Option α → Except Fault α
  | some a => .ok a
  | none => .error (.brokenNarrowing kind)

/-! ## Scalars -/

/-- The string. -/
def string (view : View .string) : Except Fault String :=
  match view.input with
  | .present (.string s) => .ok s
  | _ => .error (.brokenNarrowing .string)

/-- The number as a double. -/
def number (view : View .number) : Except Fault Binary64 :=
  match view.input with
  | .present (.number n) => .ok n.toBinary64
  | _ => .error (.brokenNarrowing .number)

/-- The truth value. -/
def boolean (view : View .boolean) : Except Fault Bool :=
  match view.input with
  | .present (.boolean b) => .ok b
  | _ => .error (.brokenNarrowing .boolean)

/-! ## Containers -/

/-- The elements of an array. -/
def elements (view : View (.array type)) : Except Fault (List (View type)) := do
  let items ← expect .array view.items?
  return items.map (part type)

/-- The number of elements of an array. -/
def size (view : View (.array type)) : Except Fault Nat := do
  return (← expect .array view.items?).length

/-- The element at a position, unless the position is past the end. -/
def get? (view : View (.array type)) (n : Nat) : Except Fault (Option (View type)) := do
  return (← expect .array view.items?)[n]?.map (part type)

/-- The entries of a record, in the order of the input. -/
def entries (view : View (.record type)) : Except Fault (List (String × View type)) := do
  let entries ← expect .object view.entries?
  return entries.map fun (key, v) => (key, part type v)

/-- The value under a key of a record. -/
def lookup? (view : View (.record type)) (key : String) : Except Fault (Option (View type)) := do
  return ((← expect .object view.entries?).lookup key).map (part type)

/-- The value of a field of an object, absent where the object or the key is missing. -/
def field (view : View .object) (name : String) : Input :=
  match view.entries?.bind (·.lookup name) with
  | some v => .present v
  | none => .absent

/-! ## Marks and brands -/

/-- The view without its readonly mark. -/
def writable (view : View (.readonly type)) : View type := ⟨view.input, view.isWhole⟩

/-- The view without its brand. -/
def unbranded {brand : String} (view : View (.branded brand type)) : View type :=
  ⟨view.input, view.isWhole⟩

/-- The name of the brand of a view. -/
def brand {brand : String} (_ : View (.branded brand type)) : String := brand

end View

end JsonValidation
