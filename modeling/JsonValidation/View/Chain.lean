import JsonValidation.View.Basic
import JsonValidation.Value.Inspect

/-!
# Chains of accessors

A chain applies accessors one after the other, each to the view that the one before it gave. A chain
is indexed by the type of the views it can start from, so only chains that fit their view can be
written.

* `Chain.answer`: what a chain gives on a view, unless an accessor meets a value of another kind.
-/

namespace JsonValidation

/-- Accessors to be applied one after the other to a view of a type. -/
inductive Chain : ViewType → Type where
  /-- The input itself. -/
  | input {type : ViewType} : Chain type
  /-- Whether the view is of the value that was parsed. -/
  | isInput {type : ViewType} : Chain type
  /-- The entries, if the value is an object. -/
  | entries? {type : ViewType} : Chain type
  /-- The elements, if the value is an array. -/
  | items? {type : ViewType} : Chain type
  /-- The developer text of the view. -/
  | inspect {type : ViewType} : Chain type
  /-- The string. -/
  | string : Chain .string
  /-- The number as a double. -/
  | number : Chain .number
  /-- The truth value. -/
  | boolean : Chain .boolean
  /-- The number of elements. -/
  | size {type : ViewType} : Chain (.array type)
  /-- Whether there are no elements. -/
  | isEmpty {type : ViewType} : Chain (.array type)
  /-- The element at a position. -/
  | get (n : Nat) {type : ViewType} (next : Chain type) : Chain (.array type)
  /-- Every element. -/
  | each {type : ViewType} (next : Chain type) : Chain (.array type)
  /-- The value under a key. -/
  | lookup (key : String) {type : ViewType} (next : Chain type) : Chain (.record type)
  /-- The value of every entry. -/
  | eachEntry {type : ViewType} (next : Chain type) : Chain (.record type)
  /-- The value of a field. -/
  | field (name : String) : Chain .object
  /-- Without the readonly mark. -/
  | writable {type : ViewType} (next : Chain type) : Chain (.readonly type)
  /-- Without the brand. -/
  | unbranded {brand : String} {type : ViewType} (next : Chain type) :
    Chain (.branded brand type)
  /-- The name of the brand. -/
  | brand {brand : String} {type : ViewType} : Chain (.branded brand type)

/-- What a chain gives. -/
inductive Answer where
  | input (x : Input)
  | flag (b : Bool)
  | entries (entries : Option (List (String × Value)))
  | items (items : Option (List Value))
  | text (s : String)
  | double (x : Binary64)
  | count (n : Nat)
  /-- There is no such part. -/
  | missing
  | each (answers : List Answer)
  | eachEntry (answers : List (String × Answer))

/-- The developer text of a view. -/
def View.inspect {type : ViewType} (view : View type) : String :=
  Inspect.labelled "Valid" <|
    match view.input with
    | .absent => "undefined"
    | .present v => v.inspect

/-- What a chain gives on a view. -/
def Chain.answer : {type : ViewType} → Chain type → View type → Except Fault Answer
  | _, .input, view => .ok (.input view.input)
  | _, .isInput, view => .ok (.flag view.isInput)
  | _, .entries?, view => .ok (.entries view.entries?)
  | _, .items?, view => .ok (.items view.items?)
  | _, .inspect, view => .ok (.text view.inspect)
  | _, .string, view => view.string.map .text
  | _, .number, view => view.number.map .double
  | _, .boolean, view => view.boolean.map .flag
  | _, .size, view => view.size.map .count
  | _, .isEmpty, view => view.size.map fun n => .flag (n == 0)
  | _, .get n next, view => do
    match ← view.get? n with
    | some element => next.answer element
    | none => return .missing
  | _, .each next, view => do
    return .each (← (← view.elements).mapM next.answer)
  | _, .lookup key next, view => do
    match ← view.lookup? key with
    | some value => next.answer value
    | none => return .missing
  | _, .eachEntry next, view => do
    return .eachEntry (← (← view.entries).mapM fun (key, value) => do
      return (key, ← next.answer value))
  | _, .field name, view => .ok (.input (view.field name))
  | _, .writable next, view => next.answer view.writable
  | _, .unbranded next, view => next.answer view.unbranded
  | _, .brand, view => .ok (.text view.brand)

end JsonValidation
