import JsonValidation.Kind
import JsonValidation.Number.Basic

/-!
# JSON values

A value keeps the entries of its objects in the order they were written, because that order shows in
every text and in the order in which records are checked. Equality ignores it:

* `Value.equal`: same kind and equal contents, objects compared key by key;
* `Value.kind`: the kind of a value.

An `Input` is what a schema is asked about: a value, or its absence.
-/

namespace JsonValidation

/-- A JSON value. -/
inductive Value where
  | null
  | boolean (b : Bool)
  | number (n : Number)
  | string (s : String)
  | array (items : List Value)
  | object (entries : List (String × Value))
deriving Inhabited

namespace Value

/-- The kind of a value. -/
def kind : Value → Kind
  | .null => .null
  | .boolean _ => .boolean
  | .number _ => .number
  | .string _ => .string
  | .array _ => .array
  | .object _ => .object

/-- An integer as a value. -/
def ofInt (n : Int) : Value := .number (.integer n)

/-- A natural number as a value. -/
def ofNat (n : Nat) : Value := .number (.integer n)

/-- The elements of an array. -/
def items? : Value → Option (List Value)
  | .array items => some items
  | _ => none

/-- The entries of an object. -/
def entries? : Value → Option (List (String × Value))
  | .object entries => some entries
  | _ => none

/-- The number of elements of an array; any other value has none. -/
def itemCount (v : Value) : Nat := (v.items?.getD []).length

mutual

/-- Whether two values are equal: numbers by spelling and number, objects whatever the order of
their entries. -/
def equal : Value → Value → Bool
  | .null, .null => true
  | .boolean a, .boolean b => a == b
  | .number m, .number n => m.equal n
  | .string s, .string t => s == t
  | .array as, .array bs => equalItems as bs
  | .object as, .object bs => as.length == bs.length && equalEntries as bs
  | _, _ => false

/-- Whether two lists of values are equal element by element. -/
def equalItems : List Value → List Value → Bool
  | [], [] => true
  | a :: as, b :: bs => a.equal b && equalItems as bs
  | _, _ => false

/-- Whether every entry of the first list has an equal one under its key in the second. -/
def equalEntries : List (String × Value) → List (String × Value) → Bool
  | [], _ => true
  | (key, a) :: as, bs =>
    (match bs.lookup key with
      | some b => a.equal b
      | none => false) && equalEntries as bs

end

end Value

/-- What a schema is asked about: a value, or nothing where no value was given. -/
inductive Input where
  | absent
  | present (v : Value)

namespace Input

/-- Whether a value was given. -/
def isPresent : Input → Bool
  | .absent => false
  | .present _ => true

/-- The value, if one was given. -/
def value? : Input → Option Value
  | .absent => none
  | .present v => some v

/-- Whether two inputs are both absent or equal values. -/
def equal : Input → Input → Bool
  | .absent, .absent => true
  | .present v, .present w => v.equal w
  | _, _ => false

/-- The name of the kind of an input. -/
def kindName : Input → String
  | .absent => "undefined"
  | .present v => v.kind.name

/-- An input as a value, where an absent one is written as null. -/
def toValue : Input → Value
  | .absent => .null
  | .present v => v

end Input

end JsonValidation
