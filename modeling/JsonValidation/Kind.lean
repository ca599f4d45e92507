/-!
# Kinds of values

Every JSON value has one of six kinds. `Kind.name` is the name that messages and error codes use.
-/

namespace JsonValidation

/-- The kinds of JSON values. -/
inductive Kind where
  | null
  | boolean
  | number
  | string
  | array
  | object
deriving DecidableEq

/-- The name of a kind in messages. -/
def Kind.name : Kind → String
  | .null => "null"
  | .boolean => "boolean"
  | .number => "number"
  | .string => "string"
  | .array => "array"
  | .object => "object"

end JsonValidation
