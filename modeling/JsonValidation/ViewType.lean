/-!
# View types

An accepted value is viewed through the type that its schema narrows to. The type decides which
accessors the view offers; a schema whose output has no accessors of its own narrows to `untyped`.
-/

namespace JsonValidation

/-- What an accepted value may be used as. -/
inductive ViewType where
  | untyped
  | string
  | number
  | boolean
  | object
  | array (element : ViewType)
  | record (value : ViewType)
  | readonly (inner : ViewType)
  | branded (brand : String) (inner : ViewType)
deriving DecidableEq

/-- The name of a view type in developer texts. -/
def ViewType.inspect : ViewType → String
  | .untyped => "()"
  | .string => "string"
  | .number => "f64"
  | .boolean => "bool"
  | .object => "object"
  | .array element => "array<" ++ element.inspect ++ ">"
  | .record value => "record<" ++ value.inspect ++ ">"
  | .readonly inner => "readonly<" ++ inner.inspect ++ ">"
  | .branded brand inner => brand ++ "<" ++ inner.inspect ++ ">"

end JsonValidation
