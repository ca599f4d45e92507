import JsonValidation.Failure.Basic

/-!
# Failures as values

`Failure.toValue` writes a failure as a JSON value, under its code. An absent input is written as
null, and a step to a part as the string or the number that it is.
-/

namespace JsonValidation

mutual

/-- A failure as a value. -/
def Failure.toValue : Failure → Value
  | .mismatch expected got => .object [("not_" ++ expected.name, got.toValue)]
  | .notUndefined got => .object [("not_undefined", got)]
  | .notFound name => .object [("not_found", .string name)]
  | .invalidValue got => .object [("invalid_value", got.toValue)]
  | .lengthNotEqual got => .object [("length_not_equal", got)]
  | .lengthTooShort got => .object [("length_too_short", got)]
  | .notUnion alternatives => .object [("not_union", .array (Failure.toValues alternatives))]
  | .invalidKey inner => .object [("invalid_element_key", .object [("path", inner.toValue)])]
  | .invalidElement segment inner =>
    .object [("invalid_element_value",
      .object [("key", segment.toValue), ("path", inner.toValue)])]

/-- Failures as values. -/
def Failure.toValues : List Failure → List Value
  | [] => []
  | failure :: rest => failure.toValue :: Failure.toValues rest

end

end JsonValidation
