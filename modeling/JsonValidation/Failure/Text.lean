import JsonValidation.Failure.Basic
import JsonValidation.Value.Text
import JsonValidation.Value.Inspect

/-!
# Texts of failures

* `Failure.text`: the message of a failure, with rejected values as JSON text;
* `Failure.inspect`: its developer text.
-/

namespace JsonValidation

/-- The number of elements of a value that a tuple rejected for its length. -/
def Failure.itemsText (got : Value) : String := got.itemCount.repr ++ " items"

mutual

/-- The message of a failure. -/
def Failure.text : Failure → String
  | .mismatch expected got => "expected " ++ expected.name ++ ", got " ++ got.text
  | .notUndefined got => "expected undefined, got " ++ got.text
  | .notFound name => "required field '" ++ name ++ "' is missing"
  | .invalidValue got => "invalid value " ++ got.text
  | .lengthNotEqual got => "tuple length mismatch, got " ++ Failure.itemsText got
  | .lengthTooShort got => "tuple too short, got " ++ Failure.itemsText got
  | .notUnion alternatives =>
    "no union alternative matched: [" ++ "; ".intercalate (Failure.texts alternatives) ++ "]"
  | .invalidKey inner => "invalid key: " ++ inner.text
  | .invalidElement segment inner => "at " ++ segment.text ++ ": " ++ inner.text

/-- The messages of failures. -/
def Failure.texts : List Failure → List String
  | [] => []
  | failure :: rest => failure.text :: Failure.texts rest

end

/-- The name of the failure of a kind in developer texts. -/
def Kind.mismatchLabel : Kind → String
  | .null => "NotNull"
  | .boolean => "NotBoolean"
  | .number => "NotNumber"
  | .string => "NotString"
  | .array => "NotArray"
  | .object => "NotObject"

mutual

/-- The developer text of a failure. -/
def Failure.inspect : Failure → String
  | .mismatch expected got => Inspect.labelled expected.mismatchLabel got.inspect
  | .notUndefined got => Inspect.labelled "NotUndefined" got.inspect
  | .notFound name => Inspect.labelled "NotFound" (Inspect.quoted name)
  | .invalidValue got => Inspect.labelled "InvalidValue" got.inspect
  | .lengthNotEqual got => Inspect.labelled "LengthNotEqual" got.inspect
  | .lengthTooShort got => Inspect.labelled "LengthTooShort" got.inspect
  | .notUnion alternatives =>
    Inspect.labelled "NotUnion" (Inspect.list (Failure.inspectAll alternatives))
  | .invalidKey inner =>
    Inspect.parts "InvalidElementKey" [Inspect.field "path" inner.inspect]
  | .invalidElement segment inner =>
    Inspect.parts "InvalidElementValue"
      [Inspect.field "key" segment.inspect, Inspect.field "path" inner.inspect]

/-- The developer texts of failures. -/
def Failure.inspectAll : List Failure → List String
  | [] => []
  | failure :: rest => failure.inspect :: Failure.inspectAll rest

end

end JsonValidation
