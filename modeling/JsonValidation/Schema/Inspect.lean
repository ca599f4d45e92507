import JsonValidation.Schema.Basic

/-!
# Developer texts of schemas

`Schema.inspect` shows how a schema is built. Predicates and the validators of fields are not shown,
and a shared schema looks like the schema itself.
-/

namespace JsonValidation

/-- The developer text of a list of schemas in the form in which it was given. -/
def ListForm.inspect : ListForm → List String → String
  | .written, [text] => "(" ++ text ++ ",)"
  | .written, texts => "(" ++ ", ".intercalate texts ++ ")"
  | .collected, texts => Inspect.list texts

/-- The developer text of an object schema with the given fields. -/
def Field.inspectAll {σ : Type} (fields : List (Field σ)) : String :=
  Inspect.parts "ObjectSchema"
    [Inspect.field "fields" (Inspect.map (fields.map fun field => (field.name, field.inspect)))]

/-- The developer text of a scalar schema. -/
def Scalar.inspect : Scalar → String
  | .null => "NullSchema"
  | .boolean => "BooleanSchema"
  | .number => "NumberSchema"
  | .string => "StringSchema"

mutual

/-- The developer text of a schema. -/
def Schema.inspect : Schema → String
  | .scalar kind => kind.inspect
  | .undefined => "UndefinedSchema"
  | .literal l => l.inspect
  | .guard g => g.inspect
  | .array items => Inspect.parts "ArraySchema" [Inspect.field "items" items.inspect]
  | .tuple form elements =>
    Inspect.parts "TupleSchema"
      [Inspect.field "elements" (form.inspect (Schema.inspectList elements))]
  | .restTuple form leading rest =>
    Inspect.parts "RestTupleSchema"
      [Inspect.field "prefix" (form.inspect (Schema.inspectList leading)),
        Inspect.field "rest" rest.inspect]
  | .union form first others =>
    Inspect.parts "UnionSchema"
      [Inspect.field "alternatives"
        (form.inspect (first.inspect :: Schema.inspectList others))]
  | .intersection form parts =>
    Inspect.parts "IntersectionSchema"
      [Inspect.field "parts" (form.inspect (Schema.inspectList parts))]
  | .record keys values =>
    Inspect.parts "RecordSchema"
      [Inspect.field "keys" keys.inspect, Inspect.field "values" values.inspect]
  | .object fields => Field.inspectAll fields
  | .readonly inner => Inspect.parts "ReadonlySchema" [Inspect.field "inner" inner.inspect]
  | .branded brand inner =>
    Inspect.parts "OpaqueSchema"
      [Inspect.field "brand" (Inspect.quoted brand), Inspect.field "inner" inner.inspect]
  | .shared inner => inner.inspect

/-- The developer texts of schemas. -/
def Schema.inspectList : List Schema → List String
  | [] => []
  | schema :: rest => schema.inspect :: Schema.inspectList rest

end

end JsonValidation
