import JsonValidation.Field
import JsonValidation.Guard
import JsonValidation.Literal

/-!
# Schemas

A schema describes a set of inputs. A union keeps its first alternative apart from the others, so
none is empty; `Schema.union?` builds one from a list and is a fault on the empty one.

* `Schema.output`: the view type that a schema narrows to.
-/

namespace JsonValidation

/-- The kinds of values without parts. -/
inductive Scalar where
  | null
  | boolean
  | number
  | string
deriving DecidableEq

/-- A scalar kind among all kinds. -/
def Scalar.kind : Scalar → Kind
  | .null => .null
  | .boolean => .boolean
  | .number => .number
  | .string => .string

/-- A description of a set of inputs. -/
inductive Schema where
  /-- The values of a scalar kind. -/
  | scalar (kind : Scalar)
  /-- Only the absent input. -/
  | undefined
  /-- What a literal stands for. -/
  | literal (literal : Literal)
  /-- What a predicate accepts. -/
  | guard (guard : Guard)
  /-- The arrays of elements that the schema accepts. -/
  | array (items : Schema)
  /-- The arrays with one element for each schema. -/
  | tuple (form : ListForm) (elements : List Schema)
  /-- The arrays with one element for each leading schema, and any number of others after them. -/
  | restTuple (form : ListForm) (leading : List Schema) (rest : Schema)
  /-- What one of the alternatives accepts. -/
  | union (form : ListForm) (first : Schema) (others : List Schema)
  /-- What all parts accept. -/
  | intersection (form : ListForm) (parts : List Schema)
  /-- The objects all of whose keys and values are accepted. -/
  | record (keys values : Schema)
  /-- The objects whose declared fields are accepted. -/
  | object (fields : List (Field Schema))
  /-- A schema whose output is marked readonly. -/
  | readonly (inner : Schema)
  /-- A schema whose output carries a brand. -/
  | branded (brand : String) (inner : Schema)
  /-- A schema that is shared with other owners. -/
  | shared (inner : Schema)

namespace Schema

/-- The schema of all inputs, absent ones included. -/
def any : Schema := .intersection .written []

/-- The union of a list of alternatives, which must not be empty. -/
def union? (form : ListForm) : List Schema → Except Fault Schema
  | [] => .error .emptyUnion
  | first :: others => .ok (.union form first others)

/-- The object schema of a sequence of declarations. -/
def ofDeclarations (declarations : List (Declaration Schema)) : Schema :=
  .object (Field.ofDeclarations declarations)

/-- The schema inside a mark or a brand. -/
def inner? : Schema → Option Schema
  | .readonly inner => some inner
  | .branded _ inner => some inner
  | _ => none

/-- The view type that a schema narrows to. -/
def output : Schema → ViewType
  | .scalar .null => .untyped
  | .scalar .boolean => .boolean
  | .scalar .number => .number
  | .scalar .string => .string
  | .undefined => .untyped
  | .literal _ => .untyped
  | .guard g => g.narrows
  | .array items => .array items.output
  | .tuple _ _ => .untyped
  | .restTuple _ _ _ => .untyped
  | .union _ _ _ => .untyped
  | .intersection _ _ => .untyped
  | .record _ values => .record values.output
  | .object _ => .object
  | .readonly inner => .readonly inner.output
  | .branded brand inner => .branded brand inner.output
  | .shared inner => inner.output

end Schema

end JsonValidation
