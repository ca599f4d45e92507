import JsonValidation.Check

/-!
# Field declarations

The fields of an object are declared one after the other, and a name keeps the place of its first
declaration. Declaring a name again replaces the field, and makes it mutable again; a readonly step
marks all fields that are declared so far.

* `Field.declare`: the fields after one more declaration;
* `Field.ofDeclarations`: the fields of a sequence of declarations.
-/

namespace JsonValidation

/-- A step in declaring the fields of an object. -/
inductive Declaration (σ : Type) where
  | required (name : String) (validator : σ)
  | optional (name : String) (validator : σ)
  | readonly

namespace Field

variable {σ : Type}

/-- Whether the key of a field has to be present. -/
def isRequired (field : Field σ) : Bool := field.presence = .required

/-- Whether a field is marked readonly. -/
def isReadonly (field : Field σ) : Bool := field.mutability = .readonly

/-- Puts a field in the place of the one with its name, or at the end. -/
def insert (field : Field σ) : List (Field σ) → List (Field σ)
  | [] => [field]
  | other :: rest =>
    if other.name = field.name then field :: rest else other :: insert field rest

/-- The fields after one more declaration. -/
def declare (fields : List (Field σ)) : Declaration σ → List (Field σ)
  | .required name validator => insert ⟨name, .required, .mutable, validator⟩ fields
  | .optional name validator => insert ⟨name, .optional, .mutable, validator⟩ fields
  | .readonly => fields.map fun field => { field with mutability := .readonly }

/-- The fields of a sequence of declarations. -/
def ofDeclarations (declarations : List (Declaration σ)) : List (Field σ) :=
  declarations.foldl declare []

/-- The field with a name, if it is declared. -/
def find? (fields : List (Field σ)) (name : String) : Option (Field σ) :=
  List.find? (fun field => field.name == name) fields

/-- The developer text of a field, which does not show its validator. -/
def inspect (field : Field σ) : String :=
  Inspect.parts "FieldDef" [
    Inspect.field "name" (Inspect.quoted field.name),
    Inspect.field "presence" (if field.isRequired then "Required" else "Optional"),
    Inspect.field "mutability" (if field.isReadonly then "Readonly" else "Mutable"),
    Inspect.more]

end Field

end JsonValidation
