import JsonValidation.Location

/-!
# Failures

A failure says why an input was rejected. It is a tree: a container wraps the failure of the part
that it rejected, and a union keeps one failure for each of its alternatives.

* `Failure.leaf`, `Failure.location`: the innermost failure, and where it happened;
* `Failure.code`: a tag that programs can act on;
* `Failure.equal`: equality of failures, with payloads compared as values.
-/

namespace JsonValidation

/-- Why an input was rejected. -/
inductive Failure where
  /-- The input is not of the expected kind. -/
  | mismatch (expected : Kind) (got : Input)
  /-- A value is present where none was allowed. -/
  | notUndefined (got : Value)
  /-- A required field is missing. -/
  | notFound (name : String)
  /-- A literal or a guard rejected the input. -/
  | invalidValue (got : Input)
  /-- A tuple was given an array of another length. -/
  | lengthNotEqual (got : Value)
  /-- A tuple with a rest was given an array that is too short. -/
  | lengthTooShort (got : Value)
  /-- Every alternative of a union failed, in their order. -/
  | notUnion (alternatives : List Failure)
  /-- A key of a record was rejected. -/
  | invalidKey (inner : Failure)
  /-- A part of a container was rejected. -/
  | invalidElement (segment : Segment) (inner : Failure)

namespace Failure

/-- The tag of a failure. -/
def code : Failure → String
  | .mismatch expected _ => "not_" ++ expected.name
  | .notUndefined _ => "not_undefined"
  | .notFound _ => "not_found"
  | .invalidValue _ => "invalid_value"
  | .lengthNotEqual _ => "length_not_equal"
  | .lengthTooShort _ => "length_too_short"
  | .notUnion _ => "not_union"
  | .invalidKey _ => "invalid_element_key"
  | .invalidElement _ _ => "invalid_element_value"

/-- The failure inside all wrappers of parts and keys. A union is not opened, because its
alternatives stand side by side. -/
def leaf : Failure → Failure
  | .invalidKey inner => inner.leaf
  | .invalidElement _ inner => inner.leaf
  | failure => failure

/-- The steps to the part that was rejected. -/
def steps : Failure → List Segment
  | .invalidElement segment inner => segment :: inner.steps
  | .notFound name => [.field name]
  | _ => []

/-- Where the rejected part is, as far as one part can be told: the walk ends at a rejected key and
at a union. A missing field is located at itself. -/
def location (failure : Failure) : Location := ⟨failure.steps⟩

mutual

/-- Whether two failures are equal. -/
def equal : Failure → Failure → Bool
  | .mismatch k x, .mismatch l y => k == l && x.equal y
  | .notUndefined v, .notUndefined w => v.equal w
  | .notFound m, .notFound n => m == n
  | .invalidValue x, .invalidValue y => x.equal y
  | .lengthNotEqual v, .lengthNotEqual w => v.equal w
  | .lengthTooShort v, .lengthTooShort w => v.equal w
  | .notUnion as, .notUnion bs => equalAll as bs
  | .invalidKey a, .invalidKey b => a.equal b
  | .invalidElement s a, .invalidElement t b => s == t && a.equal b
  | _, _ => false

/-- Whether two lists of failures are equal one by one. -/
def equalAll : List Failure → List Failure → Bool
  | [], [] => true
  | a :: as, b :: bs => a.equal b && equalAll as bs
  | _, _ => false

end

end Failure

end JsonValidation
