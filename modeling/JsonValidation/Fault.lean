import JsonValidation.Kind

/-!
# Faults

A fault is a misuse that ends a computation, as opposed to a failure, which says why an input was
rejected. `Fault.message` is the text under which it is reported.
-/

namespace JsonValidation

/-- How a list of schemas was given: written out one by one, or collected at run time. -/
inductive ListForm where
  | written
  | collected
deriving DecidableEq

/-- A misuse of the library. -/
inductive Fault where
  /-- A union was built without alternatives. -/
  | emptyUnion
  /-- The predicate of a guard gave up. -/
  | guard (message : String)
  /-- A schema past the end of a list was asked for. -/
  | outOfRange (form : ListForm) (index length : Nat)
  /-- A view was used as a kind of value that it is not. -/
  | brokenNarrowing (expected : Kind)
deriving DecidableEq

/-- The text under which a fault is reported. -/
def Fault.message : Fault → String
  | .emptyUnion => "a union needs at least one alternative"
  | .guard message => message
  | .outOfRange .written index length =>
    "internal error: entered unreachable code: validator index " ++ index.repr ++
      " out of range for " ++ (if length = 0 then "empty list" else "list of " ++ length.repr)
  | .outOfRange .collected index length =>
    "index out of bounds: the len is " ++ length.repr ++ " but the index is " ++ index.repr
  | .brokenNarrowing expected =>
    "value accepted as " ++ expected.name ++
      " is not one; check the type guard that produced it"

end JsonValidation
