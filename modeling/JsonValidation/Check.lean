import JsonValidation.Run

/-!
# Checks

A check says what happens to each input. The checks of containers are put together from the checks
of their parts, whatever those do:

* `Check.array`, `Check.tuple`, `Check.restTuple`: the elements of an array, from left to right;
* `Check.record`, `Check.object`: the entries of an object, and its declared fields;
* `Check.union`, `Check.intersection`: one of several checks, and all of them.

The checks of tuples, unions and intersections come in a `Listing`, from which they are taken by
their positions.
-/

namespace JsonValidation

/-- What happens to each input. -/
abbrev Check := Input → Run

/-- A list of checks or schemas, and the form in which it was given. -/
structure Listing (σ : Type) where
  form : ListForm
  entries : List σ

/-- Whether a key may be missing. -/
inductive Presence where
  | required
  | optional
deriving DecidableEq

/-- Whether a field may be assigned to. It is an annotation and changes no check. -/
inductive Mutability where
  | mutable
  | readonly
deriving DecidableEq

/-- A declared field of an object. -/
structure Field (σ : Type) where
  name : String
  presence : Presence
  mutability : Mutability
  validator : σ

/-- A field with its validator changed. -/
def Field.map {σ τ : Type} (f : σ → τ) (field : Field σ) : Field τ :=
  ⟨field.name, field.presence, field.mutability, f field.validator⟩

namespace Listing

/-- The number of entries. -/
def length {σ : Type} (list : Listing σ) : Nat := list.entries.length

/-- Whether there are no entries. -/
def isEmpty {σ : Type} (list : Listing σ) : Bool := list.entries.isEmpty

/-- The check at a position; there has to be one. -/
def checkNth (list : Listing Check) (n : Nat) : Check := fun input =>
  match list.entries[n]? with
  | some check => check input
  | none => .fault (.outOfRange list.form n list.length)

end Listing

namespace Check

/-- Checks a part of a container, and reports its failure at the step that leads to it. -/
def part (check : Check) (segment : Segment) (v : Value) : Run :=
  (check (.present v)).mapFailure (.invalidElement segment)

/-- Accepts the values of a kind. -/
def ofKind (kind : Kind) : Check := fun input =>
  match input with
  | .present v => if v.kind = kind then .accept else .reject (.mismatch kind input)
  | .absent => .reject (.mismatch kind input)

/-- Accepts only an absent input. -/
def undefined : Check := fun input =>
  match input with
  | .present v => .reject (.notUndefined v)
  | .absent => .accept

/-- Runs on the elements of an array, and rejects any other input. -/
def onItems (run : List Value → Run) : Check := fun input =>
  match input with
  | .present (.array items) => run items
  | _ => .reject (.mismatch .array input)

/-- Runs on the entries of an object, and rejects any other input. -/
def onEntries (run : List (String × Value) → Run) : Check := fun input =>
  match input with
  | .present (.object entries) => run entries
  | _ => .reject (.mismatch .object input)

/-! ## Arrays -/

/-- Checks every element in the same way. -/
def array (items : Check) : Check :=
  onItems fun values => Run.forEach (fun (v, i) => items.part (.index i) v) values.zipIdx

/-- Checks the elements that stand at the positions of a listing. -/
def leading (list : Listing Check) (values : List Value) : Run :=
  Run.forEach (fun (v, i) => part (list.checkNth i) (.index i) v) (values.zipIdx.take list.length)

/-- Checks an array position by position; it has to be as long as the listing. -/
def tuple (list : Listing Check) : Check :=
  onItems fun values =>
    if values.length = list.length then leading list values
    else .reject (.lengthNotEqual (.array values))

/-- Checks the first elements position by position and all others in the same way. -/
def restTuple (list : Listing Check) (rest : Check) : Check :=
  onItems fun values =>
    if values.length < list.length then .reject (.lengthTooShort (.array values))
    else (leading list values).andThen
      (Run.forEach (fun (v, i) => rest.part (.index i) v) (values.zipIdx.drop list.length))

/-! ## Combinations -/

/-- Accepts what one of the alternatives accepts; they are tried in order. -/
def union (list : Listing Check) : Check := fun input =>
  Run.firstAccepted (fun n => list.checkNth n input) [] (List.range list.length)

/-- Accepts what all parts accept. The first failure is reported as it is. -/
def intersection (list : Listing Check) : Check := fun input =>
  Run.forEach (fun n => list.checkNth n input) (List.range list.length)

/-! ## Objects -/

/-- Checks every entry in the order of the input, its key before its value. -/
def record (keys values : Check) : Check :=
  onEntries fun entries => Run.forEach (fun (key, v) =>
    ((keys (.present (.string key))).mapFailure .invalidKey).andThen
      (values.part (.field key) v)) entries

/-- Checks a declared field of an object with the given entries. -/
def field (entries : List (String × Value)) (field : Field Check) : Run :=
  match entries.lookup field.name with
  | some v => field.validator.part (.field field.name) v
  | none =>
    match field.presence with
    | .required => .reject (.notFound field.name)
    | .optional => .accept

/-- Checks the declared fields in their order, and ignores all other entries. -/
def object (fields : List (Field Check)) : Check :=
  onEntries fun entries => Run.forEach (field entries) fields

end Check

end JsonValidation
