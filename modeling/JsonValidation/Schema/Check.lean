import JsonValidation.Schema.Basic

/-!
# The checks of schemas

`Schema.check` gives every schema its check, put together from the checks of its parts. Marks and
brands change no check.
-/

namespace JsonValidation

mutual

/-- What a schema does to each input. -/
def Schema.check : Schema → Check
  | .scalar kind => Check.ofKind kind.kind
  | .undefined => Check.undefined
  | .literal l => l.check
  | .guard g => g.check
  | .array items => Check.array items.check
  | .tuple form elements => Check.tuple ⟨form, Schema.checks elements⟩
  | .restTuple form leading rest => Check.restTuple ⟨form, Schema.checks leading⟩ rest.check
  | .union form first others => Check.union ⟨form, first.check :: Schema.checks others⟩
  | .intersection form parts => Check.intersection ⟨form, Schema.checks parts⟩
  | .record keys values => Check.record keys.check values.check
  | .object fields => Check.object (Schema.fieldChecks fields)
  | .readonly inner => inner.check
  | .branded _ inner => inner.check
  | .shared inner => inner.check

/-- The checks of a list of schemas. -/
def Schema.checks : List Schema → List Check
  | [] => []
  | schema :: rest => schema.check :: Schema.checks rest

/-- The fields of an object with the checks of their schemas. -/
def Schema.fieldChecks : List (Field Schema) → List (Field Check)
  | [] => []
  | ⟨name, presence, mutability, schema⟩ :: rest =>
    ⟨name, presence, mutability, schema.check⟩ :: Schema.fieldChecks rest

end

theorem Schema.checks_eq_map (schemas : List Schema) :
    Schema.checks schemas = schemas.map Schema.check := by
  induction schemas with
  | nil => rfl
  | cons schema rest ih => rw [Schema.checks, ih, List.map_cons]

theorem Schema.fieldChecks_eq_map (fields : List (Field Schema)) :
    Schema.fieldChecks fields = fields.map (·.map Schema.check) := by
  induction fields with
  | nil => rfl
  | cons field rest ih => rw [Schema.fieldChecks, ih, List.map_cons, Field.map]

/-- The check at a position of a list of schemas; there has to be one. -/
def Listing.checkSchema (list : Listing Schema) (n : Nat) : Check :=
  Listing.checkNth ⟨list.form, Schema.checks list.entries⟩ n

end JsonValidation
