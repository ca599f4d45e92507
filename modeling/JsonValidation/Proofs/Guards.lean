import JsonValidation.Schema.Check
import JsonValidation.Proofs.Combinators
import JsonValidation.Proofs.Induction

/-!
# The guards of a schema

All code of the caller that a check runs is in the predicates of guards:

* `Schema.guards`: the guards inside a schema, one for each occurrence;
* `Guard.Answers`: the predicate of a guard answers on everything it is called on;
* `Schema.forall_guards_tuple` and the like: a property of all guards is one of the guards of all
  parts.
-/

namespace JsonValidation

mutual

/-- The guards inside a schema, one for each occurrence. -/
def Schema.guards : Schema → List Guard
  | .scalar _ => []
  | .undefined => []
  | .literal _ => []
  | .guard g => [g]
  | .array items => items.guards
  | .tuple _ elements => Schema.guardsOfAll elements
  | .restTuple _ leading rest => Schema.guardsOfAll leading ++ rest.guards
  | .union _ first others => first.guards ++ Schema.guardsOfAll others
  | .intersection _ parts => Schema.guardsOfAll parts
  | .record keys values => keys.guards ++ values.guards
  | .object fields => Schema.guardsOfFields fields
  | .readonly inner => inner.guards
  | .branded _ inner => inner.guards
  | .shared inner => inner.guards

/-- The guards inside the schemas of a list. -/
def Schema.guardsOfAll : List Schema → List Guard
  | [] => []
  | schema :: rest => schema.guards ++ Schema.guardsOfAll rest

/-- The guards inside the schemas of fields. -/
def Schema.guardsOfFields : List (Field Schema) → List Guard
  | [] => []
  | ⟨_, _, _, schema⟩ :: rest => schema.guards ++ Schema.guardsOfFields rest

end

/-- Whether the predicate of a guard answers on everything it can be called on. -/
def Guard.Answers (guard : Guard) : Prop :=
  match guard.test with
  | .onValue test => ∀ v, ∃ b, test v = .ok b
  | .onInput test => ∀ x, ∃ b, test x = .ok b

namespace Schema

theorem guardsOfAll_eq (schemas : List Schema) : guardsOfAll schemas = schemas.flatMap guards := by
  induction schemas with
  | nil => rfl
  | cons schema rest ih => rw [guardsOfAll, ih, List.flatMap_cons]

theorem guardsOfFields_eq (fields : List (Field Schema)) :
    guardsOfFields fields = fields.flatMap fun f => f.validator.guards := by
  induction fields with
  | nil => rfl
  | cons field rest ih => rw [guardsOfFields, ih, List.flatMap_cons]

variable {form : ListForm} {P : Guard → Prop}

/-! ## A property of all guards is one of the guards of all parts -/

theorem forall_guards_tuple {elements : List Schema} :
    (∀ g ∈ (tuple form elements).guards, P g) ↔ ∀ s ∈ elements, ∀ g ∈ s.guards, P g := by
  rw [guards, guardsOfAll_eq, List.forall_mem_flatMap]

theorem forall_guards_restTuple {leading : List Schema} {rest : Schema} :
    (∀ g ∈ (restTuple form leading rest).guards, P g) ↔
      (∀ s ∈ leading, ∀ g ∈ s.guards, P g) ∧ ∀ g ∈ rest.guards, P g := by
  rw [guards, guardsOfAll_eq, List.forall_mem_append, List.forall_mem_flatMap]

theorem forall_guards_union {first : Schema} {others : List Schema} :
    (∀ g ∈ (union form first others).guards, P g) ↔
      ∀ s ∈ first :: others, ∀ g ∈ s.guards, P g := by
  rw [guards, guardsOfAll_eq, List.forall_mem_append, List.forall_mem_flatMap,
    List.forall_mem_cons]

theorem forall_guards_intersection {parts : List Schema} :
    (∀ g ∈ (intersection form parts).guards, P g) ↔ ∀ s ∈ parts, ∀ g ∈ s.guards, P g := by
  rw [guards, guardsOfAll_eq, List.forall_mem_flatMap]

theorem forall_guards_record {keys values : Schema} :
    (∀ g ∈ (record keys values).guards, P g) ↔
      (∀ g ∈ keys.guards, P g) ∧ ∀ g ∈ values.guards, P g := by
  rw [guards, List.forall_mem_append]

theorem forall_guards_object {fields : List (Field Schema)} :
    (∀ g ∈ (object fields).guards, P g) ↔ ∀ f ∈ fields, ∀ g ∈ f.validator.guards, P g := by
  rw [guards, guardsOfFields_eq, List.forall_mem_flatMap]

/-! ## The checks of lists -/

theorem mem_checks {schemas : List Schema} {check : Check} :
    check ∈ checks schemas ↔ ∃ s ∈ schemas, s.check = check := by
  rw [checks_eq_map, List.mem_map]

theorem getElem?_checks {schemas : List Schema} {i : Nat} {check : Check} :
    (checks schemas)[i]? = some check ↔ ∃ s, schemas[i]? = some s ∧ s.check = check := by
  rw [checks_eq_map, List.getElem?_map, Option.map_eq_some_iff]

theorem length_checks (schemas : List Schema) : (checks schemas).length = schemas.length := by
  rw [checks_eq_map, List.length_map]

theorem mem_fieldChecks {fields : List (Field Schema)} {field : Field Check} :
    field ∈ fieldChecks fields ↔ ∃ f ∈ fields, f.map Schema.check = field := by
  rw [fieldChecks_eq_map, List.mem_map]

end Schema

/-! ## Literals and guards -/

theorem Literal.check_accepted_iff {literal : Literal} {x : Input} :
    (literal.check x).verdict = .accepted ↔ literal.accepts x = true := by
  cases h : literal.accepts x <;> simp [Literal.check, h]

theorem Literal.check_decided {literal : Literal} {x : Input} {verdict : Verdict}
    (hv : verdict ≠ .accepted) (h : (literal.check x).verdict = verdict) :
    verdict = .rejected (.invalidValue x) := by
  rw [Literal.check] at h
  split at h
  · exact absurd h.symm hv
  · exact h.symm

namespace Guard

variable {guard : Guard} {x : Input}

theorem afterCall_accepted_iff {answer : Except String Bool} :
    (guard.afterCall x answer).verdict = .accepted ↔ answer = .ok true := by
  rcases answer with message | (_ | _) <;> simp [afterCall]

theorem check_rejected {failure : Failure} (h : (guard.check x).verdict = .rejected failure) :
    failure = .invalidValue x := by
  have hc : ∀ answer, (guard.afterCall x answer).verdict = .rejected failure →
      failure = .invalidValue x := by
    rintro (message | (_ | _)) h <;> simp_all [afterCall]
  unfold check at h
  split at h
  · exact hc _ h
  · simpa [eq_comm] using h
  · exact hc _ h

theorem not_faulted_of_answers (hg : guard.Answers) (fault : Fault) :
    (guard.check x).verdict ≠ .faulted fault := by
  have hc : ∀ {answer}, (∃ b, answer = .ok b) →
      (guard.afterCall x answer).verdict ≠ .faulted fault := by
    rintro _ ⟨_ | _, rfl⟩ <;> simp [afterCall]
  unfold Answers at hg
  unfold check
  split at hg
  · rename_i test ht
    rw [ht]
    cases x with
    | absent => simp
    | present v => exact hc (hg v)
  · rename_i test ht
    rw [ht]
    exact hc (hg x)

end Guard

end JsonValidation
