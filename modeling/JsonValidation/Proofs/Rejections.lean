import JsonValidation.Proofs.Guards
import JsonValidation.Proofs.Rewriting

/-!
# Where failures come from

Whatever a schema rejects, it rejects with a failure that was put together from the bottom up: a leaf
about some part of the input, wrapped once for every step to that part:

* `Schema.Rejection`: how a schema rejects an input, by itself or through one of its parts, which is
  all it can do (`Schema.rejection_of_rejected`);
* `Failure.Arises`: the failures that can be reported for an input, described without a schema. What
  is true of all failures that a schema can report is shown by induction on how they arise
  (`Schema.arises_of_rejected`).
-/

namespace JsonValidation

/-- The failures that can be reported for an input. -/
inductive Failure.Arises : Failure → Input → Prop where
  | mismatch {expected : Kind} {x : Input} (differs : ¬ x.HasKind expected) :
    Arises (.mismatch expected x) x
  | notUndefined (v : Value) : Arises (.notUndefined v) (.present v)
  | notFound {name : String} {entries : List (String × Value)}
    (missing : entries.lookup name = none) :
    Arises (.notFound name) (.present (.object entries))
  | invalidValue (x : Input) : Arises (.invalidValue x) x
  | lengthNotEqual (values : List Value) :
    Arises (.lengthNotEqual (.array values)) (.present (.array values))
  | lengthTooShort (values : List Value) :
    Arises (.lengthTooShort (.array values)) (.present (.array values))
  | notUnion {alternatives : List Failure} {x : Input} (nonempty : alternatives ≠ [])
    (arises : ∀ failure ∈ alternatives, Arises failure x) : Arises (.notUnion alternatives) x
  | key {inner : Failure} {entries : List (String × Value)} {key : String}
    (mem : key ∈ entries.map Prod.fst) (arises : Arises inner (.present (.string key))) :
    Arises (.invalidKey inner) (.present (.object entries))
  | element {inner : Failure} {values : List Value} {i : Nat} {v : Value}
    (found : values[i]? = some v) (arises : Arises inner (.present v)) :
    Arises (.invalidElement (.index i) inner) (.present (.array values))
  | entry {inner : Failure} {entries : List (String × Value)} {key : String} {v : Value}
    (mem : (key, v) ∈ entries) (arises : Arises inner (.present v)) :
    Arises (.invalidElement (.field key) inner) (.present (.object entries))

namespace Schema

/-- Whether a schema is that of objects with a required field of a name. -/
def HasRequired (schema : Schema) (name : String) : Prop :=
  ∃ fields, schema = .object fields ∧ ∃ f ∈ fields, f.name = name ∧ f.presence = .required

/-- How a schema rejects an input: with a failure of its own, with one that a part reported for the
input or for a part of it, or with those of several parts. -/
inductive Rejection (schema : Schema) : Input → Failure → Prop where
  | mismatch {expected : Kind} {x : Input} (differs : ¬ x.HasKind expected) :
    Rejection schema x (.mismatch expected x)
  | notUndefined (v : Value) : Rejection schema (.present v) (.notUndefined v)
  | notFound {name : String} {entries : List (String × Value)}
    (missing : entries.lookup name = none) (required : schema.HasRequired name) :
    Rejection schema (.present (.object entries)) (.notFound name)
  | invalidValue (x : Input) : Rejection schema x (.invalidValue x)
  | lengthNotEqual (values : List Value) :
    Rejection schema (.present (.array values)) (.lengthNotEqual (.array values))
  | lengthTooShort (values : List Value) :
    Rejection schema (.present (.array values)) (.lengthTooShort (.array values))
  | notUnion {alternatives : List Failure} {x : Input} (nonempty : alternatives ≠ [])
    (rejected : ∀ failure ∈ alternatives, ∃ part ∈ schema.parts,
      (part.check x).verdict = .rejected failure) : Rejection schema x (.notUnion alternatives)
  | whole {part : Schema} {failure : Failure} {x : Input} (mem : part ∈ schema.parts)
    (rejected : (part.check x).verdict = .rejected failure) : Rejection schema x failure
  | key {part : Schema} {inner : Failure} {entries : List (String × Value)} {key : String}
    (mem : part ∈ schema.parts) (key_mem : key ∈ entries.map Prod.fst)
    (rejected : (part.check (.present (.string key))).verdict = .rejected inner) :
    Rejection schema (.present (.object entries)) (.invalidKey inner)
  | element {part : Schema} {inner : Failure} {values : List Value} {i : Nat} {v : Value}
    (mem : part ∈ schema.parts) (found : values[i]? = some v)
    (rejected : (part.check (.present v)).verdict = .rejected inner) :
    Rejection schema (.present (.array values)) (.invalidElement (.index i) inner)
  | entry {part : Schema} {inner : Failure} {entries : List (String × Value)} {key : String}
    {v : Value} (mem : part ∈ schema.parts) (entry_mem : (key, v) ∈ entries)
    (rejected : (part.check (.present v)).verdict = .rejected inner) :
    Rejection schema (.present (.object entries)) (.invalidElement (.field key) inner)

/-- There is no other way for a schema to reject an input. -/
theorem rejection_of_rejected {schema : Schema} {x : Input} {failure : Failure}
    (h : (schema.check x).verdict = .rejected failure) : schema.Rejection x failure := by
  have hv : ∀ failure, Verdict.rejected failure ≠ .accepted := by simp
  cases schema with
  | scalar kind =>
    obtain ⟨h, hk⟩ := Check.ofKind_decided (hv _) h
    cases h
    exact .mismatch hk
  | undefined =>
    obtain ⟨v, rfl, h⟩ := Check.undefined_decided (hv _) h
    cases h
    exact .notUndefined v
  | literal l =>
    cases Literal.check_decided (hv _) h
    exact .invalidValue x
  | guard g =>
    cases Guard.check_rejected h
    exact .invalidValue x
  | array items =>
    rcases Check.array_decided (hv _) h with ⟨h, hk⟩ | ⟨values, i, v, rfl, hi, h⟩
    · cases h
      exact .mismatch hk
    · obtain ⟨inner, hr, rfl⟩ := Verdict.mapFailure_eq_rejected.mp h
      exact .element List.mem_cons_self hi hr
  | tuple form elements =>
    rcases Check.tuple_decided (hv _) h with
      ⟨h, hk⟩ | ⟨values, rfl, ⟨h, -⟩ | ⟨i, v, check, hi, hc, h⟩⟩
    · cases h
      exact .mismatch hk
    · cases h
      exact .lengthNotEqual values
    · obtain ⟨s, hs, rfl⟩ := getElem?_checks.mp hc
      obtain ⟨inner, hr, rfl⟩ := Verdict.mapFailure_eq_rejected.mp h
      exact .element (List.mem_of_getElem? hs) hi hr
  | restTuple form leading rest =>
    rcases Check.restTuple_decided (hv _) h with
      ⟨h, hk⟩ | ⟨values, rfl, ⟨h, -⟩ | ⟨i, v, check, hi, hc, h⟩⟩
    · cases h
      exact .mismatch hk
    · cases h
      exact .lengthTooShort values
    · obtain ⟨inner, hr, rfl⟩ := Verdict.mapFailure_eq_rejected.mp h
      rcases hc with hc | ⟨-, rfl⟩
      · obtain ⟨s, hs, rfl⟩ := getElem?_checks.mp hc
        exact .element (List.mem_cons_of_mem _ (List.mem_of_getElem? hs)) hi hr
      · exact .element List.mem_cons_self hi hr
  | union form first others =>
    obtain ⟨failures, hr, rfl⟩ := Check.union_rejected_iff.mp h
    -- There is a first alternative, so there is a failure.
    refine .notUnion (fun e => by simp [e] at hr) fun inner hm => ?_
    have hm : Verdict.rejected inner ∈ failures.map .rejected := List.mem_map_of_mem hm
    rw [← hr] at hm
    obtain ⟨check, hc, h⟩ := List.mem_map.mp hm
    obtain ⟨s, hs, rfl⟩ : ∃ s ∈ first :: others, s.check = check := mem_checks.mp hc
    exact ⟨s, hs, h⟩
  | intersection form parts =>
    obtain ⟨check, hc, h⟩ := Check.intersection_decided (hv _) h
    obtain ⟨s, hs, rfl⟩ := mem_checks.mp hc
    exact .whole hs h
  | record keys values =>
    rcases Check.record_decided (hv _) h with ⟨h, hk⟩ | ⟨entries, key, v, rfl, hm, h | h⟩
    · cases h
      exact .mismatch hk
    · obtain ⟨inner, hr, rfl⟩ := Verdict.mapFailure_eq_rejected.mp h
      exact .key List.mem_cons_self (List.mem_map_of_mem hm) hr
    · obtain ⟨inner, hr, rfl⟩ := Verdict.mapFailure_eq_rejected.mp h
      exact .entry (List.mem_cons_of_mem _ List.mem_cons_self) hm hr
  | object fields =>
    rcases Check.object_decided (hv _) h with
      ⟨h, hk⟩ | ⟨entries, f, hf, rfl, ⟨h, hl, hp⟩ | ⟨v, hl, h⟩⟩
    · cases h
      exact .mismatch hk
    · cases h
      obtain ⟨f, hm, rfl⟩ := mem_fieldChecks.mp hf
      exact .notFound hl ⟨fields, rfl, f, hm, rfl, hp⟩
    · obtain ⟨f, hm, rfl⟩ := mem_fieldChecks.mp hf
      obtain ⟨inner, hr, rfl⟩ := Verdict.mapFailure_eq_rejected.mp h
      exact .entry (List.mem_map_of_mem hm) (mem_of_lookup hl) hr
  | readonly inner | branded brand inner | shared inner => exact .whole List.mem_cons_self h

/-- The failure with which a schema rejects an input arises for that input. -/
theorem arises_of_rejected {schema : Schema} {x : Input} {failure : Failure}
    (h : (schema.check x).verdict = .rejected failure) : failure.Arises x := by
  induction schema using partInduction generalizing x failure with
  | step schema ih =>
    cases rejection_of_rejected h with
    | mismatch differs => exact .mismatch differs
    | notUndefined v => exact .notUndefined v
    | notFound missing required => exact .notFound missing
    | invalidValue => exact .invalidValue x
    | lengthNotEqual values => exact .lengthNotEqual values
    | lengthTooShort values => exact .lengthTooShort values
    | notUnion nonempty rejected =>
      refine .notUnion nonempty fun inner hm => ?_
      obtain ⟨part, mem, hr⟩ := rejected inner hm
      exact ih part mem hr
    | whole mem rejected => exact ih _ mem rejected
    | key mem key_mem rejected => exact .key key_mem (ih _ mem rejected)
    | element mem found rejected => exact .element found (ih _ mem rejected)
    | entry mem entry_mem rejected => exact .entry entry_mem (ih _ mem rejected)

end Schema

end JsonValidation
