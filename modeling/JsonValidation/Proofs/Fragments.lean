import Mathlib.Data.List.Forall2
import JsonValidation.Proofs.Erasure

/-!
# Objects in fragments

The fields of an object can be spread over several object schemas, which an intersection puts
together again. Each of them tests anew that the input is an object and has a pass over fields of
its own, but nothing of this shows:

* `Check.intersection_object`: the passes over the fragments are one pass over all fields;
* `Schema.IsFragment`: the schemas that hold some fields, with or without readonly marks;
* `Schema.check_intersection_of_fragments`: the intersection of such schemas is the object schema of
  all their fields.
-/

namespace JsonValidation

namespace Check

theorem object_of_not_hasKind {x : Input} (h : ¬ x.HasKind .object) (fields : List (Field Check)) :
    object fields x = .reject (.mismatch .object x) :=
  onEntries_of_not_hasKind h

/-- The passes over the fields of several objects are one pass over all of them. There has to be one
at least, because an intersection without parts accepts inputs that are no objects. -/
theorem intersection_object (form : ListForm) {fragments : List (List (Field Check))}
    (h : fragments ≠ []) :
    intersection ⟨form, fragments.map object⟩ = object fragments.flatten := by
  funext x
  rw [intersection_eq, Run.forEach_map]
  by_cases hx : x.HasKind .object
  · obtain ⟨entries, rfl⟩ := Input.hasKind_object.mp hx
    show Run.forEach (fun fields => Run.forEach (field entries) (id fields)) fragments =
      Run.forEach (field entries) fragments.flatten
    rw [← Run.forEach_flatMap, List.flatMap_id]
  · -- The first fragment rejects the input, whatever its fields are, and nothing comes after it.
    obtain ⟨first, others, rfl⟩ := List.exists_cons_of_ne_nil h
    rw [Run.forEach, object_of_not_hasKind hx, object_of_not_hasKind hx]
    rfl

end Check

namespace Schema

/-- Whether a schema holds the given fields and no others: an object schema of these fields,
whichever of them are marked readonly, or such a schema that is marked readonly as a whole. -/
inductive IsFragment (fields : List (Field Schema)) : Schema → Prop where
  | object {marked : List (Field Schema)}
    (same : marked.map Field.unmarked = fields.map Field.unmarked) :
    IsFragment fields (.object marked)
  | readonly {inner : Schema} (inside : IsFragment fields inner) :
    IsFragment fields (.readonly inner)

variable {fields : List (Field Schema)} {fragments : List (List (Field Schema))}
  {parts : List Schema}

theorem check_of_isFragment {part : Schema} (h : IsFragment fields part) :
    part.check = (object fields).check := by
  induction h with
  | @object marked same =>
    calc (object marked).check
        = (object (marked.map Field.unmarked)).check := (check_stripped (object marked)).symm
      _ = (object (fields.map Field.unmarked)).check := by rw [same]
      _ = (object fields).check := check_stripped (object fields)
  | readonly _ ih => exact ih

theorem checks_of_fragments (h : List.Forall₂ IsFragment fragments parts) :
    checks parts = (fragments.map fieldChecks).map Check.object := by
  induction h with
  | nil => rfl
  | cons hpart _ ih =>
    rw [checks, check_of_isFragment hpart, ih, check, List.map_cons, List.map_cons]

theorem fieldChecks_flatten (fragments : List (List (Field Schema))) :
    fieldChecks fragments.flatten = (fragments.map fieldChecks).flatten := by
  have hmap : fieldChecks = List.map (·.map Schema.check) := funext fieldChecks_eq_map
  rw [hmap, List.map_flatten]

/-- An object schema is the intersection of its fragments, however its fields are cut: it makes the
same calls, and rejects with the same failure, in which the intersection does not show. -/
theorem check_intersection_of_fragments (hcut : fragments.flatten = fields)
    (hne : fragments ≠ []) (hparts : List.Forall₂ IsFragment fragments parts) (form : ListForm)
    (x : Input) : (intersection form parts).check x = (object fields).check x := by
  have hne' : fragments.map fieldChecks ≠ [] := fun h => hne (List.map_eq_nil_iff.mp h)
  rw [check, checks_of_fragments hparts, Check.intersection_object form hne',
    ← fieldChecks_flatten, hcut, check]

/-- A guard of even numbers under the key `b`. -/
def evenB : Schema :=
  .guard ⟨.number, some (.string "b"), .onValue Predicate.even.answer⟩

/-- The declarations of an object, one field of which is declared twice. -/
def redeclared : List (Declaration Schema) :=
  [.required "a" (.scalar .string), .optional "b" evenB, .readonly, .required "c" (.scalar .null),
    .optional "a" (.scalar .boolean)]

/-- The same fields in three fragments, one of them empty and two of them readonly. -/
def inFragments : List Schema :=
  [ofDeclarations [.optional "a" (.scalar .boolean)], .readonly (ofDeclarations []),
    .readonly (ofDeclarations [.optional "b" evenB, .required "c" (.scalar .null), .readonly])]

theorem check_intersection_of_fragments_declared :
    (intersection .written inFragments).check (.present (.object [("b", .ofNat 2)])) =
      (ofDeclarations redeclared).check (.present (.object [("b", .ofNat 2)])) ∧
    (intersection .written inFragments).check (.present (.object [("b", .ofNat 2)])) =
      ⟨[⟨some (.string "b"), .present (.ofNat 2)⟩], .rejected (.notFound "c")⟩ := by
  have hcut : [[⟨"a", .optional, .mutable, .scalar .boolean⟩], [],
      [⟨"b", .optional, .readonly, evenB⟩, ⟨"c", .required, .mutable, .scalar .null⟩]].flatten =
        Field.ofDeclarations redeclared := rfl
  have hparts : List.Forall₂ IsFragment [[⟨"a", .optional, .mutable, .scalar .boolean⟩], [],
      [⟨"b", .optional, .readonly, evenB⟩, ⟨"c", .required, .mutable, .scalar .null⟩]]
        inFragments :=
    .cons (.object rfl) (.cons (.readonly (.object rfl)) (.cons (.readonly (.object rfl)) .nil))
  have h := check_intersection_of_fragments hcut (by simp) hparts .written
    (.present (.object [("b", .ofNat 2)]))
  exact ⟨h, h.trans rfl⟩

end Schema

end JsonValidation
