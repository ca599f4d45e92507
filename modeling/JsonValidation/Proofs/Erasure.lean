import JsonValidation.Proofs.Combinators
import JsonValidation.Proofs.Rewriting

/-!
# Erasing annotations

Marks, brands and sharing are annotations: they say something about the output of a schema and
nothing about its check. Erasing takes them off at every depth, and makes the fields of all objects
mutable.

* `Schema.erase`: a schema without annotations;
* `Schema.erase_ofDeclarations`: an object schema without annotations is the one of the same
  declarations without the readonly steps;
* `Schema.check_erase`: erasing keeps the run on every input.
-/

namespace JsonValidation

namespace Field

variable {σ : Type}

/-- A field that is mutable whatever was declared. -/
def unmarked (field : Field σ) : Field σ := { field with mutability := .mutable }

/-- A change of fields that keeps their names commutes with putting a field in its place. -/
theorem map_insert {τ : Type} (g : Field σ → Field τ) (hg : ∀ field, (g field).name = field.name)
    (field : Field σ) (fields : List (Field σ)) :
    (insert field fields).map g = insert (g field) (fields.map g) := by
  induction fields with
  | nil => rfl
  | cons other rest ih =>
    rw [insert, List.map_cons, insert, hg, hg]
    split
    · rfl
    · rw [List.map_cons, ih]

end Field

namespace Schema

/-- A schema without the annotation around it; the fields of an object are made mutable. -/
def stripped : Schema → Schema
  | .readonly inner => inner
  | .branded _ inner => inner
  | .shared inner => inner
  | .object fields => .object (fields.map Field.unmarked)
  | schema => schema

/-- A schema without annotations at any depth. -/
def erase : Schema → Schema := rewrite stripped

/-- Whether a schema is no annotation and has no readonly field. -/
def IsPlain : Schema → Prop
  | .readonly _ | .branded _ _ | .shared _ => False
  | .object fields => ∀ field ∈ fields, field.mutability = .mutable
  | _ => True

/-! ## Erasing keeps the check -/

theorem object_map_unmarked (fields : List (Field Check)) :
    Check.object (fields.map Field.unmarked) = Check.object fields := by
  have h : ∀ entries, Run.forEach (Check.field entries) (fields.map Field.unmarked) =
      Run.forEach (Check.field entries) fields := fun entries => Run.forEach_map _ _ _
  simp only [Check.object, h]

theorem check_stripped (schema : Schema) : schema.stripped.check = schema.check := by
  cases schema with
  | object fields =>
    have h : fieldChecks (fields.map Field.unmarked) = (fieldChecks fields).map Field.unmarked := by
      rw [fieldChecks_eq_map, fieldChecks_eq_map, List.map_map, List.map_map]
      rfl
    rw [stripped, check, check, h, object_map_unmarked]
  | _ => rfl

/-! ## Erasing leaves no annotation -/

theorem isPlain_of_inside_erase (schema : Schema) : ∀ s, Inside s schema.erase → s.IsPlain := by
  refine forall_inside_rewrite (fun schema hp => ?_) schema
  cases schema with
  | readonly inner | branded _ inner | shared inner => exact hp inner List.mem_cons_self
  | object fields =>
    refine forall_inside_of_parts ?_ ?_
    · exact List.forall_mem_map.mpr fun _ _ => rfl
    · rw [stripped, parts, List.map_map]
      exact hp
  | _ => exact forall_inside_of_parts trivial hp

end Schema

/-! ## Declarations -/

/-- A declaration without annotations. Nothing is left of a readonly step. -/
def Declaration.erase : Declaration Schema → Option (Declaration Schema)
  | .required name validator => some (.required name validator.erase)
  | .optional name validator => some (.optional name validator.erase)
  | .readonly => none

/-- A field without annotations. -/
def Field.erase (field : Field Schema) : Field Schema := (field.map Schema.erase).unmarked

/-- One more declaration, before and after erasing. -/
theorem Field.map_erase_declare (fields : List (Field Schema)) (d : Declaration Schema) :
    (declare fields d).map erase =
      match d.erase with
      | some d => declare (fields.map erase) d
      | none => fields.map erase := by
  cases d with
  | required name validator => exact map_insert erase (fun _ => rfl) _ fields
  | optional name validator => exact map_insert erase (fun _ => rfl) _ fields
  | readonly => exact List.map_map

theorem Field.map_erase_foldl_declare (declarations : List (Declaration Schema))
    (fields : List (Field Schema)) :
    (declarations.foldl declare fields).map erase =
      (declarations.filterMap Declaration.erase).foldl declare (fields.map erase) := by
  induction declarations generalizing fields with
  | nil => rfl
  | cons d rest ih =>
    rw [List.foldl_cons, ih, map_erase_declare, List.filterMap_cons]
    cases d.erase <;> rfl

namespace Schema

theorem erase_object (fields : List (Field Schema)) :
    (object fields).erase = .object (fields.map Field.erase) := by
  rw [erase, rewrite, rewriteFields_eq_map, stripped, List.map_map]
  rfl

/-- An object schema without annotations is built from the declarations without annotations. -/
theorem erase_ofDeclarations (declarations : List (Declaration Schema)) :
    (ofDeclarations declarations).erase =
      ofDeclarations (declarations.filterMap Declaration.erase) := by
  rw [ofDeclarations, erase_object, Field.ofDeclarations, Field.map_erase_foldl_declare]
  rfl

/-- Erasing leaves no annotation at any depth, commutes with declaring the fields of objects, and
changes no run: the calls, the failure and the fault stay the same for every input. -/
theorem check_erase :
    (∀ schema : Schema, ∀ s, Inside s schema.erase → s.IsPlain) ∧
    (∀ declarations : List (Declaration Schema), (ofDeclarations declarations).erase =
      ofDeclarations (declarations.filterMap Declaration.erase)) ∧
    ∀ (schema : Schema) (x : Input), schema.erase.check x = schema.check x := by
  refine ⟨isPlain_of_inside_erase, erase_ofDeclarations, fun schema x => ?_⟩
  rw [erase, check_rewrite check_stripped]

end Schema

end JsonValidation
