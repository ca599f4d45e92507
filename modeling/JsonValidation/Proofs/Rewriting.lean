import JsonValidation.Schema.Check
import JsonValidation.Proofs.Induction

/-!
# Rewriting schemas

A function on schemas is applied to all schemas inside a schema, from the inside out
(`Schema.rewrite`). If it changes the check of no schema to which it is applied, it changes the check
of no schema in this way either (`Schema.check_rewrite`): the check of a schema depends on its parts
only through their checks.

* `Schema.Inside`: the schemas inside a schema, at any depth;
* `Schema.forall_inside_rewrite`: what all schemas inside a rewritten schema are like.
-/

namespace JsonValidation

mutual

/-- A schema after a function was applied to the schemas inside it, and then to itself. -/
def Schema.rewrite (f : Schema → Schema) : Schema → Schema
  | .scalar kind => f (.scalar kind)
  | .undefined => f .undefined
  | .literal l => f (.literal l)
  | .guard g => f (.guard g)
  | .array items => f (.array (items.rewrite f))
  | .tuple form elements => f (.tuple form (Schema.rewriteAll f elements))
  | .restTuple form leading rest =>
    f (.restTuple form (Schema.rewriteAll f leading) (rest.rewrite f))
  | .union form first others => f (.union form (first.rewrite f) (Schema.rewriteAll f others))
  | .intersection form parts => f (.intersection form (Schema.rewriteAll f parts))
  | .record keys values => f (.record (keys.rewrite f) (values.rewrite f))
  | .object fields => f (.object (Schema.rewriteFields f fields))
  | .readonly inner => f (.readonly (inner.rewrite f))
  | .branded brand inner => f (.branded brand (inner.rewrite f))
  | .shared inner => f (.shared (inner.rewrite f))

/-- The schemas of a list, each of them rewritten. -/
def Schema.rewriteAll (f : Schema → Schema) : List Schema → List Schema
  | [] => []
  | schema :: rest => schema.rewrite f :: Schema.rewriteAll f rest

/-- Fields whose schemas are rewritten. -/
def Schema.rewriteFields (f : Schema → Schema) : List (Field Schema) → List (Field Schema)
  | [] => []
  | ⟨name, presence, mutability, schema⟩ :: rest =>
    ⟨name, presence, mutability, schema.rewrite f⟩ :: Schema.rewriteFields f rest

end

namespace Schema

variable {f : Schema → Schema}

theorem rewriteAll_eq_map (schemas : List Schema) :
    rewriteAll f schemas = schemas.map (rewrite f) := by
  induction schemas with
  | nil => rfl
  | cons schema rest ih => rw [rewriteAll, ih, List.map_cons]

theorem rewriteFields_eq_map (fields : List (Field Schema)) :
    rewriteFields f fields = fields.map (·.map (rewrite f)) := by
  induction fields with
  | nil => rfl
  | cons field rest ih => rw [rewriteFields, ih, List.map_cons, Field.map]

theorem checks_rewriteAll {schemas : List Schema}
    (h : ∀ s ∈ schemas, (s.rewrite f).check = s.check) :
    checks (rewriteAll f schemas) = checks schemas := by
  rw [rewriteAll_eq_map, checks_eq_map, checks_eq_map, List.map_map]
  exact List.map_congr_left h

theorem fieldChecks_rewriteFields {fields : List (Field Schema)}
    (h : ∀ field ∈ fields, (field.validator.rewrite f).check = field.validator.check) :
    fieldChecks (rewriteFields f fields) = fieldChecks fields := by
  rw [rewriteFields_eq_map, fieldChecks_eq_map, fieldChecks_eq_map, List.map_map]
  refine List.map_congr_left fun field hm => ?_
  show (field.map (rewrite f)).map check = field.map check
  rw [Field.map, Field.map, Field.map, h field hm]

/-- A rewriting that keeps the check of each schema to which it is applied keeps the check of the
whole. -/
theorem check_rewrite (hf : ∀ schema, (f schema).check = schema.check) (schema : Schema) :
    (schema.rewrite f).check = schema.check := by
  induction schema with
  | scalar kind => exact hf _
  | undefined => exact hf _
  | literal l => exact hf _
  | guard g => exact hf _
  | array items ih => rw [rewrite, hf, check, check, ih]
  | tuple form elements ih => rw [rewrite, hf, check, check, checks_rewriteAll ih]
  | restTuple form leading rest ih ihRest =>
    rw [rewrite, hf, check, check, checks_rewriteAll ih, ihRest]
  | union form first others ih =>
    obtain ⟨ihFirst, ihOthers⟩ := List.forall_mem_cons.mp ih
    rw [rewrite, hf, check, check, ihFirst, checks_rewriteAll ihOthers]
  | intersection form parts ih => rw [rewrite, hf, check, check, checks_rewriteAll ih]
  | record keys values ihKeys ihValues => rw [rewrite, hf, check, check, ihKeys, ihValues]
  | object fields ih => rw [rewrite, hf, check, check, fieldChecks_rewriteFields ih]
  | readonly inner ih => rw [rewrite, hf, check, check, ih]
  | branded brand inner ih => rw [rewrite, hf, check, check, ih]
  | shared inner ih => rw [rewrite, hf, check, check, ih]

/-! ## Inside a schema -/

/-- The schemas of which a schema is made. -/
def parts : Schema → List Schema
  | .scalar _ | .undefined | .literal _ | .guard _ => []
  | .array items => [items]
  | .tuple _ elements => elements
  | .restTuple _ leading rest => rest :: leading
  | .union _ first others => first :: others
  | .intersection _ parts => parts
  | .record keys values => [keys, values]
  | .object fields => fields.map (·.validator)
  | .readonly inner | .branded _ inner | .shared inner => [inner]

/-- Induction on schemas, with the hypothesis for all parts. -/
theorem partInduction {motive : Schema → Prop}
    (step : ∀ schema, (∀ part ∈ schema.parts, motive part) → motive schema) (schema : Schema) :
    motive schema := by
  induction schema with
  | scalar | undefined | literal | guard => exact step _ fun _ h => absurd h List.not_mem_nil
  | array items ih => exact step _ (List.forall_mem_singleton.mpr ih)
  | tuple form elements ih => exact step _ ih
  | restTuple form leading rest ih ihRest => exact step _ (List.forall_mem_cons.mpr ⟨ihRest, ih⟩)
  | union form first others ih => exact step _ ih
  | intersection form parts ih => exact step _ ih
  | record keys values ihKeys ihValues =>
    exact step _ (List.forall_mem_cons.mpr ⟨ihKeys, List.forall_mem_singleton.mpr ihValues⟩)
  | object fields ih => exact step _ (List.forall_mem_map.mpr ih)
  | readonly inner ih | branded _ inner ih | shared inner ih =>
    exact step _ (List.forall_mem_singleton.mpr ih)

/-- A schema at any depth inside another one, or that one itself. -/
inductive Inside (inner : Schema) : Schema → Prop where
  | self : Inside inner inner
  | part {outer part : Schema} (mem : part ∈ outer.parts) (inside : Inside inner part) :
    Inside inner outer

/-- What is true of a schema and of everything inside its parts is true of everything inside it. -/
theorem forall_inside_of_parts {P : Schema → Prop} {schema : Schema} (h : P schema)
    (hp : ∀ part ∈ schema.parts, ∀ s, Inside s part → P s) (s : Schema) (hs : Inside s schema) :
    P s := by
  cases hs with
  | self => exact h
  | part mem inside => exact hp _ mem s inside

/-- A property of everything inside a rewritten schema, from one step of the rewriting. -/
theorem forall_inside_rewrite {P : Schema → Prop}
    (hf : ∀ schema, (∀ part ∈ schema.parts, ∀ s, Inside s part → P s) →
      ∀ s, Inside s (f schema) → P s) (schema : Schema) :
    ∀ s, Inside s (schema.rewrite f) → P s := by
  -- The parts of a node are rewritten before the node is, so the step is taken on a node all of
  -- whose parts have the property already.
  have hall : ∀ {schemas : List Schema},
      (∀ s ∈ schemas, ∀ t, Inside t (s.rewrite f) → P t) →
      ∀ part ∈ rewriteAll f schemas, ∀ t, Inside t part → P t := by
    intro schemas ih
    rw [rewriteAll_eq_map, List.forall_mem_map]
    exact ih
  induction schema with
  | scalar | undefined | literal | guard => exact hf _ fun _ h => absurd h List.not_mem_nil
  | array items ih => exact hf _ (List.forall_mem_singleton.mpr ih)
  | tuple form elements ih => exact hf _ (hall ih)
  | restTuple form leading rest ih ihRest =>
    exact hf _ (List.forall_mem_cons.mpr ⟨ihRest, hall ih⟩)
  | union form first others ih =>
    obtain ⟨ihFirst, ihOthers⟩ := List.forall_mem_cons.mp ih
    exact hf _ (List.forall_mem_cons.mpr ⟨ihFirst, hall ihOthers⟩)
  | intersection form parts ih => exact hf _ (hall ih)
  | record keys values ihKeys ihValues =>
    exact hf _ (List.forall_mem_cons.mpr ⟨ihKeys, List.forall_mem_singleton.mpr ihValues⟩)
  | object fields ih =>
    refine hf _ ?_
    rw [parts, rewriteFields_eq_map, List.map_map, List.forall_mem_map]
    exact ih
  | readonly inner ih | branded _ inner ih | shared inner ih =>
    exact hf _ (List.forall_mem_singleton.mpr ih)

end Schema

end JsonValidation
