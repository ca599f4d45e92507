import Mathlib.Data.Set.Operations
import JsonValidation.Proofs.Faults

/-!
# What a schema accepts

`Schema.inputs` says which inputs a schema describes, by recursion on the schema and with
quantifiers only: nothing is run, stopped early or counted. The check of a schema accepts exactly
these inputs, as long as no predicate inside it gives up (`Schema.check_accepted_iff_mem_inputs`).
-/

namespace JsonValidation

/-- The inputs that a literal describes. -/
def Literal.inputs : Literal → Set Input
  | .value w => { x | ∃ v, x = .present v ∧ v.strictlyEqual w = true }
  | .undefined => { x | x = .absent }
  | .nonFinite _ => { _x | False }

/-- The inputs for which the predicate of a guard holds; a predicate over values holds for no absent
input. -/
def Guard.inputs (guard : Guard) : Set Input :=
  match guard.test with
  | .onValue test => { x | ∃ v, x = .present v ∧ test v = .ok true }
  | .onInput test => { x | test x = .ok true }

mutual

/-- The inputs that a schema describes. -/
def Schema.inputs : Schema → Set Input
  | .scalar kind => { x | x.HasKind kind.kind }
  | .undefined => { x | x = .absent }
  | .literal l => l.inputs
  | .guard g => g.inputs
  | .array items => { x | ∃ values : List Value, x = .present (.array values) ∧
      ∀ v ∈ values, .present v ∈ items.inputs }
  | .tuple _ elements => { x | ∃ values : List Value, x = .present (.array values) ∧
      values.length = elements.length ∧
      ∀ (i : Nat) (v : Value) (A : Set Input), values[i]? = some v →
        (Schema.inputsOfAll elements)[i]? = some A → .present v ∈ A }
  | .restTuple _ leading rest => { x | ∃ values : List Value, x = .present (.array values) ∧
      leading.length ≤ values.length ∧
      (∀ (i : Nat) (v : Value) (A : Set Input), values[i]? = some v →
        (Schema.inputsOfAll leading)[i]? = some A → .present v ∈ A) ∧
      ∀ (i : Nat) (v : Value), leading.length ≤ i → values[i]? = some v →
        .present v ∈ rest.inputs }
  | .union _ first others => { x | x ∈ first.inputs ∨ ∃ A ∈ Schema.inputsOfAll others, x ∈ A }
  | .intersection _ parts => { x | ∀ A ∈ Schema.inputsOfAll parts, x ∈ A }
  | .record keys values => { x | ∃ entries : List (String × Value),
      x = .present (.object entries) ∧ ∀ e ∈ entries,
        .present (.string e.1) ∈ keys.inputs ∧ .present e.2 ∈ values.inputs }
  | .object fields => { x | ∃ entries : List (String × Value), x = .present (.object entries) ∧
      ∀ f ∈ Schema.inputsOfFields fields,
        (∀ v, entries.lookup f.name = some v → .present v ∈ f.validator) ∧
        (entries.lookup f.name = none → f.presence = .optional) }
  | .readonly inner => inner.inputs
  | .branded _ inner => inner.inputs
  | .shared inner => inner.inputs

/-- The inputs that the schemas of a list describe, one set for each schema. -/
def Schema.inputsOfAll : List Schema → List (Set Input)
  | [] => []
  | schema :: rest => schema.inputs :: Schema.inputsOfAll rest

/-- Fields with the inputs that their schemas describe. -/
def Schema.inputsOfFields : List (Field Schema) → List (Field (Set Input))
  | [] => []
  | ⟨name, presence, mutability, schema⟩ :: rest =>
    ⟨name, presence, mutability, schema.inputs⟩ :: Schema.inputsOfFields rest

end

theorem Literal.check_accepted_iff_mem {literal : Literal} {x : Input} :
    (literal.check x).verdict = .accepted ↔ x ∈ literal.inputs := by
  rw [Literal.check_accepted_iff]
  cases literal <;> cases x <;> simp [accepts, inputs]

theorem Guard.check_accepted_iff_mem {guard : Guard} {x : Input} :
    (guard.check x).verdict = .accepted ↔ x ∈ guard.inputs := by
  unfold check inputs
  cases guard.test with
  | onValue test => cases x <;> simp [afterCall_accepted_iff]
  | onInput test => simp [afterCall_accepted_iff]

namespace Schema

theorem inputsOfAll_eq_map (schemas : List Schema) : inputsOfAll schemas = schemas.map inputs := by
  induction schemas with
  | nil => rfl
  | cons schema rest ih => rw [inputsOfAll, ih, List.map_cons]

theorem inputsOfFields_eq_map (fields : List (Field Schema)) :
    inputsOfFields fields = fields.map (·.map inputs) := by
  induction fields with
  | nil => rfl
  | cons field rest ih => rw [inputsOfFields, ih, List.map_cons, Field.map]

theorem getElem?_inputsOfAll {schemas : List Schema} {i : Nat} {A : Set Input} :
    (inputsOfAll schemas)[i]? = some A ↔ ∃ s, schemas[i]? = some s ∧ s.inputs = A := by
  rw [inputsOfAll_eq_map, List.getElem?_map, Option.map_eq_some_iff]

theorem exists_mem_inputsOfAll {schemas : List Schema} {P : Set Input → Prop} :
    (∃ A ∈ inputsOfAll schemas, P A) ↔ ∃ s ∈ schemas, P s.inputs := by
  simp [inputsOfAll_eq_map]

theorem forall_mem_inputsOfAll {schemas : List Schema} {P : Set Input → Prop} :
    (∀ A ∈ inputsOfAll schemas, P A) ↔ ∀ s ∈ schemas, P s.inputs := by
  rw [inputsOfAll_eq_map, List.forall_mem_map]

/-! ## Checks accept what the schemas describe -/

/-- The elements at the positions of a list of schemas. -/
theorem positions_accepted_iff {schemas : List Schema} {values : List Value}
    (ih : ∀ s ∈ schemas, ∀ x, (s.check x).verdict = .accepted ↔ x ∈ s.inputs) :
    (∀ (i : Nat) (v : Value) (check : Check), values[i]? = some v →
        (checks schemas)[i]? = some check → (check (.present v)).verdict = .accepted) ↔
      ∀ (i : Nat) (v : Value) (A : Set Input), values[i]? = some v →
        (inputsOfAll schemas)[i]? = some A → .present v ∈ A := by
  constructor
  · intro h i v A hv hA
    obtain ⟨s, hs, rfl⟩ := getElem?_inputsOfAll.mp hA
    have ha := h i v s.check hv (getElem?_checks.mpr ⟨s, hs, rfl⟩)
    exact (ih s (List.mem_of_getElem? hs) _).mp ha
  · intro h i v check hv hc
    obtain ⟨s, hs, rfl⟩ := getElem?_checks.mp hc
    have hm := h i v s.inputs hv (getElem?_inputsOfAll.mpr ⟨s, hs, rfl⟩)
    exact (ih s (List.mem_of_getElem? hs) _).mpr hm

theorem some_accepted_iff {schemas : List Schema} {x : Input}
    (ih : ∀ s ∈ schemas, (s.check x).verdict = .accepted ↔ x ∈ s.inputs) :
    (∃ check ∈ checks schemas, (check x).verdict = .accepted) ↔ ∃ s ∈ schemas, x ∈ s.inputs := by
  simp only [checks_eq_map, List.mem_map, exists_exists_and_eq_and]
  exact exists_congr fun s => and_congr_right fun hs => ih s hs

theorem all_accepted_iff {schemas : List Schema} {x : Input}
    (ih : ∀ s ∈ schemas, (s.check x).verdict = .accepted ↔ x ∈ s.inputs) :
    (∀ check ∈ checks schemas, (check x).verdict = .accepted) ↔ ∀ s ∈ schemas, x ∈ s.inputs := by
  rw [checks_eq_map, List.forall_mem_map]
  exact forall₂_congr ih

/-- The check of a schema accepts exactly the inputs that the schema describes, if every predicate
inside it answers. -/
theorem check_accepted_iff_mem_inputs {schema : Schema} (hg : ∀ g ∈ schema.guards, g.Answers)
    (x : Input) : (schema.check x).verdict = .accepted ↔ x ∈ schema.inputs := by
  induction schema generalizing x with
  | scalar kind => exact Check.ofKind_accepted_iff
  | undefined => exact Check.undefined_accepted_iff
  | literal l => exact Literal.check_accepted_iff_mem
  | guard g => exact Guard.check_accepted_iff_mem
  | array items ih =>
    rw [check, Check.array_accepted_iff]
    exact exists_congr fun values => and_congr_right fun _ => forall₂_congr fun v _ => ih hg _
  | tuple form elements ih =>
    rw [forall_guards_tuple] at hg
    rw [check, Check.tuple_accepted_iff, Listing.length, length_checks]
    refine exists_congr fun values => and_congr_right fun _ => and_congr_right fun _ => ?_
    exact positions_accepted_iff fun s hs => ih s hs (hg s hs)
  | restTuple form leading rest ih ihRest =>
    rw [forall_guards_restTuple] at hg
    rw [check, Check.restTuple_accepted_iff, Listing.length, length_checks]
    refine exists_congr fun values => and_congr_right fun _ => and_congr_right fun _ => ?_
    refine and_congr (positions_accepted_iff fun s hs => ih s hs (hg.1 s hs)) ?_
    exact forall₂_congr fun i v => forall₂_congr fun _ _ => ihRest hg.2 _
  | union form first others ih =>
    rw [forall_guards_union] at hg
    have hf : ∀ check ∈ checks (first :: others), ∀ fault, (check x).verdict ≠ .faulted fault := by
      intro check hc fault
      obtain ⟨s, hs, rfl⟩ := mem_checks.mp hc
      exact not_faulted (fun g hm y => Guard.not_faulted_of_answers (hg s hs g hm) fault) x
    have hu : x ∈ (union form first others).inputs ↔ ∃ s ∈ first :: others, x ∈ s.inputs := by
      rw [inputs, Set.mem_ofPred, exists_mem_inputsOfAll]
      simp
    rw [hu, check, Check.union_accepted_iff hf]
    exact some_accepted_iff fun s hs => ih s hs (hg s hs) x
  | intersection form parts ih =>
    rw [forall_guards_intersection] at hg
    rw [check, Check.intersection_accepted_iff, inputs, Set.mem_ofPred, forall_mem_inputsOfAll]
    exact all_accepted_iff fun s hs => ih s hs (hg s hs) x
  | record keys values ihKeys ihValues =>
    rw [forall_guards_record] at hg
    rw [check, Check.record_accepted_iff]
    refine exists_congr fun entries => and_congr_right fun _ => forall₂_congr fun e _ => ?_
    exact and_congr (ihKeys hg.1 _) (ihValues hg.2 _)
  | object fields ih =>
    rw [forall_guards_object] at hg
    rw [check, Check.object_accepted_iff, fieldChecks_eq_map]
    refine exists_congr fun entries => and_congr_right fun _ => ?_
    rw [inputsOfFields_eq_map, List.forall_mem_map, List.forall_mem_map]
    refine forall₂_congr fun f hf => and_congr_left fun _ => forall₂_congr fun v _ => ?_
    exact ih f hf (hg f hf) _
  | readonly inner ih => exact ih hg x
  | branded brand inner ih => exact ih hg x
  | shared inner ih => exact ih hg x

/-- Arrays of a string or an even number, with any number of objects after it that may have a null
under a key. -/
def headed : Schema :=
  .restTuple .written
    [.union .written (.scalar .string) [.guard ⟨.number, none, .onValue Predicate.even.answer⟩]]
    (.object [⟨"a", .optional, .mutable, .scalar .null⟩])

theorem check_accepted_iff_mem_inputs_headed :
    (∀ g ∈ headed.guards, g.Answers) ∧
      .present (.array [.ofNat 2, .object [("a", .null)], .object []]) ∈ headed.inputs ∧
      .present (.array [.ofNat 3]) ∉ headed.inputs := by
  have hg : ∀ g ∈ headed.guards, g.Answers := by
    intro g hg
    obtain rfl := List.mem_singleton.mp hg
    exact fun v => ⟨_, rfl⟩
  refine ⟨hg, (check_accepted_iff_mem_inputs hg _).mp rfl, fun h => ?_⟩
  cases (check_accepted_iff_mem_inputs hg _).mpr h

end Schema

end JsonValidation
