import JsonValidation.Parse
import JsonValidation.Proofs.Guards
import JsonValidation.Proofs.Views

/-!
# Narrowing is sound

A schema narrows an input that it accepts to a view type, and what the accessors of that type rely
on is what the schema has checked, as long as its guards claim nothing that their predicates do not
check (`Guard.IsHonest`):

* `Schema.fits_of_accepted`: an accepted input has the shape of the type that the schema narrows to;
* `Schema.follow?`: the schema that checks the parts to which steps lead;
* `Schema.Backs`: what may be relied on in a view of an accepted input;
* `Schema.backs_of_accepted`: a parse that accepts gives such a view.
-/

namespace JsonValidation

/-- Whether everything that a guard accepts has the shape of the type that the guard claims. -/
def Guard.IsHonest (guard : Guard) : Prop :=
  ∀ x, (guard.check x).verdict = .accepted → guard.narrows.Fits x

theorem Guard.isHonest_onValue {type : ViewType} {label : Option Value} {test : Test Value}
    (h : ∀ v, test v = .ok true → type.Fits (.present v)) :
    Guard.IsHonest ⟨type, label, .onValue test⟩ := by
  intro x ha
  cases x with
  | absent => cases ha
  | present v => exact h v (Guard.afterCall_accepted_iff.mp ha)

/-- A property of numbers may claim that what has it is a number. -/
theorem Guard.isHonest_ofNumber (label : Option Value) (property : Number → Bool) :
    Guard.IsHonest ⟨.number, label, .onValue fun v => .ok (Predicate.ofNumber property v)⟩ := by
  refine Guard.isHonest_onValue fun v hv => ?_
  cases v with
  | number n => exact ⟨.number n, rfl, rfl⟩
  | null | boolean | string | array | object => cases hv

namespace Schema

/-! ## The shape of accepted inputs -/

theorem fits_of_accepted {schema : Schema} (hg : ∀ g ∈ schema.guards, g.IsHonest) {x : Input}
    (h : (schema.check x).verdict = .accepted) : schema.output.Fits x := by
  induction schema generalizing x with
  | scalar kind =>
    have hk : x.HasKind kind.kind := Check.ofKind_accepted_iff.mp h
    cases kind with
    | null => exact True.intro
    | boolean | number | string => exact hk
  | undefined | literal | tuple | restTuple | union | intersection => exact True.intro
  | guard g => exact hg g List.mem_cons_self x h
  | array items ih =>
    obtain ⟨values, hx, ha⟩ := Check.array_accepted_iff.mp h
    exact ⟨values, hx, fun v hv => ih hg (ha v hv)⟩
  | record keys values _ ihValues =>
    rw [forall_guards_record] at hg
    obtain ⟨entries, hx, ha⟩ := Check.record_accepted_iff.mp h
    exact ⟨entries, hx, fun e he => ihValues hg.2 (ha e he).2⟩
  | object fields =>
    obtain ⟨entries, hx, -⟩ := Check.object_accepted_iff.mp h
    exact Input.hasKind_object.mpr ⟨entries, hx⟩
  | readonly inner ih => exact ih hg h
  | branded brand inner ih => exact ih hg h
  | shared inner ih => exact ih hg h

/-! ## The schemas of parts -/

/-- A schema without its marks and brands, and without its other owners. -/
def bare : Schema → Schema
  | .readonly inner => inner.bare
  | .branded _ inner => inner.bare
  | .shared inner => inner.bare
  | schema => schema

theorem check_bare (schema : Schema) : schema.bare.check = schema.check := by
  induction schema with
  | readonly inner ih | branded brand inner ih | shared inner ih => exact ih
  | _ => rfl

/-- The schema of the parts to which a step leads in every input that is accepted. -/
def step? : Schema → Segment → Option Schema
  | .array items, .index _ => some items
  | .record _ values, .field _ => some values
  | _, _ => none

/-- The schema of the parts to which steps lead, without marks and brands. -/
def follow? : Schema → List Segment → Option Schema
  | schema, [] => some schema.bare
  | schema, segment :: rest => (schema.bare.step? segment).bind fun part => part.follow? rest

theorem accepted_of_step? {schema part : Schema} {v w : Value} {segment : Segment}
    (h : (schema.check (.present v)).verdict = .accepted) (hs : schema.step? segment = some part)
    (hv : v.step? segment = some w) : (part.check (.present w)).verdict = .accepted := by
  unfold step? at hs
  split at hs
  · rename_i items i
    obtain ⟨values, hx, ha⟩ := Check.array_accepted_iff.mp h
    cases hx
    cases hs
    exact ha w (List.mem_of_getElem? hv)
  · rename_i keys values key
    obtain ⟨entries, hx, ha⟩ := Check.record_accepted_iff.mp h
    cases hx
    cases hs
    exact (ha (key, w) (mem_of_lookup hv)).2
  · cases hs

/-- The parts of an accepted input are accepted by the schemas of the parts. -/
theorem accepted_of_follow? {schema part : Schema} {x y : Input} {path : List Segment}
    (h : (schema.check x).verdict = .accepted) (hs : schema.follow? path = some part)
    (hx : x.follow? path = some y) : (part.check y).verdict = .accepted := by
  induction path generalizing schema x with
  | nil =>
    rw [Input.follow?_nil] at hx
    cases hx
    cases hs
    rwa [check_bare]
  | cons segment path ih =>
    cases x with
    | absent => cases hx
    | present v =>
      obtain ⟨w, hw, hx⟩ := Option.bind_eq_some_iff.mp hx
      obtain ⟨item, hi, hs⟩ := Option.bind_eq_some_iff.mp hs
      rw [← check_bare] at h
      exact ih (accepted_of_step? h hi hw) hs hx

/-! ## Schemas behind views -/

/-- Whether steps pass a guard, behind which no schema checks the parts. -/
def MeetsGuard (schema : Schema) (path : List Segment) : Prop :=
  ∃ front g, front <+: path ∧ schema.follow? front = some (.guard g)

theorem meetsGuard_of_bare {schema : Schema} {g : Guard} (h : schema.bare = .guard g)
    (path : List Segment) : schema.MeetsGuard path :=
  ⟨[], g, List.nil_prefix, by rw [follow?, h]⟩

theorem meetsGuard_of_step? {schema part : Schema} {segment : Segment} {path : List Segment}
    (hs : schema.bare.step? segment = some part) (h : part.MeetsGuard path) :
    schema.MeetsGuard (segment :: path) := by
  obtain ⟨front, g, hp, hf⟩ := h
  refine ⟨segment :: front, g, List.cons_prefix_cons.mpr ⟨rfl, hp⟩, ?_⟩
  rw [follow?, hs, Option.bind_some, hf]

theorem follow?_congr {schema other : Schema} (h : schema.bare = other.bare)
    (path : List Segment) : schema.follow? path = other.follow? path := by
  cases path <;> rw [follow?, follow?, h]

/-- Whether a schema is built as the type of a view says: an array of items of the element type, a
record with values of the value type, or a mark or brand around a schema of the inner type. -/
def IsBuiltAs (schema : Schema) : ViewType → Prop
  | .array type => ∃ items, schema.bare = .array items ∧ items.output = type
  | .record type => ∃ keys values, schema.bare = .record keys values ∧ values.output = type
  | .readonly type => ∃ inner : Schema, schema.bare = inner.bare ∧ inner.output = type
  | .branded _ type => ∃ inner : Schema, schema.bare = inner.bare ∧ inner.output = type
  | _ => True

theorem isBuiltAs_congr {schema other : Schema} (h : schema.bare = other.bare) {type : ViewType}
    (hb : schema.IsBuiltAs type) : other.IsBuiltAs type := by
  cases type with
  | array | record | readonly | branded => simpa only [IsBuiltAs, h] using hb
  | untyped | string | number | boolean | object => exact True.intro

/-- Only a guard can claim a type that its schema is not built as. -/
theorem guard_or_isBuiltAs (schema : Schema) :
    (∃ g, schema.bare = .guard g) ∨ schema.IsBuiltAs schema.output := by
  induction schema with
  | guard g => exact .inl ⟨g, rfl⟩
  | array items => exact .inr ⟨items, rfl, rfl⟩
  | record keys values => exact .inr ⟨keys, values, rfl, rfl⟩
  | readonly inner | branded brand inner => exact .inr ⟨inner, rfl, rfl⟩
  | shared inner ih => exact ih.imp_right (isBuiltAs_congr rfl)
  | scalar kind => cases kind <;> exact .inr True.intro
  | undefined | literal | tuple | restTuple | union | intersection | object =>
    exact .inr True.intro

theorem guard_or_isBuiltAs_of_output {schema : Schema} {type : ViewType}
    (h : schema.output = type) :
    (∃ g, schema.bare = .guard g) ∨ schema.IsBuiltAs type :=
  h ▸ schema.guard_or_isBuiltAs

section Leads

variable {schema : Schema} {type type' : ViewType} {path : List Segment} {found : View type'}

theorem step?_of_output_array (hs : schema.output = .array type) (n : Nat) :
    (∃ g, schema.bare = .guard g) ∨
      ∃ part, schema.bare.step? (.index n) = some part ∧ part.output = type := by
  refine (guard_or_isBuiltAs_of_output hs).imp_right fun ⟨items, hb, hi⟩ => ⟨items, ?_, hi⟩
  rw [hb, step?]

theorem step?_of_output_record (hs : schema.output = .record type) (key : String) :
    (∃ g, schema.bare = .guard g) ∨
      ∃ part, schema.bare.step? (.field key) = some part ∧ part.output = type := by
  refine (guard_or_isBuiltAs_of_output hs).imp_right fun ⟨keys, values, hb, hv⟩ => ⟨values, ?_, hv⟩
  rw [hb, step?]

/-- One step more: a schema without a guard at its root has a schema for the part. -/
theorem meetsGuard_cons {segment : Segment}
    (hs : (∃ g, schema.bare = .guard g) ∨
      ∃ part, schema.bare.step? segment = some part ∧ part.output = type)
    (ih : ∀ {part : Schema}, part.output = type → part.follow? path = none → part.MeetsGuard path)
    (h : schema.follow? (segment :: path) = none) : schema.MeetsGuard (segment :: path) := by
  rcases hs with ⟨g, hg⟩ | ⟨part, hp, ho⟩
  · exact meetsGuard_of_bare hg _
  · rw [follow?, hp, Option.bind_some] at h
    exact meetsGuard_of_step? hp (ih ho h)

theorem meetsGuard_of_bare_eq {inner : Schema} (hb : schema.bare = inner.bare)
    (h : inner.MeetsGuard path) : schema.MeetsGuard path := by
  obtain ⟨front, g, hp, hf⟩ := h
  exact ⟨front, g, hp, by rw [follow?_congr hb, hf]⟩

/-- Where accessors lead past the schemas of parts, they have met a guard. -/
theorem meetsGuard_of_leads {view : View type} (h : view.Leads path found)
    (hs : schema.output = type) (hn : schema.follow? path = none) : schema.MeetsGuard path := by
  induction h generalizing schema with
  | here view => cases hn
  | get h next ih => exact meetsGuard_cons (step?_of_output_array hs _) ih hn
  | each h hm next ih => exact meetsGuard_cons (step?_of_output_array hs _) ih hn
  | lookup h next ih => exact meetsGuard_cons (step?_of_output_record hs _) ih hn
  | entry h hm next ih => exact meetsGuard_cons (step?_of_output_record hs _) ih hn
  | writable next ih | unbranded next ih =>
    rcases guard_or_isBuiltAs_of_output hs with ⟨g, hg⟩ | ⟨inner, hb, hi⟩
    · exact meetsGuard_of_bare hg _
    · rw [follow?_congr hb] at hn
      exact meetsGuard_of_bare_eq hb (ih hi hn)

end Leads

/-! ## Views of accepted inputs -/

/-- What may be relied on in a view of an input that a schema accepted. -/
structure Backs (schema : Schema) (view : View schema.output) : Prop where
  /-- No chain of accessors meets a value of another kind. -/
  answers (chain : Chain schema.output) : ∃ answer, chain.answer view = .ok answer
  /-- Steps along accessors lead to views that hold exactly that part of the input. -/
  holds {type : ViewType} {path : List Segment} {found : View type} :
    view.Leads path found → view.input.follow? path = some found.input
  /-- Every such part is accepted by the schema of the part. -/
  accepted {type : ViewType} {path : List Segment} {found : View type} {part : Schema} :
    view.Leads path found → schema.follow? path = some part →
      (part.check found.input).verdict = .accepted
  /-- There is no schema of the part only where the steps have passed a guard. -/
  unfollowed {type : ViewType} {path : List Segment} {found : View type} :
    view.Leads path found → schema.follow? path = none → schema.MeetsGuard path
  /-- All elements of an array are as many as its size, and each is the one at its position. -/
  elements {type : ViewType} {path : List Segment} {found : View (.array type)} :
    view.Leads path found → ∃ elements, found.elements = .ok elements ∧
      found.size = .ok elements.length ∧ ∀ n, found.get? n = .ok elements[n]?
  /-- No two entries of a record have one key, and the value of each is the one under its key. -/
  entries {type : ViewType} {path : List Segment} {found : View (.record type)} :
    view.Leads path found → ∃ entries, found.entries = .ok entries ∧
      (entries.map Prod.fst).Nodup ∧ ∀ key, found.lookup? key = .ok (entries.lookup key)
  /-- A declared field of an object is what the input has under its name: it is there if it is
  required, and its schema accepts it if it is there. -/
  field {path : List Segment} {found : View .object} {fields : List (Field Schema)}
    {f : Field Schema} :
    view.Leads path found → schema.follow? path = some (.object fields) → f ∈ fields →
      (f.presence = .required → (found.field f.name).isPresent = true) ∧
      ∀ v, found.field f.name = .present v →
        view.input.follow? (path ++ [.field f.name]) = some (.present v) ∧
        (f.validator.check (.present v)).verdict = .accepted

theorem follow?_field {x : Input} {path : List Segment} {view : View .object} {name : String}
    {v : Value} (h : x.follow? path = some view.input) (hv : view.field name = .present v) :
    x.follow? (path ++ [.field name]) = some (.present v) := by
  obtain ⟨w, hw, hs⟩ := View.step?_of_field hv
  rw [hw] at h
  exact Input.follow?_push h hs

theorem field_of_accepted {fields : List (Field Schema)} {f : Field Schema} {view : View .object}
    (h : ((Schema.object fields).check view.input).verdict = .accepted) (hm : f ∈ fields) :
    (f.presence = .required → (view.field f.name).isPresent = true) ∧
      ∀ v, view.field f.name = .present v →
        (f.validator.check (.present v)).verdict = .accepted := by
  obtain ⟨entries, hx, ha⟩ := Check.object_accepted_iff.mp h
  obtain ⟨hv, hn⟩ := ha (f.map Schema.check) (mem_fieldChecks.mpr ⟨f, hm, rfl⟩)
  rw [View.field_of_object hx]
  cases hl : entries.lookup f.name with
  | none =>
    refine ⟨fun hr => ?_, fun v h => ?_⟩
    · have ho : f.presence = .optional := hn hl
      rw [ho] at hr
      cases hr
    · cases h
  | some v =>
    refine ⟨fun _ => rfl, fun w h => ?_⟩
    cases h
    exact hv v hl

/-- The view of an accepted input can be relied on. -/
theorem backs_whole {schema : Schema} {x : Input} (hg : ∀ g ∈ schema.guards, g.IsHonest)
    (hx : x.UniqueKeys) (h : (schema.check x).verdict = .accepted) :
    schema.Backs (.whole schema.output x) := by
  have hf : schema.output.Fits x := fits_of_accepted hg h
  have hold {type : ViewType} {path : List Segment} {found : View type}
      (hl : (View.whole schema.output x).Leads path found) :
      type.Fits found.input ∧ x.follow? path = some found.input := hl.reaches hf hx
  have accept {type : ViewType} {path : List Segment} {found : View type} {part : Schema}
      (hl : (View.whole schema.output x).Leads path found) (hs : schema.follow? path = some part) :
      (part.check found.input).verdict = .accepted := accepted_of_follow? h hs (hold hl).2
  exact {
    answers := fun chain => chain.exists_answer hf
    holds := fun hl => (hold hl).2
    accepted := accept
    unfollowed := fun hl => meetsGuard_of_leads hl rfl
    elements := fun hl => View.exists_elements (hold hl).1
    entries := fun hl => View.exists_entries (hold hl).1 (hx.follow? (hold hl).2)
    field := fun {path found fields f} hl hs hm => by
      obtain ⟨hr, ha⟩ := field_of_accepted (accept hl hs) hm
      exact ⟨hr, fun v hv => ⟨follow?_field (hold hl).2 hv, ha v hv⟩⟩ }

/-- A parse that accepts gives a view of the input itself that can be relied on. -/
theorem backs_of_accepted {schema : Schema} {x : Input} (hg : ∀ g ∈ schema.guards, g.IsHonest)
    (hx : x.UniqueKeys) (h : (schema.check x).verdict = .accepted) :
    ∃ view, (schema.parse x).result = .ok (.accepted view) ∧ view.input = x ∧
      schema.Backs view := by
  refine ⟨.whole schema.output x, ?_, rfl, backs_whole hg hx h⟩
  show (schema.check x).verdict.result schema.output x = _
  rw [h]
  rfl

/-- Readonly lists of records of even numbers, by a guard that claims numbers. -/
def evenRecords : Schema :=
  .readonly (.array (.record (.scalar .string)
    (.guard ⟨.number, none, .onValue Predicate.even.answer⟩)))

theorem backs_of_accepted_evenRecords : ∃ view,
    (evenRecords.parse (.present (.array [.object [("a", .ofNat 2)]]))).result =
      .ok (.accepted view) ∧
    view.input = .present (.array [.object [("a", .ofNat 2)]]) ∧ evenRecords.Backs view := by
  have hg : ∀ g ∈ evenRecords.guards, g.IsHonest := by
    intro g hg
    obtain rfl := List.mem_singleton.mp hg
    exact Guard.isHonest_ofNumber none Number.isEven
  exact backs_of_accepted hg (by decide) rfl

end Schema

end JsonValidation
