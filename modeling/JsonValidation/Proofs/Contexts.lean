import Mathlib.Data.Set.Basic
import JsonValidation.Proofs.Faults
import JsonValidation.Proofs.Transfer

/-!
# Contexts

A context is a schema with a hole, at any depth. It is a list of frames, the outermost first, each of
which is one constructor with a schema missing.

* `Schema.Context.fill`: the schema that a context becomes when its hole is filled;
* `Schema.Context.check_fill_congr`: a context depends on what fills it only through its check;
* `Schema.Loosens`: the changes that make a schema looser;
* `Schema.accepted_fill_subset`: what is looser in a context makes the whole looser.
-/

namespace JsonValidation

namespace Schema

/-- A union with an alternative between others. -/
def unionAround (form : ListForm) : List Schema → Schema → List Schema → Schema
  | [], s, after => .union form s after
  | first :: others, s, after => .union form first (others ++ s :: after)

/-- A constructor of schemas with one schema missing. -/
inductive Frame where
  | array
  | tuple (form : ListForm) (before after : List Schema)
  | leadingElement (form : ListForm) (before after : List Schema) (rest : Schema)
  | restElements (form : ListForm) (leading : List Schema)
  | union (form : ListForm) (before after : List Schema)
  | intersection (form : ListForm) (before after : List Schema)
  | recordKeys (values : Schema)
  | recordValues (keys : Schema)
  | objectField (before : List (Field Schema)) (name : String) (presence : Presence)
    (mutability : Mutability) (after : List (Field Schema))
  | readonly
  | branded (brand : String)
  | shared

/-- The schema that a frame becomes with the missing schema. -/
def Frame.fill : Frame → Schema → Schema
  | .array, s => .array s
  | .tuple form before after, s => .tuple form (before ++ s :: after)
  | .leadingElement form before after rest, s => .restTuple form (before ++ s :: after) rest
  | .restElements form leading, s => .restTuple form leading s
  | .union form before after, s => unionAround form before s after
  | .intersection form before after, s => .intersection form (before ++ s :: after)
  | .recordKeys values, s => .record s values
  | .recordValues keys, s => .record keys s
  | .objectField before name presence mutability after, s =>
    .object (before ++ ⟨name, presence, mutability, s⟩ :: after)
  | .readonly, s => .readonly s
  | .branded brand, s => .branded brand s
  | .shared, s => .shared s

/-- A schema with a hole at any depth: the frames around the hole, the outermost first. -/
abbrev Context := List Frame

/-- The schema that a context becomes when its hole is filled. -/
def Context.fill (context : Context) (s : Schema) : Schema := context.foldr Frame.fill s

variable {form : ListForm} {before after : List Schema} {s t : Schema}

theorem check_unionAround : (unionAround form before s after).check =
    Check.union ⟨form, checks (before ++ s :: after)⟩ := by
  cases before <;> rfl

theorem forall_guards_unionAround {P : Guard → Prop} :
    (∀ g ∈ (unionAround form before s after).guards, P g) ↔
      ∀ r ∈ before ++ s :: after, ∀ g ∈ r.guards, P g := by
  cases before <;> exact forall_guards_union

/-! ## Guards -/

/-- The guards inside a schema are among those inside the frame around it. -/
theorem Frame.forall_guards_of_fill {frame : Frame} {P : Guard → Prop}
    (h : ∀ g ∈ (frame.fill s).guards, P g) : ∀ g ∈ s.guards, P g := by
  have hm {before after : List Schema} : s ∈ before ++ s :: after :=
    List.mem_append_right before List.mem_cons_self
  cases frame with
  | array => exact h
  | tuple form before after => exact forall_guards_tuple.mp h s hm
  | leadingElement form before after rest => exact (forall_guards_restTuple.mp h).1 s hm
  | restElements form leading => exact (forall_guards_restTuple.mp h).2
  | union form before after => exact forall_guards_unionAround.mp h s hm
  | intersection form before after => exact forall_guards_intersection.mp h s hm
  | recordKeys values => exact (forall_guards_record.mp h).1
  | recordValues keys => exact (forall_guards_record.mp h).2
  | objectField before name presence mutability after =>
    exact forall_guards_object.mp h _ (List.mem_append_right before List.mem_cons_self)
  | readonly | branded brand | shared => exact h

theorem Context.forall_guards_of_fill {context : Context} {P : Guard → Prop}
    (h : ∀ g ∈ (context.fill s).guards, P g) : ∀ g ∈ s.guards, P g := by
  induction context with
  | nil => exact h
  | cons frame context ih => exact ih (Frame.forall_guards_of_fill h)

/-! ## Checks of filled contexts -/

theorem Frame.check_fill_congr (frame : Frame) (h : s.check = t.check) :
    (frame.fill s).check = (frame.fill t).check := by
  have hl (before after : List Schema) :
      checks (before ++ s :: after) = checks (before ++ t :: after) := by
    simp only [checks_eq_map, List.map_append, List.map_cons, h]
  cases frame with
  | array | restElements | recordKeys | recordValues | readonly | branded | shared =>
    simp only [fill, check, h]
  | tuple | leadingElement | intersection => simp only [fill, check, hl]
  | union form before after =>
    rw [fill, fill, check_unionAround, check_unionAround, hl]
  | objectField before name presence mutability after =>
    simp only [fill, check, fieldChecks_eq_map, List.map_append, List.map_cons, Field.map, h]

/-- A context depends on the schema in its hole only through the check of that schema. -/
theorem Context.check_fill_congr (context : Context) (h : s.check = t.check) :
    (context.fill s).check = (context.fill t).check := by
  induction context with
  | nil => exact h
  | cons frame context ih => exact frame.check_fill_congr ih

/-! ## Acceptance in filled contexts -/

theorem neverFaults_of_answers {schema : Schema} (hg : ∀ g ∈ schema.guards, g.Answers) :
    schema.check.NeverFaults := fun x _ =>
  not_faulted (fun g hm _ => Guard.not_faulted_of_answers (hg g hm) _) x

theorem forall₂_checks_around (h : s.check.Transfers Eq t.check) (before after : List Schema) :
    List.Forall₂ (Check.Transfers Eq) (checks (before ++ s :: after))
      (checks (before ++ t :: after)) := by
  have hself (schemas : List Schema) :
      List.Forall₂ (Check.Transfers Eq) (schemas.map check) (schemas.map check) :=
    List.forall₂_same.mpr fun check _ => check.transfers_refl
  simp only [checks_eq_map, List.map_append, List.map_cons]
  exact List.rel_append (hself before) (.cons h (hself after))

theorem object_transfers_around {f f' : Field Schema}
    (h : Check.FieldTransfers Eq (f.map check) (f'.map check)) (before after : List (Field Schema)) :
    (object (before ++ f :: after)).check.Transfers Eq (object (before ++ f' :: after)).check := by
  have hself (fields : List (Field Schema)) : List.Forall₂ (Check.FieldTransfers Eq)
      (fields.map (·.map check)) (fields.map (·.map check)) :=
    List.forall₂_same.mpr fun f _ => Check.fieldTransfers_refl f
  have hl : List.Forall₂ (Check.FieldTransfers Eq) (fieldChecks (before ++ f :: after))
      (fieldChecks (before ++ f' :: after)) := by
    simp only [fieldChecks_eq_map, List.map_append, List.map_cons]
    exact List.rel_append (hself before) (.cons h (hself after))
  exact Check.object_transfers Input.isBisimulation_eq fun _ hf =>
    Input.exists_mem_of_forall₂_right hl hf

/-- One frame: what the frame accepts grows with what the schema in it accepts. -/
theorem Frame.fill_transfers {frame : Frame} (hg : ∀ g ∈ (frame.fill t).guards, g.Answers)
    (h : s.check.Transfers Eq t.check) :
    (frame.fill s).check.Transfers Eq (frame.fill t).check := by
  have hR := Input.isBisimulation_eq
  have hl (before after : List Schema) := forall₂_checks_around h before after
  cases frame with
  | array => exact Check.array_transfers hR h
  | tuple form before after => exact Check.tuple_transfers hR (hl before after)
  | leadingElement form before after rest =>
    exact Check.restTuple_transfers hR (hl before after) rest.check.transfers_refl
  | restElements form leading =>
    exact Check.restTuple_transfers hR (List.forall₂_same.mpr fun c _ => c.transfers_refl) h
  | union form before after =>
    rw [fill, check_unionAround, fill, check_unionAround]
    refine Check.union_transfers ?_ fun c hc =>
      Input.exists_mem_of_forall₂_left (hl before after) hc
    exact forall_checks.mpr fun r hr => neverFaults_of_answers (forall_guards_unionAround.mp hg r hr)
  | intersection form before after =>
    exact Check.intersection_transfers fun c hc =>
      Input.exists_mem_of_forall₂_right (hl before after) hc
  | recordKeys values => exact Check.record_transfers hR h values.check.transfers_refl
  | recordValues keys => exact Check.record_transfers hR keys.check.transfers_refl h
  | objectField before name presence mutability after =>
    have hf : Check.FieldTransfers Eq (Field.map check ⟨name, presence, mutability, s⟩)
        (Field.map check ⟨name, presence, mutability, t⟩) := ⟨rfl, id, h⟩
    exact object_transfers_around hf before after
  | readonly | branded brand | shared => exact h

theorem Context.fill_transfers {context : Context} (hg : ∀ g ∈ (context.fill t).guards, g.Answers)
    (h : s.check.Transfers Eq t.check) :
    (context.fill s).check.Transfers Eq (context.fill t).check := by
  induction context with
  | nil => exact h
  | cons frame context ih => exact Frame.fill_transfers hg (ih (Frame.forall_guards_of_fill hg))

/-! ## Looser schemas -/

/-- The changes that make a schema looser: a required field becomes optional, fields are left out of
an object, alternatives are added to a union, parts are left out of an intersection, and a tuple gets
a rest. -/
inductive Loosens : Schema → Schema → Prop where
  | optional (before : List (Field Schema)) (name : String) (mutability : Mutability)
    (validator : Schema) (after : List (Field Schema)) :
    Loosens (.object (before ++ ⟨name, .required, mutability, validator⟩ :: after))
      (.object (before ++ ⟨name, .optional, mutability, validator⟩ :: after))
  | fewerFields {fields fields' : List (Field Schema)} (h : fields'.Sublist fields) :
    Loosens (.object fields) (.object fields')
  | moreAlternatives (form form' : ListForm) {first first' : Schema} {others others' : List Schema}
    (h : (first :: others).Sublist (first' :: others')) :
    Loosens (.union form first others) (.union form' first' others')
  | fewerParts (form form' : ListForm) {parts parts' : List Schema} (h : parts'.Sublist parts) :
    Loosens (.intersection form parts) (.intersection form' parts')
  | withRest (form form' : ListForm) (elements : List Schema) (rest : Schema) :
    Loosens (.tuple form elements) (.restTuple form' elements rest)

theorem Loosens.transfers (h : s.Loosens t) (hg : ∀ g ∈ t.guards, g.Answers) :
    s.check.Transfers Eq t.check := by
  have hR := Input.isBisimulation_eq
  cases h with
  | optional before name mutability validator after =>
    have hf : Check.FieldTransfers Eq (Field.map check ⟨name, .required, mutability, validator⟩)
        (Field.map check ⟨name, .optional, mutability, validator⟩) :=
      ⟨rfl, fun _ => rfl, validator.check.transfers_refl⟩
    exact object_transfers_around hf before after
  | fewerFields h =>
    refine Check.object_transfers hR fun f' hf' => ?_
    obtain ⟨f, hf, rfl⟩ := mem_fieldChecks.mp hf'
    exact ⟨_, mem_fieldChecks.mpr ⟨f, h.subset hf, rfl⟩, Check.fieldTransfers_refl _⟩
  | moreAlternatives form form' h =>
    rw [forall_guards_union] at hg
    have hf := forall_checks.mpr fun r hr => neverFaults_of_answers (hg r hr)
    refine Check.union_transfers hf fun c (hc : c ∈ checks (_ :: _)) => ?_
    · obtain ⟨r, hr, rfl⟩ := mem_checks.mp hc
      exact ⟨r.check, mem_checks.mpr ⟨r, h.subset hr, rfl⟩, r.check.transfers_refl⟩
  | fewerParts form form' h =>
    refine Check.intersection_transfers fun c hc => ?_
    obtain ⟨r, hr, rfl⟩ := mem_checks.mp hc
    exact ⟨r.check, mem_checks.mpr ⟨r, h.subset hr, rfl⟩, r.check.transfers_refl⟩
  | withRest form form' elements rest => exact Check.tuple_transfers_restTuple rest.check rfl

/-- The inputs that a schema accepts. -/
def accepted (schema : Schema) : Set Input := { x | (schema.check x).verdict = .accepted }

theorem transfers_iff : s.check.Transfers Eq t.check ↔ s.accepted ⊆ t.accepted := by
  constructor
  · intro h x hx
    exact h rfl hx
  · rintro h x _ rfl hx
    exact h hx

/-- A context accepts more with a schema in its hole that accepts more, and the same with one that
accepts the same; so a schema becomes looser by each loosening at any depth. -/
theorem accepted_fill_subset {context : Context} {s t : Schema}
    (hs : ∀ g ∈ (context.fill s).guards, g.Answers)
    (ht : ∀ g ∈ (context.fill t).guards, g.Answers) :
    (s.accepted ⊆ t.accepted → (context.fill s).accepted ⊆ (context.fill t).accepted) ∧
      (s.accepted = t.accepted → (context.fill s).accepted = (context.fill t).accepted) ∧
      (s.Loosens t → (context.fill s).accepted ⊆ (context.fill t).accepted) := by
  have up (h : s.accepted ⊆ t.accepted) : (context.fill s).accepted ⊆ (context.fill t).accepted :=
    transfers_iff.mp (Context.fill_transfers ht (transfers_iff.mpr h))
  have down (h : t.accepted ⊆ s.accepted) : (context.fill t).accepted ⊆ (context.fill s).accepted :=
    transfers_iff.mp (Context.fill_transfers hs (transfers_iff.mpr h))
  refine ⟨up, fun h => ?_, fun h => ?_⟩
  · exact Set.Subset.antisymm (up h.subset) (down h.superset)
  · exact up (transfers_iff.mp (h.transfers (Context.forall_guards_of_fill ht)))

/-- Records of lists, each element of which is null or what is filled in. -/
def lists : Context := [.recordValues (.scalar .string), .array, .union .written [.scalar .null] []]

/-- Objects with an even number, which may be missing if the key is optional. -/
def evenUnder (presence : Presence) : Schema :=
  .object [⟨"n", presence, .mutable, .guard ⟨.number, none, .onValue Predicate.even.answer⟩⟩]

theorem accepted_fill_subset_evenUnder :
    (∀ presence, ∀ g ∈ (lists.fill (evenUnder presence)).guards, g.Answers) ∧
      (lists.fill (evenUnder .required)).accepted ⊆ (lists.fill (evenUnder .optional)).accepted ∧
      Input.present (.object [("k", .array [.null, .object [("n", .ofNat 2)]])]) ∈
        (lists.fill (evenUnder .optional)).accepted ∧
      Input.present (.object [("k", .array [.object []])]) ∉
        (lists.fill (evenUnder .required)).accepted := by
  have hg : ∀ presence, ∀ g ∈ (lists.fill (evenUnder presence)).guards, g.Answers := by
    intro presence g hg
    obtain rfl := List.mem_singleton.mp hg
    exact fun v => ⟨_, rfl⟩
  have hl : (evenUnder .required).Loosens (evenUnder .optional) := .optional [] _ _ _ []
  have h := (accepted_fill_subset (hg .required) (hg .optional)).2.2 hl
  exact ⟨hg, h, h rfl, nofun⟩

end Schema

end JsonValidation
