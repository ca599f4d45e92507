import JsonValidation.Failure.Report
import JsonValidation.Proofs.Matching
import JsonValidation.Proofs.Rewriting

/-!
# Flattening unions and intersections

A union among the alternatives of a union can be replaced by its own alternatives, and an
intersection among the parts of an intersection by its own parts. The first changes the failure of
the whole, which keeps a list for each union, but not the report, in which the lists stand one after
the other. The second changes nothing at all.

* `Failure.ReportsAlike`: failures with the same issues, wherever they happened;
* `Run.firstAccepted_flatMap_matches`: unions inside a union, and all their alternatives in a row;
* `Schema.flat`, `Schema.flatIntersections`: schemas that are flattened at every depth;
* `Schema.check_flat`: what stays the same.
-/

namespace JsonValidation

/-! ## Reports of unions -/

namespace Failure

variable {ps qs : List Failure} {location : Location}

theorem issuesAt_append :
    issuesAt location (ps ++ qs) = issuesAt location ps ++ issuesAt location qs := by
  simp only [issuesAt_eq_flatMap, List.flatMap_append]

/-- Whether two failures have the same issues, wherever they happened. -/
def ReportsAlike (p q : Failure) : Prop := ∀ location, p.reportAt location = q.reportAt location

theorem reportsAlike_notUnion (h : ∀ location, issuesAt location ps = issuesAt location qs) :
    (notUnion ps).ReportsAlike (notUnion qs) := by
  intro location
  by_cases hp : ps = []
  · have hq : issuesAt .root qs = [] := by rw [← h, hp, issuesAt]
    rw [hp, issuesAt_eq_nil_iff.mp hq]
  · have hq : qs ≠ [] := by
      rintro rfl
      exact hp (issuesAt_eq_nil_iff.mp (h .root))
    refine Report.toList_injective ?_
    rw [toList_reportAt_notUnion hp, toList_reportAt_notUnion hq, h]

theorem reportsAlike_singleton (p : Failure) : p.ReportsAlike (notUnion [p]) := by
  intro location
  refine Report.toList_injective ?_
  rw [toList_reportAt_notUnion (List.cons_ne_nil p []), issuesAt, issuesAt, List.append_nil]

theorem isCongruence_reportsAlike : IsCongruence Eq ReportsAlike where
  mismatch kind h _ := by rw [h]
  notUndefined h _ := by cases h; rfl
  notFound name _ := rfl
  invalidValue h _ := by rw [h]
  lengthNotEqual h _ := by cases h; rfl
  lengthTooShort h _ := by cases h; rfl
  notUnion {ps qs} h := by
    refine reportsAlike_notUnion fun location => ?_
    induction h with
    | nil => rfl
    | cons hpq _ ih => rw [issuesAt, issuesAt, hpq, ih]
  invalidKey h location := by
    refine Report.toList_injective ?_
    rw [toList_reportAt_invalidKey, toList_reportAt_invalidKey, h]
  invalidElement segment h location := by rw [reportAt, reportAt, h]

end Failure

/-! ## Runs of unions -/

/-- A single step, and the union of it alone. -/
theorem Run.firstAccepted_singleton_matches {α : Type} (step : α → Run) (a : α) :
    (step a).Matches Eq Failure.ReportsAlike (firstAccepted step [] [a]) := by
  by_cases h : ∃ p, (step a).verdict = .rejected p
  · obtain ⟨p, hp⟩ := h
    rw [firstAccepted_cons_of_rejected hp, matches_eq_iff, hp]
    exact ⟨(List.append_nil _).symm, .rejected p.reportsAlike_singleton⟩
  · rw [firstAccepted_cons_of_decided (not_exists.mp h)]
    exact matches_refl (fun _ _ => rfl) _

/-- Steps each of which is a run of further steps, of which one has to accept, and all these further
steps in a row. -/
theorem Run.firstAccepted_flatMap_matches {α β : Type} {step : α → Run} {inner : β → Run}
    {f : α → List β} {members : List α} (hf : ∀ a ∈ members, f a ≠ [])
    (h : ∀ a ∈ members, (step a).Matches Eq Failure.ReportsAlike (firstAccepted inner [] (f a)))
    {earlier earlier' : List Failure}
    (he : ∀ location, Failure.issuesAt location earlier = Failure.issuesAt location earlier') :
    (firstAccepted step earlier members).Matches Eq Failure.ReportsAlike
      (firstAccepted inner earlier' (members.flatMap f)) := by
  induction members generalizing earlier earlier' with
  | nil => exact matches_reject (Failure.reportsAlike_notUnion he)
  | cons a rest ih =>
    obtain ⟨hfa, hf⟩ := List.forall_mem_cons.mp hf
    obtain ⟨ha, h⟩ := List.forall_mem_cons.mp h
    rw [List.flatMap_cons]
    rcases all_rejected_or_decided inner (f a) with
      ⟨failures, hr⟩ | ⟨before, decider, after, e, hb, hd⟩
    · have hne : failures ≠ [] := by
        rintro rfl
        exact hfa (List.map_eq_nil_iff.mp hr)
      rw [firstAccepted_of_rejected hr, List.nil_append] at ha
      obtain ⟨p, hp, hpq⟩ := ha.verdict.exists_left
      rw [firstAccepted_cons_of_rejected hp, firstAccepted_append_of_rejected hr]
      refine (ih hf h fun location => ?_).precededBy ha.calls
      have hp : Failure.issuesAt location [p] = Failure.issuesAt location failures := by
        rw [← Failure.toList_reportAt_notUnion hne, ← hpq location, Failure.issuesAt,
          Failure.issuesAt, List.append_nil]
      rw [Failure.issuesAt_append, Failure.issuesAt_append, he, hp]
    · -- Nothing after the decider is tried, neither among its own siblings nor among the others.
      rw [e, firstAccepted_of_decided hb hd] at ha
      have hs : ∀ failure, (step a).verdict ≠ .rejected failure := by
        intro failure hp
        obtain ⟨q, hq, -⟩ := (hp ▸ ha.verdict).exists_right
        exact hd q hq
      rw [e, List.append_assoc, List.cons_append, firstAccepted_of_decided hb hd,
        firstAccepted_cons_of_decided hs]
      exact ha

namespace Schema

/-! ## Merging -/

/-- The two ways in which several schemas of one input are combined. -/
inductive Combination where
  | union
  | intersection
deriving DecidableEq

/-- Whether a schema is a combination of a kind. -/
def IsCombination : Combination → Schema → Prop
  | .union, .union _ _ _ => True
  | .intersection, .intersection _ _ => True
  | _, _ => False

/-- The members of a combination; a schema that is no combination of the kind is its own only
member. -/
def members : Combination → Schema → List Schema
  | .union, .union _ first others => first :: others
  | .intersection, .intersection _ parts => parts
  | _, schema => [schema]

/-- A combination in which its members that are combinations of the same kind are replaced, in their
place, by their own members. -/
def merged : Combination → Schema → Schema
  | .union, .union form (.union _ first inner) others =>
    .union form first (inner ++ others.flatMap (members .union))
  | .union, .union form first others => .union form first (others.flatMap (members .union))
  | .intersection, .intersection form parts =>
    .intersection form (parts.flatMap (members .intersection))
  | _, schema => schema

/-- A schema with its unions and intersections merged at every depth, from the inside out. -/
def flat : Schema → Schema := rewrite fun schema => (schema.merged .union).merged .intersection

/-- A schema with its intersections merged at every depth, from the inside out. -/
def flatIntersections : Schema → Schema := rewrite (merged .intersection)

/-- Whether a schema is no combination of a kind with another one directly in it. -/
def IsFlat (kind : Combination) (schema : Schema) : Prop :=
  schema.IsCombination kind → ∀ part ∈ schema.parts, ¬ part.IsCombination kind

variable {kind other : Combination} {schema part : Schema}

theorem members_of_isCombination (h : schema.IsCombination kind) :
    schema.members kind = schema.parts := by
  cases kind <;> cases schema <;> first | rfl | cases h

theorem members_of_not_isCombination (h : ¬ schema.IsCombination kind) :
    schema.members kind = [schema] := by
  cases kind <;> cases schema <;> first | rfl | exact absurd trivial h

theorem merged_of_not_isCombination (h : ¬ schema.IsCombination kind) :
    schema.merged kind = schema := by
  cases kind <;> cases schema <;> first | rfl | exact absurd trivial h

theorem merged_union (form : ListForm) (first : Schema) (others : List Schema) :
    ∃ first' others', (union form first others).merged .union = .union form first' others' ∧
      first' :: others' = (first :: others).flatMap (members .union) := by
  cases first <;> exact ⟨_, _, rfl, rfl⟩

theorem parts_merged (h : schema.IsCombination kind) :
    (schema.merged kind).parts = schema.parts.flatMap (members kind) := by
  cases kind with
  | union => cases schema with
    | union form first others =>
      obtain ⟨first', others', he, hm⟩ := merged_union form first others
      rw [he]
      exact hm
    | _ => cases h
  | intersection => cases schema with
    | intersection form parts => rfl
    | _ => cases h

theorem isCombination_merged :
    (schema.merged kind).IsCombination other ↔ schema.IsCombination other := by
  cases kind with
  | union => cases schema with
    | union form first others =>
      obtain ⟨first', others', he, -⟩ := merged_union form first others
      rw [he]
      cases other <;> exact Iff.rfl
    | _ => exact Iff.rfl
  | intersection => cases schema <;> cases other <;> exact Iff.rfl

theorem mem_parts_of_mem_members (h : part ∈ schema.members kind) :
    part = schema ∨ part ∈ schema.parts := by
  by_cases hc : schema.IsCombination kind
  · exact .inr (members_of_isCombination hc ▸ h)
  · rw [members_of_not_isCombination hc] at h
    exact .inl (List.mem_singleton.mp h)

/-! ## Nothing is left to merge -/

/-- What is true of everything inside the parts of a schema stays true when it is merged. -/
theorem forall_parts_merged (kind : Combination) {P : Schema → Prop}
    (h : ∀ part ∈ schema.parts, ∀ s, Inside s part → P s) :
    ∀ part ∈ (schema.merged kind).parts, ∀ s, Inside s part → P s := by
  by_cases hc : schema.IsCombination kind
  · intro t ht s hs
    rw [parts_merged hc] at ht
    obtain ⟨part, hp, ht⟩ := List.mem_flatMap.mp ht
    rcases mem_parts_of_mem_members ht with rfl | ht
    · exact h _ hp s hs
    · exact h part hp s (.part ht hs)
  · rw [merged_of_not_isCombination hc]
    exact h

/-- A merged combination of flat members is flat. -/
theorem isFlat_merged (h : ∀ part ∈ schema.parts, part.IsFlat kind) :
    (schema.merged kind).IsFlat kind := by
  intro hc t ht
  rw [isCombination_merged] at hc
  rw [parts_merged hc] at ht
  obtain ⟨part, hp, ht⟩ := List.mem_flatMap.mp ht
  by_cases hcp : part.IsCombination kind
  · exact h part hp hcp t (members_of_isCombination hcp ▸ ht)
  · rw [members_of_not_isCombination hcp, List.mem_singleton] at ht
    exact ht ▸ hcp

/-- No schema is a combination of both kinds. -/
theorem kind_eq_of_isCombination (h : schema.IsCombination kind) (h' : schema.IsCombination other) :
    kind = other := by
  cases schema <;> cases kind <;> cases other <;>
    first | rfl | exact False.elim h | exact False.elim h'

theorem IsFlat.merged (h : schema.IsFlat other) (hne : kind ≠ other) :
    (schema.merged kind).IsFlat other := by
  by_cases hc : schema.IsCombination kind
  · intro ho
    exact absurd (kind_eq_of_isCombination hc (isCombination_merged.mp ho)) hne
  · rwa [merged_of_not_isCombination hc]

theorem isFlat_of_inside_flat (schema : Schema) :
    ∀ s, Inside s schema.flat → ∀ kind, s.IsFlat kind := by
  refine forall_inside_rewrite (fun schema hp => ?_) schema
  have hu := forall_parts_merged .union hp
  refine forall_inside_of_parts (fun kind => ?_) (forall_parts_merged .intersection hu)
  cases kind with
  | union =>
    have h := isFlat_merged fun part hm => hp part hm part .self .union
    exact h.merged nofun
  | intersection => exact isFlat_merged fun part hm => hu part hm part .self .intersection

theorem isFlat_of_inside_flatIntersections (schema : Schema) :
    ∀ s, Inside s schema.flatIntersections → s.IsFlat .intersection := by
  refine forall_inside_rewrite (fun schema hp => ?_) schema
  refine forall_inside_of_parts ?_ (forall_parts_merged .intersection hp)
  exact isFlat_merged fun part hm => hp part hm part .self

/-! ## Merging keeps the check, up to reports -/

/-- The run of the members of a combination. -/
def Combination.run : Combination → List Schema → Input → Run
  | .union, schemas, x => Run.firstAccepted (fun s => s.check x) [] schemas
  | .intersection, schemas, x => Run.forEach (fun s => s.check x) schemas

theorem check_of_isCombination (h : schema.IsCombination kind) (x : Input) :
    schema.check x = kind.run schema.parts x := by
  cases kind with
  | union => cases schema with
    | union form first others =>
      rw [check, Check.union_eq]
      show Run.firstAccepted _ [] (checks (first :: others)) = _
      rw [checks_eq_map, Run.firstAccepted_map]
      rfl
    | _ => cases h
  | intersection => cases schema with
    | intersection form parts =>
      rw [check, Check.intersection_eq, checks_eq_map, Run.forEach_map]
      rfl
    | _ => cases h

theorem check_merged_intersection (schema : Schema) :
    (schema.merged .intersection).check = schema.check := by
  by_cases hc : schema.IsCombination .intersection
  · funext x
    have hm (s : Schema) :
        Run.forEach (fun s => s.check x) (s.members .intersection) = s.check x := by
      by_cases hs : s.IsCombination .intersection
      · rw [members_of_isCombination hs, check_of_isCombination hs, Combination.run]
      · rw [members_of_not_isCombination hs, Run.forEach, Run.forEach, Run.andThen_accept]
    rw [check_of_isCombination (isCombination_merged.mpr hc), check_of_isCombination hc,
      parts_merged hc, Combination.run, Run.forEach_flatMap, Combination.run]
    exact Run.forEach_congr fun s _ => hm s
  · rw [merged_of_not_isCombination hc]

theorem members_union_ne_nil (schema : Schema) : schema.members .union ≠ [] := by
  cases schema <;> exact List.cons_ne_nil _ _

/-- A schema and the union of its members are reported alike. -/
theorem matches_members_union (schema : Schema) (x : Input) :
    (schema.check x).Matches Eq Failure.ReportsAlike
      (Combination.union.run (schema.members .union) x) := by
  by_cases hc : schema.IsCombination .union
  · rw [members_of_isCombination hc, check_of_isCombination hc]
    exact Run.matches_refl (fun _ _ => rfl) _
  · rw [members_of_not_isCombination hc]
    exact Run.firstAccepted_singleton_matches (fun s => s.check x) schema

theorem matches_merged_union (schema : Schema) :
    schema.check.Matches Eq Failure.ReportsAlike (schema.merged .union).check := by
  intro x y hxy
  cases hxy
  by_cases hc : schema.IsCombination .union
  · rw [check_of_isCombination hc, check_of_isCombination (isCombination_merged.mpr hc),
      parts_merged hc]
    exact Run.firstAccepted_flatMap_matches (fun s _ => s.members_union_ne_nil)
      (fun s _ => s.matches_members_union x) fun _ => rfl
  · rw [merged_of_not_isCombination hc]
    exact Run.matches_refl (fun _ _ => rfl) _

/-! ## Rewriting up to a relation of failures -/

section Rewriting

variable {F : Failure → Failure → Prop} (hF : Failure.IsCongruence Eq F)
  (ht : ∀ p q r, F p q → F q r → F p r) {f : Schema → Schema}

theorem forall₂_checks_rewriteAll {schemas : List Schema}
    (h : ∀ s ∈ schemas, s.check.Matches Eq F (s.rewrite f).check) :
    List.Forall₂ (Check.Matches Eq F) (checks schemas) (checks (rewriteAll f schemas)) := by
  rw [rewriteAll_eq_map, checks_eq_map, checks_eq_map, List.map_map]
  exact List.forall₂_map_left_iff.mpr (List.forall₂_map_right_iff.mpr (List.forall₂_same.mpr h))

theorem forall₂_fieldChecks_rewriteFields {fields : List (Field Schema)}
    (h : ∀ field ∈ fields, field.validator.check.Matches Eq F (field.validator.rewrite f).check) :
    List.Forall₂ (Check.FieldMatches Eq F) (fieldChecks fields)
      (fieldChecks (rewriteFields f fields)) := by
  rw [rewriteFields_eq_map, fieldChecks_eq_map, fieldChecks_eq_map, List.map_map]
  exact List.forall₂_map_left_iff.mpr (List.forall₂_map_right_iff.mpr
    (List.forall₂_same.mpr fun field hm => ⟨rfl, rfl, h field hm⟩))

include hF ht

/-- A rewriting that keeps the check of each schema to which it is applied, up to a relation of
failures, keeps the check of the whole up to it. -/
theorem matches_rewrite (hf : ∀ s : Schema, s.check.Matches Eq F (f s).check)
    (schema : Schema) : schema.check.Matches Eq F (schema.rewrite f).check := by
  have hR := Input.isBisimulation_eq
  -- The parts are rewritten first, and then the schema that is put together from them.
  have step {schema inner : Schema} (h : Check.Matches Eq F schema.check inner.check) :
      Check.Matches Eq F schema.check (f inner).check := h.trans ht (hf inner)
  induction schema with
  | scalar | undefined | literal | guard => exact hf _
  | array items ih => exact step (Check.array_matches hR hF ih)
  | tuple form elements ih => exact step (Check.tuple_matches hR hF (forall₂_checks_rewriteAll ih))
  | restTuple form leading rest ih ihRest =>
    exact step (Check.restTuple_matches hR hF (forall₂_checks_rewriteAll ih) ihRest)
  | union form first others ih =>
    exact step (Check.union_matches hF (forall₂_checks_rewriteAll ih))
  | intersection form parts ih =>
    exact step (Check.intersection_matches (forall₂_checks_rewriteAll ih))
  | record keys values ihKeys ihValues => exact step (Check.record_matches hF ihKeys ihValues)
  | object fields ih =>
    exact step (Check.object_matches hR hF (forall₂_fieldChecks_rewriteFields ih))
  | readonly inner ih | branded brand inner ih | shared inner ih => exact step ih

end Rewriting

/-- A flat schema makes the same calls, ends in the same way and reports the same issues. -/
theorem matches_flat (schema : Schema) :
    schema.check.Matches Eq Failure.ReportsAlike schema.flat.check := by
  refine matches_rewrite Failure.isCongruence_reportsAlike (fun p q r hpq hqr location => ?_)
    (fun schema => ?_) schema
  · exact (hpq location).trans (hqr location)
  · rw [check_merged_intersection]
    exact schema.matches_merged_union

/-- Flattening leaves no union directly in a union and no intersection directly in an intersection, at
any depth, and makes no difference but in the failure itself: the calls, the verdict up to the
failure, and the issues reported stay the same. Where only intersections are flattened, the failure
stays the same, too. -/
theorem check_flat (schema : Schema) :
    (∀ s, Inside s schema.flat → ∀ kind, s.IsFlat kind) ∧
    (∀ x, (schema.check x).calls = (schema.flat.check x).calls ∧
      (schema.check x).verdict.Matches (fun p q => p.report = q.report)
        (schema.flat.check x).verdict) ∧
    (∀ s, Inside s schema.flatIntersections → s.IsFlat .intersection) ∧
    ∀ x, schema.flatIntersections.check x = schema.check x := by
  refine ⟨isFlat_of_inside_flat schema, fun x => ?_,
    isFlat_of_inside_flatIntersections schema, fun x => ?_⟩
  · obtain ⟨hc, hv⟩ := Run.matches_eq_iff.mp (schema.matches_flat (Eq.refl x))
    exact ⟨hc, hv.mono fun p q h => h .root⟩
  · rw [flatIntersections, check_rewrite check_merged_intersection]

/-- Lists of nulls, strings and numbers, with a union and an intersection more than they need. -/
def nestedItems : Schema :=
  .array (.union .written (.union .written (.scalar .null) [.scalar .string])
    [.intersection .written [.intersection .written [], .scalar .number]])

theorem check_flat_nestedItems :
    nestedItems.flat = .array (.union .written (.scalar .null)
      [.scalar .string, .intersection .written [.scalar .number]]) ∧
    ∃ p q, (nestedItems.check (.present (.array [.boolean true]))).verdict = .rejected p ∧
      (nestedItems.flat.check (.present (.array [.boolean true]))).verdict = .rejected q ∧
      p.equal q = false ∧ p.report = q.report := by
  obtain ⟨q, hq, h⟩ :=
    ((check_flat nestedItems).2.1 (.present (.array [.boolean true]))).2.exists_right
  exact ⟨rfl, _, q, rfl, hq, by cases hq; decide, h⟩

end Schema

end JsonValidation
