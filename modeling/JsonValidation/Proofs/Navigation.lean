import JsonValidation.Proofs.Leaves
import JsonValidation.Proofs.Rejections

/-!
# Ways down a failure

A failure can be followed in three ways, which stop at different failures: its location stops at keys
and unions, its leaf at unions only, and its report at neither. Of any failure the location is where
all its issues start from. In a failure without unions that a check reported, all three end at the
same failure, because what is below a rejected key is about a string, and a string has no parts.

* `Failure.IsUnionFree`: failures without unions;
* `Failure.HasOneIssue`: failures of which all three ways lead to the same leaf;
* `Failure.navigations_agree`: which failures do.
-/

namespace JsonValidation

namespace Failure

/-! ## Leaves -/

theorem leaf_ne_invalidKey (p inner : Failure) : p.leaf ≠ .invalidKey inner := by
  induction p with
  | invalidKey _ ih => exact ih
  | invalidElement _ _ ih => exact ih
  | _ => exact Failure.noConfusion

theorem leaf_ne_invalidElement (p : Failure) (segment : Segment) (inner : Failure) :
    p.leaf ≠ .invalidElement segment inner := by
  induction p with
  | invalidKey _ ih => exact ih
  | invalidElement _ _ ih => exact ih
  | _ => exact Failure.noConfusion

theorem leaf_leaf (p : Failure) : p.leaf.leaf = p.leaf := by
  induction p with
  | invalidKey _ ih => exact ih
  | invalidElement _ _ ih => exact ih
  | _ => rfl

/-- The message of a failure ends with that of its leaf. -/
theorem exists_text_eq (p : Failure) : ∃ start, p.text = start ++ p.leaf.text := by
  have hwrap (front : String) {inner : Failure} (h : ∃ start, inner.text = start ++ inner.leaf.text) :
      ∃ start, front ++ inner.text = start ++ inner.leaf.text := by
    obtain ⟨start, h⟩ := h
    exact ⟨front ++ start, by rw [h, String.append_assoc]⟩
  induction p with
  | invalidKey inner ih => exact hwrap "invalid key: " ih
  | invalidElement segment inner ih => exact hwrap ("at " ++ segment.text ++ ": ") ih
  | _ => exact ⟨"", String.empty_append.symm⟩

/-! ## Locations -/

/-- All issues are located at the location of the failure or further in. -/
theorem location_prefix {p : Failure} {issue : Issue} (h : issue ∈ p.report.toList) :
    p.location.segments <+: issue.location.segments := by
  induction p generalizing issue with
  | invalidElement segment inner ih =>
    rw [toList_report_invalidElement] at h
    obtain ⟨origin, ho, rfl⟩ := List.mem_map.mp h
    exact (List.prefix_cons_inj segment).mpr (ih ho)
  | notFound name =>
    obtain rfl := List.mem_singleton.mp h
    exact List.prefix_rfl
  | _ => exact List.nil_prefix

/-- A string has no parts for a failure to be located at. -/
theorem Arises.steps_of_string {p : Failure} {s : String} (h : p.Arises (.present (.string s))) :
    p.steps = [] := by
  cases h <;> rfl

/-! ## Failures without unions -/

/-- Whether there is no union anywhere in a failure. -/
def IsUnionFree (p : Failure) : Prop := ∀ route alternatives, ¬ p.Leads route (.notUnion alternatives)

theorem IsUnionFree.of_invalidKey {inner : Failure} (h : (invalidKey inner).IsUnionFree) :
    inner.IsUnionFree :=
  fun _ alternatives leads => h _ alternatives (.key leads)

theorem IsUnionFree.of_invalidElement {segment : Segment} {inner : Failure}
    (h : (invalidElement segment inner).IsUnionFree) : inner.IsUnionFree :=
  fun _ alternatives leads => h _ alternatives (.element leads)

/-- Whether a failure has a single issue, which is at its location and has the code of its leaf. -/
def HasOneIssue (p : Failure) : Prop :=
  ∃ issue, p.report.toList = [issue] ∧ issue.location = p.location ∧ issue.code = p.leaf.code

theorem HasOneIssue.invalidElement {inner : Failure} (segment : Segment) (h : inner.HasOneIssue) :
    (invalidElement segment inner).HasOneIssue := by
  obtain ⟨issue, hreport, hlocation, hcode⟩ := h
  refine ⟨issue.under [segment], ?_, ?_, hcode⟩
  · rw [toList_report_invalidElement, hreport]
    rfl
  · show (⟨segment :: issue.location.segments⟩ : Location) = ⟨segment :: inner.steps⟩
    rw [hlocation]
    rfl

/-- A failure without unions that can be reported for an input has a single issue. -/
theorem Arises.hasOneIssue {p : Failure} {x : Input} (h : p.Arises x) (hfree : p.IsUnionFree) :
    p.HasOneIssue := by
  induction h with
  | mismatch | notUndefined | notFound | invalidValue | lengthNotEqual | lengthTooShort =>
    exact ⟨_, rfl, rfl, rfl⟩
  | notUnion => exact absurd (.here _) (hfree [] _)
  | key _ arises ih =>
    obtain ⟨issue, hreport, hlocation, hcode⟩ := ih hfree.of_invalidKey
    refine ⟨aboutKey issue, ?_, ?_, hcode⟩
    · rw [toList_report_invalidKey, hreport]
      rfl
    · -- The location of the issue goes on below the key, but a string has no parts to go on to.
      show issue.location = ⟨[]⟩
      rw [hlocation, location, arises.steps_of_string]
  | element _ _ ih => exact (ih hfree.of_invalidElement).invalidElement _
  | entry _ _ ih => exact (ih hfree.of_invalidElement).invalidElement _

/-- The location of a failure starts the locations of all its issues, and is the location of the only
one if a check reported the failure and there is no union in it. The leaf is inside all wrappers, and
its message ends that of the failure. -/
theorem navigations_agree (p : Failure) :
    (∀ issue ∈ p.report.toList, p.location.segments <+: issue.location.segments) ∧
      (∀ (schema : Schema) (x : Input), (schema.check x).verdict = .rejected p → p.IsUnionFree →
        p.HasOneIssue) ∧
      (∀ inner, p.leaf ≠ .invalidKey inner) ∧
      (∀ segment inner, p.leaf ≠ .invalidElement segment inner) ∧
      p.leaf.leaf = p.leaf ∧ ∃ start, p.text = start ++ p.leaf.text := by
  refine ⟨fun issue h => location_prefix h, ?_, p.leaf_ne_invalidKey, p.leaf_ne_invalidElement,
    p.leaf_leaf, p.exists_text_eq⟩
  intro schema x hrejected hfree
  exact (Schema.arises_of_rejected hrejected).hasOneIssue hfree

end Failure

/-- Lists of objects that hold nothing but an object with an id, under the key `k`. -/
def Schema.idsUnderK : Schema :=
  .array (.record (.literal (.value (.string "k"))) (.object [⟨"id", .required, .mutable, .any⟩]))

/-- A rejected key and a missing field. -/
theorem Failure.navigations_agree_idsUnderK :
    (∃ p, (Schema.idsUnderK.check (.present (.array [.object [("a", .null)]]))).verdict =
        .rejected p ∧ p.location = ⟨[.index 0]⟩ ∧ p.HasOneIssue) ∧
      ∃ p, (Schema.idsUnderK.check (.present (.array [.object [("k", .object [])]]))).verdict =
        .rejected p ∧ p.location = ⟨[.index 0, .field "k", .field "id"]⟩ ∧ p.HasOneIssue := by
  constructor
  · have h : (Schema.idsUnderK.check (.present (.array [.object [("a", .null)]]))).verdict =
        .rejected (.invalidElement (.index 0)
          (.invalidKey (.invalidValue (.present (.string "a"))))) := rfl
    refine ⟨_, h, rfl, (navigations_agree _).2.1 _ _ h ?_⟩
    intro route alternatives leads
    cases leads with
    | element leads => cases leads with
      | key leads => cases leads
  · have h : (Schema.idsUnderK.check (.present (.array [.object [("k", .object [])]]))).verdict =
        .rejected (.invalidElement (.index 0) (.invalidElement (.field "k") (.notFound "id"))) := rfl
    refine ⟨_, h, rfl, (navigations_agree _).2.1 _ _ h ?_⟩
    intro route alternatives leads
    cases leads with
    | element leads => cases leads with
      | element leads => cases leads

end JsonValidation
