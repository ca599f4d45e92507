import JsonValidation.Failure.Text
import JsonValidation.Report

/-!
# Reports of failures

A failure is flattened into a report: one issue for each leaf of its tree, in order. Steps to parts
become the location of the issue, a rejected key becomes the start of its message, and a union
contributes the issues of all its alternatives.

* `Failure.issue`: the issue of one leaf;
* `Failure.report`: the issues of a failure.
-/

namespace JsonValidation

namespace Failure

/-- What was found where a leaf failed. -/
def gotNote : Failure → Option String
  | .mismatch _ got => some got.kindName
  | .notUndefined got => some got.kind.name
  | .invalidValue got => some got.text
  | .lengthNotEqual got => some (itemsText got)
  | .lengthTooShort got => some (itemsText got)
  | _ => none

/-- What was expected where a leaf failed. -/
def expectedNote : Failure → Option String
  | .mismatch expected _ => some expected.name
  | .notUndefined _ => some "undefined"
  | .notFound _ => some "value"
  | _ => none

/-- The issue of a leaf at a location. -/
def issue (failure : Failure) (location : Location) : Issue :=
  ⟨location, failure.text, failure.gotNote, failure.expectedNote, failure.code⟩

/-- Marks an issue as one about a key. -/
def aboutKey (issue : Issue) : Issue :=
  { issue with message := "invalid key: " ++ issue.message }

mutual

/-- The issues of a failure of the part at a location. -/
def reportAt (location : Location) : Failure → Report
  | .invalidElement segment inner => inner.reportAt (location.push segment)
  | .invalidKey inner =>
    .gather ((inner.reportAt location).toList.map aboutKey) fun _ =>
      (invalidKey inner).issue location
  | .notUnion alternatives =>
    .gather (issuesAt location alternatives) fun _ => (notUnion alternatives).issue location
  | .notFound name => .single ((notFound name).issue (location.push (.field name)))
  | failure => .single (failure.issue location)

/-- The issues of failures of the part at a location. -/
def issuesAt (location : Location) : List Failure → List Issue
  | [] => []
  | failure :: rest => (failure.reportAt location).toList ++ issuesAt location rest

end

/-- The issues of a failure. -/
def report (failure : Failure) : Report := failure.reportAt .root

theorem issuesAt_eq_flatMap {location : Location} {failures : List Failure} :
    issuesAt location failures =
      failures.flatMap fun failure => (failure.reportAt location).toList := by
  induction failures with
  | nil => rfl
  | cons failure rest ih => rw [issuesAt, ih, List.flatMap_cons]

theorem issuesAt_eq_nil_iff {location : Location} {failures : List Failure} :
    issuesAt location failures = [] ↔ failures = [] := by
  cases failures with
  | nil => exact iff_of_true rfl rfl
  | cons failure rest =>
    have hne := List.append_ne_nil_of_left_ne_nil (failure.reportAt location).toList_ne_nil
      (issuesAt location rest)
    exact iff_of_false hne (List.cons_ne_nil failure rest)

/-- A rejected key has the issues of its own failure, which are never none. -/
theorem toList_reportAt_invalidKey (location : Location) (inner : Failure) :
    ((invalidKey inner).reportAt location).toList =
      (inner.reportAt location).toList.map aboutKey := by
  refine Report.toList_gather (fun h => ?_) _
  exact (inner.reportAt location).toList_ne_nil (List.map_eq_nil_iff.mp h)

/-- A union without an alternative would be a leaf; any other reports what its alternatives do. -/
theorem toList_reportAt_notUnion {location : Location} {alternatives : List Failure}
    (h : alternatives ≠ []) :
    ((notUnion alternatives).reportAt location).toList = issuesAt location alternatives :=
  Report.toList_gather (mt issuesAt_eq_nil_iff.mp h) _

end Failure

end JsonValidation
