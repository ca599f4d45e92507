import JsonValidation.Location

/-!
# Issues and reports

An issue is one located reason why a value was rejected, and a report is a list of issues that is
never empty. Its representation as a first issue and the others leaves no empty report to exclude.

* `Report.toList`: the issues in order, through which every operation is described;
* `Report.ofList?`, `Report.combine`: a report of the issues of a list, and of two reports;
* `Report.gather`: a report of the issues of a list that may be empty;
* `Issue.text`, `Report.text`: one line per issue, under a line that counts them.
-/

namespace JsonValidation

/-- One located reason for a rejection. -/
structure Issue where
  location : Location
  message : String
  got : Option String := none
  expected : Option String := none
  code : String := "validation_error"
deriving DecidableEq

namespace Issue

/-- A part of an issue in parentheses, if the issue has it. -/
def noteText (label : String) : Option String → String
  | none => ""
  | some note => " (" ++ label ++ ": " ++ note ++ ")"

/-- The line of an issue: where, why, and what was expected and found there. -/
def text (issue : Issue) : String :=
  (if issue.location.isRoot then "(root)" else issue.location.text) ++ ": " ++ issue.message ++
    noteText "expected" issue.expected ++ noteText "got" issue.got

/-- The developer text of an issue. -/
def inspect (issue : Issue) : String :=
  Inspect.parts "SchemaError" [
    Inspect.field "path" issue.location.inspect,
    Inspect.field "message" (Inspect.quoted issue.message),
    Inspect.field "got" (Inspect.option (issue.got.map Inspect.quoted)),
    Inspect.field "expected" (Inspect.option (issue.expected.map Inspect.quoted)),
    Inspect.field "code" (Inspect.quoted issue.code)]

end Issue

/-- A list of issues that is not empty. -/
structure Report where
  first : Issue
  rest : List Issue
deriving DecidableEq

namespace Report

/-- The report of one issue. -/
def single (issue : Issue) : Report := ⟨issue, []⟩

/-- The issues in order. -/
def toList (report : Report) : List Issue := report.first :: report.rest

/-- The issues of two reports, one after the other. -/
def combine (a b : Report) : Report := ⟨a.first, a.rest ++ b.toList⟩

/-- The report of the issues of a list, if there are any: the reports of the single issues, combined
from the first on. -/
def ofList? (issues : List Issue) : Option Report :=
  match issues.map single with
  | [] => none
  | first :: rest => some (rest.foldl combine first)

/-- The report of the issues of a list, or of another issue if there are none. -/
def gather (issues : List Issue) (fallback : Unit → Issue) : Report :=
  (ofList? issues).getD (single (fallback ()))

/-- The number of issues. -/
def length (report : Report) : Nat := report.toList.length

/-- Whether there are no issues, which is never so. -/
def isEmpty (report : Report) : Bool := report.toList.isEmpty

/-- The issues at a location. -/
def atLocation (report : Report) (location : Location) : List Issue :=
  report.toList.filter (·.location = location)

/-- The issues with a code. -/
def withCode (report : Report) (code : String) : List Issue :=
  report.toList.filter (·.code = code)

/-- The line of the issue that comes at a place of a report. -/
def lineText (issue : Issue) (place : Nat) : String :=
  "  " ++ place.repr ++ ". " ++ issue.text ++ "\n"

/-- The text of a report: a line with the number of issues, then the issues, numbered from one. -/
def text (report : Report) : String :=
  "rejected with " ++ report.length.repr ++ " error(s):\n" ++
    String.join ((report.toList.zipIdx 1).map fun (issue, place) => lineText issue place)

@[simp] theorem toList_single (issue : Issue) : (single issue).toList = [issue] := rfl

@[simp] theorem toList_combine (a b : Report) : (a.combine b).toList = a.toList ++ b.toList := rfl

@[simp] theorem isEmpty_eq_false (report : Report) : report.isEmpty = false := rfl

theorem toList_ne_nil (report : Report) : report.toList ≠ [] := List.cons_ne_nil _ _

theorem toList_injective {a b : Report} (h : a.toList = b.toList) : a = b := by
  cases a
  cases b
  simpa [toList] using h

/-- Combining from the left keeps the issues in their order. -/
theorem toList_foldl_combine (first : Report) (issues : List Issue) :
    ((issues.map single).foldl combine first).toList = first.toList ++ issues := by
  induction issues generalizing first with
  | nil => exact (List.append_nil _).symm
  | cons issue rest ih =>
    rw [List.map_cons, List.foldl_cons, ih, toList_combine, toList_single, List.append_assoc,
      List.singleton_append]

theorem ofList?_eq_some_iff {issues : List Issue} {report : Report} :
    ofList? issues = some report ↔ report.toList = issues := by
  cases issues with
  | nil => exact iff_of_false nofun report.toList_ne_nil
  | cons issue rest =>
    have hlist : ((rest.map single).foldl combine (single issue)).toList = issue :: rest :=
      toList_foldl_combine (single issue) rest
    rw [ofList?, List.map_cons, Option.some.injEq, ← hlist]
    exact ⟨fun h => congrArg toList h.symm, fun h => (toList_injective h).symm⟩

@[simp] theorem ofList?_toList (report : Report) : ofList? report.toList = some report :=
  ofList?_eq_some_iff.mpr rfl

theorem ofList?_eq_none_iff {issues : List Issue} : ofList? issues = none ↔ issues = [] := by
  cases issues with
  | nil => exact iff_of_true rfl rfl
  | cons issue rest => exact iff_of_false nofun (List.cons_ne_nil issue rest)

/-- The other issue is of no account where there are any. -/
theorem toList_gather {issues : List Issue} (h : issues ≠ []) (fallback : Unit → Issue) :
    (gather issues fallback).toList = issues := by
  cases hr : ofList? issues with
  | none => exact absurd (ofList?_eq_none_iff.mp hr) h
  | some report =>
    rw [gather, hr, Option.getD_some]
    exact ofList?_eq_some_iff.mp hr

end Report

end JsonValidation
