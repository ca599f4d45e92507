import JsonValidation.Failure.Report

/-!
# Collecting issues

Issues from several sources are collected in steps. Nothing is collected at first; a step either
starts anew or adds to what is there, and a list without issues adds nothing.

* `CollectStep.apply`: what is collected after one more step;
* `Report.collect`: what a sequence of steps collects.
-/

namespace JsonValidation

/-- A step in collecting issues. The first three start anew, and the last one adds. -/
inductive CollectStep where
  | single (issue : Issue)
  | ofList (issues : List Issue)
  | ofFailure (failure : Failure)
  | combine (issues : List Issue)

/-- What is collected after one more step. -/
def CollectStep.apply (collected : Option Report) : CollectStep → Option Report
  | .single issue => some (.single issue)
  | .ofList issues => Report.ofList? issues
  | .ofFailure failure => some failure.report
  | .combine issues => Option.merge Report.combine collected (Report.ofList? issues)

/-- What a sequence of steps collects. -/
def Report.collect (steps : List CollectStep) : Option Report :=
  steps.foldl CollectStep.apply none

end JsonValidation
