import Mathlib.Data.List.Dedup
import Mathlib.Data.List.Induction
import JsonValidation.Failure.Collect

/-!
# What a report holds

A report stands for a list of issues that is not empty, and all that can be asked of it is answered
from that list. The reports of lists put together are the reports of the lists put together, so what
steps collect depends on the steps only through the issues that they contribute:

* `Report.Holds`: a report holds the issues of a list, whatever it is asked for;
* `CollectStep.contributed`: the issues that steps contribute since the last one that starts anew;
* `Report.collect_eq_ofList?`: steps collect these, which one more step keeps
  (`CollectStep.apply_ofList?`);
* `Report.collect_holds_contributed`: what is collected, and the laws of collecting.
-/

namespace JsonValidation

/-! ## Parts of lists -/

section Parts

variable {α β : Type}

/-- Whether a list is the part of another one that has a property: its members stand in the order of
the other list, and are those with the property, each as often as it is there. -/
structure IsPartWith [DecidableEq α] (property : α → Prop) [DecidablePred property]
    (part whole : List α) : Prop where
  sublist : part.Sublist whole
  count_eq : ∀ a, part.count a = if property a then whole.count a else 0

theorem isPartWith_filter [DecidableEq α] (property : α → Prop) [DecidablePred property]
    (whole : List α) : IsPartWith property (whole.filter property) whole := by
  refine ⟨List.filter_sublist, fun a => ?_⟩
  split
  · rename_i h
    exact List.count_filter (decide_eq_true h)
  · rename_i h
    exact List.count_eq_zero.mpr fun hm => h (of_decide_eq_true (List.mem_filter.mp hm).2)

/-- The parts of a list by the keys of its members hold every member once. -/
theorem flatMap_filter_perm [DecidableEq β] (f : α → β) {keys : List β} {whole : List α}
    (hn : keys.Nodup) (hk : ∀ a ∈ whole, f a ∈ keys) :
    (keys.flatMap fun key => whole.filter (f · = key)).Perm whole := by
  induction keys generalizing whole with
  | nil =>
    obtain rfl : whole = [] :=
      List.eq_nil_iff_forall_not_mem.mpr fun a ha => List.not_mem_nil (hk a ha)
    exact .nil
  | cons key rest ih =>
    obtain ⟨hkey, hrest⟩ := List.nodup_cons.mp hn
    -- The parts by the other keys are taken from the members that are not under the first one.
    have hothers : (rest.flatMap fun k => whole.filter (f · = k)) =
        rest.flatMap fun k => (whole.filter fun a => !decide (f a = key)).filter (f · = k) := by
      refine List.flatMap_congr fun k hm => ?_
      have hne : k ≠ key := fun e => hkey (e ▸ hm)
      rw [List.filter_filter]
      refine List.filter_congr fun a _ => ?_
      by_cases h : f a = k <;> simp [h, hne]
    have hperm : (rest.flatMap fun k =>
        (whole.filter fun a => !decide (f a = key)).filter (f · = k)).Perm
          (whole.filter fun a => !decide (f a = key)) := by
      refine ih hrest fun a ha => ?_
      obtain ⟨hm, hne⟩ := List.mem_filter.mp ha
      exact (List.mem_cons.mp (hk a hm)).resolve_left (by simpa using hne)
    rw [List.flatMap_cons, hothers]
    exact (hperm.append_left _).trans (List.filter_append_perm _ whole)

theorem dedup_flatMap_filter_perm [DecidableEq β] (f : α → β) (whole : List α) :
    ((whole.map f).dedup.flatMap fun key => whole.filter (f · = key)).Perm whole :=
  flatMap_filter_perm f (List.nodup_dedup _) fun _ ha => List.mem_dedup.mpr (List.mem_map_of_mem ha)

end Parts

namespace Report

/-! ## Reports and lists -/

/-- Whether a report holds exactly the issues of a list, in their order, whatever it is asked for: the
issues at a location or with a code are parts of the list, and over all locations or codes that occur
they are the whole of it. -/
structure Holds (report : Report) (issues : List Issue) : Prop where
  toList_eq : report.toList = issues
  ne_nil : issues ≠ []
  isEmpty_eq : report.isEmpty = false
  length_eq : report.length = issues.length
  first_eq : issues.head? = some report.first
  atLocation (location : Location) :
    IsPartWith (fun issue => issue.location = location) (report.atLocation location) issues
  withCode (code : String) :
    IsPartWith (fun issue => issue.code = code) (report.withCode code) issues
  locations_perm : ((issues.map (·.location)).dedup.flatMap report.atLocation).Perm issues
  codes_perm : ((issues.map (·.code)).dedup.flatMap report.withCode).Perm issues

theorem holds_toList (report : Report) : report.Holds report.toList where
  toList_eq := rfl
  ne_nil := report.toList_ne_nil
  isEmpty_eq := report.isEmpty_eq_false
  length_eq := rfl
  first_eq := rfl
  atLocation _ := isPartWith_filter _ _
  withCode _ := isPartWith_filter _ _
  locations_perm := dedup_flatMap_filter_perm Issue.location report.toList
  codes_perm := dedup_flatMap_filter_perm Issue.code report.toList

theorem ofList?_eq_some_iff_holds {issues : List Issue} {report : Report} :
    ofList? issues = some report ↔ report.Holds issues := by
  rw [ofList?_eq_some_iff]
  constructor
  · rintro rfl
    exact report.holds_toList
  · exact Holds.toList_eq

theorem combine_assoc (a b c : Report) : (a.combine b).combine c = a.combine (b.combine c) := by
  apply toList_injective
  simp only [toList_combine, List.append_assoc]

/-- The report of two lists put together is that of both lists, combined if both have one. -/
theorem ofList?_append (issues others : List Issue) :
    ofList? (issues ++ others) = Option.merge combine (ofList? issues) (ofList? others) := by
  cases h : ofList? issues with
  | none => rw [ofList?_eq_none_iff.mp h, List.nil_append, Option.merge_none_left]
  | some a => cases h' : ofList? others with
    | none => rw [ofList?_eq_none_iff.mp h', List.append_nil, h, Option.merge_none_right]
    | some b =>
      rw [ofList?_eq_some_iff] at h h'
      show ofList? (issues ++ others) = some (a.combine b)
      rw [ofList?_eq_some_iff, toList_combine, h, h']

end Report

/-! ## Steps -/

namespace CollectStep

/-- The issues that a step contributes. -/
def issues : CollectStep → List Issue
  | .single issue => [issue]
  | .ofList issues => issues
  | .ofFailure failure => failure.report.toList
  | .combine issues => issues

/-- Whether a step starts anew. -/
def startsAnew : CollectStep → Bool
  | .combine _ => false
  | _ => true

/-- The steps from the last one on that starts anew, or all steps if none does. -/
def latest : List CollectStep → List CollectStep
  | [] => []
  | step :: rest => if rest.any startsAnew then latest rest else step :: rest

/-- The issues that steps contribute since the last one that starts anew. -/
def contributed (steps : List CollectStep) : List Issue := (latest steps).flatMap issues

theorem latest_append_singleton (steps : List CollectStep) (step : CollectStep) :
    latest (steps ++ [step]) = if step.startsAnew then [step] else latest steps ++ [step] := by
  induction steps with
  | nil => cases step <;> rfl
  | cons first rest ih =>
    rw [List.cons_append, latest, latest, ih, List.any_append, List.any_cons, List.any_nil,
      Bool.or_false]
    cases step.startsAnew <;> cases rest.any startsAnew <;> rfl

theorem contributed_append_singleton (steps : List CollectStep) (step : CollectStep) :
    contributed (steps ++ [step]) =
      if step.startsAnew then step.issues else contributed steps ++ step.issues := by
  rw [contributed, latest_append_singleton]
  split
  · exact List.flatMap_singleton ..
  · rw [List.flatMap_append, List.flatMap_singleton, contributed]

/-- One more step keeps to what is contributed: it leaves its own issues, after those that were held
before unless it starts anew. -/
theorem apply_ofList? (held : List Issue) (step : CollectStep) :
    step.apply (Report.ofList? held) =
      Report.ofList? (if step.startsAnew then step.issues else held ++ step.issues) := by
  cases step with
  | single issue => rfl
  | ofList issues => rfl
  | ofFailure failure => exact failure.report.ofList?_toList.symm
  | combine issues => exact (Report.ofList?_append held issues).symm

end CollectStep

namespace Report

/-- Any number of steps collect what they contribute since the last one that starts anew. -/
theorem collect_eq_ofList? (steps : List CollectStep) :
    collect steps = ofList? (CollectStep.contributed steps) := by
  induction steps using List.reverseRecOn with
  | nil => rfl
  | append_singleton steps step ih =>
    have hstep : collect (steps ++ [step]) = step.apply (collect steps) := by
      rw [collect, List.foldl_append, List.foldl_cons, List.foldl_nil, collect]
    rw [hstep, ih, CollectStep.apply_ofList?, CollectStep.contributed_append_singleton]

/-- Steps collect a report that holds what they contribute since the last one that starts anew, and
nothing if that is no issue. A list by itself does the same, the report of two lists put together is
that of both combined, and how combinations are nested does not matter. -/
theorem collect_holds_contributed (steps : List CollectStep) :
    (collect steps = none ↔ CollectStep.contributed steps = []) ∧
    (∀ report, collect steps = some report ↔ report.Holds (CollectStep.contributed steps)) ∧
    (∀ issues, (ofList? issues = none ↔ issues = []) ∧
      ∀ report, ofList? issues = some report ↔ report.Holds issues) ∧
    (∀ issues others,
      ofList? (issues ++ others) = Option.merge combine (ofList? issues) (ofList? others)) ∧
    ∀ a b c : Report, (a.combine b).combine c = a.combine (b.combine c) := by
  rw [collect_eq_ofList?]
  exact ⟨ofList?_eq_none_iff, fun _ => ofList?_eq_some_iff_holds,
    fun _ => ⟨ofList?_eq_none_iff, fun _ => ofList?_eq_some_iff_holds⟩, ofList?_append, combine_assoc⟩

end Report

end JsonValidation
