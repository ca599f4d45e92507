import JsonValidation.Failure.Report
import JsonValidation.Proofs.Witness

/-!
# Issues point at their culprits

A report locates every issue of a failure, while the failure itself was put together from the inside
out. Both agree: the location of an issue leads into the input for which the failure was reported,
to the value that the issue describes.

* `Issue.Describes`: what an issue says about a value is true;
* `Issue.PointsInto`: an issue points at its culprit inside an input;
* `Schema.pointsInto_of_rejected`: every issue of a rejected input does.
-/

namespace JsonValidation

namespace Issue

/-- Whether what an issue says about an input is true, by the code of the issue. -/
inductive Describes (issue : Issue) (w : Input) : Prop where
  | kind (expected : Kind) (code : issue.code = "not_" ++ expected.name)
    (note : issue.expected = some expected.name) (differs : ¬ w.HasKind expected)
    (got : issue.got = some w.kindName)
  | present (code : issue.code = "not_undefined") (note : issue.expected = some "undefined")
    (differs : w.isPresent = true) (got : issue.got = some w.kindName)
  | value (code : issue.code = "invalid_value") (got : issue.got = some w.text)
  | length (items : List Value)
    (code : issue.code = "length_not_equal" ∨ issue.code = "length_too_short")
    (isArray : w = .present (.array items))
    (got : issue.got = some (items.length.repr ++ " items"))

/-- Whether the message of an issue marks it as one about a key. -/
def IsAboutKey (issue : Issue) : Prop := ∃ rest, issue.message = "invalid key: " ++ rest

/-- Whether an issue points at its culprit inside an input. -/
structure PointsInto (issue : Issue) (x : Input) : Prop where
  /-- A missing field is located at itself, in an object without its key. -/
  missing : issue.code = "not_found" → ∃ path name entries,
    issue.location.segments = path ++ [.field name] ∧
    x.follow? path = some (.present (.object entries)) ∧ entries.lookup name = none
  /-- Any other issue is located at a part of the input and describes it, or a key of it. -/
  found : issue.code ≠ "not_found" → ∃ w, x.follow? issue.location.segments = some w ∧
    (w = .absent → x = .absent) ∧
    (¬ issue.IsAboutKey → issue.Describes w) ∧
    (issue.IsAboutKey → ∃ entries key, w = .present (.object entries) ∧
      key ∈ entries.map Prod.fst ∧ issue.Describes (.present (.string key)))
  /-- No issue has the code of a failure that holds others. -/
  leaf : issue.code ∉ ["not_union", "invalid_element_key", "invalid_element_value"]

/-- How an issue can point at its culprit inside an input, along steps from it. -/
inductive Culprit (issue : Issue) (x : Input) : List Segment → Prop where
  | missing {path : List Segment} {name : String} {entries : List (String × Value)}
    (code : issue.code = "not_found") (leads : x.follow? path = some (.present (.object entries)))
    (lookup : entries.lookup name = none) : Culprit issue x (path ++ [.field name])
  | value {path : List Segment} {w : Input} (leads : x.follow? path = some w)
    (message : ¬ issue.IsAboutKey) (describes : issue.Describes w) : Culprit issue x path
  | key {path : List Segment} {entries : List (String × Value)} {key : String}
    (leads : x.follow? path = some (.present (.object entries)))
    (mem : key ∈ entries.map Prod.fst) (message : issue.IsAboutKey)
    (describes : issue.Describes (.present (.string key))) : Culprit issue x path

variable {issue : Issue}

/-- What describes an input has the code of a leaf. -/
theorem Describes.code_ne {w : Input} (h : issue.Describes w) :
    issue.code ≠ "not_found" ∧
      issue.code ∉ ["not_union", "invalid_element_key", "invalid_element_value"] := by
  rcases h with ⟨expected, hc, -, -, -⟩ | ⟨hc, -, -, -⟩ | ⟨hc, -⟩ | ⟨items, hc | hc, -, -⟩
  · rw [hc]
    cases expected <;> decide
  all_goals
    rw [hc]
    decide

theorem Describes.aboutKey {w : Input} (h : issue.Describes w) :
    (Failure.aboutKey issue).Describes w := by
  cases h with
  | kind expected code note differs got => exact .kind expected code note differs got
  | present code note differs got => exact .present code note differs got
  | value code got => exact .value code got
  | length items code isArray got => exact .length items code isArray got

/-- A culprit in a part of a value is one in the value, one step further away. -/
theorem Culprit.cons {v w : Value} {segment : Segment} {path : List Segment}
    (hs : v.step? segment = some w) (h : issue.Culprit (.present w) path) :
    issue.Culprit (.present v) (segment :: path) := by
  cases h with
  | missing code leads lookup =>
    rw [← Input.follow?_cons_of_step hs] at leads
    exact .missing code leads lookup
  | value leads message describes =>
    rw [← Input.follow?_cons_of_step hs] at leads
    exact .value leads message describes
  | key leads mem message describes =>
    rw [← Input.follow?_cons_of_step hs] at leads
    exact .key leads mem message describes

theorem eq_nil_of_follow?_string {s : String} {path : List Segment} {y : Input}
    (h : (Input.present (.string s)).follow? path = some y) :
    path = [] ∧ y = .present (.string s) := by
  cases path with
  | nil => exact ⟨rfl, (Option.some.inj h).symm⟩
  | cons segment path => cases h

/-- A string has no parts, so a culprit in it is the string itself. -/
theorem Culprit.of_string {s : String} {path : List Segment}
    (h : issue.Culprit (.present (.string s)) path) :
    path = [] ∧ issue.Describes (.present (.string s)) := by
  cases h with
  | missing code leads lookup => cases (eq_nil_of_follow?_string leads).2
  | value leads message describes =>
    obtain ⟨hp, rfl⟩ := eq_nil_of_follow?_string leads
    exact ⟨hp, describes⟩
  | key leads mem message describes => cases (eq_nil_of_follow?_string leads).2

theorem Culprit.pointsInto {x : Input} {path : List Segment} (hp : issue.location.segments = path)
    (h : issue.Culprit x path) : issue.PointsInto x := by
  cases h with
  | missing code leads lookup =>
    refine ⟨fun _ => ⟨_, _, _, hp, leads, lookup⟩, fun hn => absurd code hn, ?_⟩
    rw [code]
    decide
  | value leads message describes =>
    rw [← hp] at leads
    have ⟨hn, hc⟩ := describes.code_ne
    refine ⟨fun h => absurd h hn, fun _ => ⟨_, leads, fun e => ?_, fun _ => describes, ?_⟩, hc⟩
    · rw [e] at leads
      exact Input.eq_absent_of_follow? leads
    · exact fun h => absurd h message
  | key leads mem message describes =>
    rw [← hp] at leads
    have ⟨hn, hc⟩ := describes.code_ne
    refine ⟨fun h => absurd h hn, fun _ => ⟨_, leads, fun e => ?_, ?_, fun _ => ?_⟩, hc⟩
    · cases e
    · exact fun h => absurd message h
    · exact ⟨_, _, rfl, mem, describes⟩

end Issue

namespace Failure

/-! ## Issues of leaves -/

/-- The ninth character is the first that tells messages about keys from all others. -/
theorem not_isAboutKey (c : Char) {issue : Issue} {start rest : String}
    (h : issue.message = start ++ rest) (hs : start.toList[8]? = some c) (hc : c ≠ 'k') :
    ¬ issue.IsAboutKey := by
  intro ⟨tail, ht⟩
  have hk : (start ++ rest).toList[8]? = some 'k' := by
    rw [← h, ht]
    simp
  have hl : 8 < start.toList.length := (List.getElem?_eq_some_iff.mp hs).1
  rw [String.toList_append, List.getElem?_append_left hl, hs, Option.some.injEq] at hk
  exact hc hk

section Leaves

variable (location : Location)

theorem culprit_mismatch {expected : Kind} {x : Input} (h : ¬ x.HasKind expected) :
    ((mismatch expected x).issue location).Culprit x [] := by
  have hm : ((mismatch expected x).issue location).message =
      "expected " ++ (expected.name ++ (", got " ++ x.text)) := by
    rw [← String.append_assoc, ← String.append_assoc]
    rfl
  have hk := not_isAboutKey ' ' hm (by simp) (by decide)
  exact .value (Input.follow?_nil x) hk (.kind expected rfl rfl h rfl)

theorem culprit_notUndefined (v : Value) :
    ((notUndefined v).issue location).Culprit (.present v) [] := by
  have hm : ((notUndefined v).issue location).message =
      "expected undefined, got " ++ v.text := rfl
  have hk := not_isAboutKey ' ' hm (by simp) (by decide)
  exact .value (Input.follow?_nil _) hk (.present rfl rfl rfl rfl)

theorem culprit_invalidValue (x : Input) :
    ((invalidValue x).issue location).Culprit x [] := by
  have hm : ((invalidValue x).issue location).message = "invalid value " ++ x.text := rfl
  have hk := not_isAboutKey 'v' hm (by simp) (by decide)
  exact .value (Input.follow?_nil x) hk (.value rfl rfl)

theorem culprit_lengthNotEqual (items : List Value) :
    ((lengthNotEqual (.array items)).issue location).Culprit (.present (.array items)) [] := by
  have hm : ((lengthNotEqual (.array items)).issue location).message =
      "tuple length mismatch, got " ++ itemsText (.array items) := rfl
  have hk := not_isAboutKey 'n' hm (by simp) (by decide)
  exact .value (Input.follow?_nil _) hk (.length items (.inl rfl) rfl rfl)

theorem culprit_lengthTooShort (items : List Value) :
    ((lengthTooShort (.array items)).issue location).Culprit (.present (.array items)) [] := by
  have hm : ((lengthTooShort (.array items)).issue location).message =
      "tuple too short, got " ++ itemsText (.array items) := rfl
  have hk := not_isAboutKey 'o' hm (by simp) (by decide)
  exact .value (Input.follow?_nil _) hk (.length items (.inr rfl) rfl rfl)

end Leaves

/-! ## Issues of failures -/

theorem mem_reportAt_notUnion {location : Location} {alternatives : List Failure} {issue : Issue}
    (hn : alternatives ≠ []) :
    issue ∈ ((notUnion alternatives).reportAt location).toList ↔
      ∃ failure ∈ alternatives, issue ∈ (failure.reportAt location).toList := by
  rw [toList_reportAt_notUnion hn, issuesAt_eq_flatMap, List.mem_flatMap]

/-- The location of an issue of a true failure goes on to its culprit in the input. -/
theorem exists_culprit {failure : Failure} {x : Input} (hw : failure.IsWitness x)
    {location : Location} {issue : Issue} (hi : issue ∈ (failure.reportAt location).toList) :
    ∃ path, issue.location.segments = location.segments ++ path ∧ issue.Culprit x path := by
  induction failure generalizing x location issue with
  | mismatch expected got =>
    obtain ⟨rfl, hk⟩ := hw
    obtain rfl := List.mem_singleton.mp hi
    exact ⟨[], (List.append_nil _).symm, culprit_mismatch location hk⟩
  | notUndefined got =>
    obtain rfl : x = .present got := hw
    obtain rfl := List.mem_singleton.mp hi
    exact ⟨[], (List.append_nil _).symm, culprit_notUndefined location got⟩
  | notFound name =>
    obtain ⟨entries, rfl, hl⟩ := hw
    obtain rfl := List.mem_singleton.mp hi
    exact ⟨[.field name], rfl, .missing rfl (Input.follow?_nil _) hl⟩
  | invalidValue got =>
    obtain rfl : got = x := hw
    obtain rfl := List.mem_singleton.mp hi
    exact ⟨[], (List.append_nil _).symm, culprit_invalidValue location got⟩
  | lengthNotEqual got =>
    obtain ⟨rfl, hk⟩ := hw
    obtain ⟨items, hx⟩ := Input.hasKind_array.mp hk
    cases hx
    obtain rfl := List.mem_singleton.mp hi
    exact ⟨[], (List.append_nil _).symm, culprit_lengthNotEqual location items⟩
  | lengthTooShort got =>
    obtain ⟨rfl, hk⟩ := hw
    obtain ⟨items, hx⟩ := Input.hasKind_array.mp hk
    cases hx
    obtain rfl := List.mem_singleton.mp hi
    exact ⟨[], (List.append_nil _).symm, culprit_lengthTooShort location items⟩
  | notUnion alternatives ih =>
    obtain ⟨hn, ha⟩ := isWitness_notUnion.mp hw
    obtain ⟨failure, hm, hi⟩ := (mem_reportAt_notUnion hn).mp hi
    exact ih failure hm (ha failure hm) hi
  | invalidKey inner ih =>
    obtain ⟨entries, rfl, key, hk, hw⟩ := hw
    rw [toList_reportAt_invalidKey] at hi
    -- The hypothesis is used with the key as the input, which has no parts to go on to.
    obtain ⟨origin, ho, rfl⟩ := List.mem_map.mp hi
    obtain ⟨path, hp, hc⟩ := ih hw ho
    obtain ⟨rfl, hd⟩ := hc.of_string
    exact ⟨[], hp, .key (Input.follow?_nil _) hk ⟨origin.message, rfl⟩ hd.aboutKey⟩
  | invalidElement segment inner ih =>
    obtain ⟨v, w, rfl, hs, hw⟩ := hw
    obtain ⟨path, hp, hc⟩ := ih hw hi
    refine ⟨segment :: path, ?_, hc.cons hs⟩
    rw [hp, Location.segments_push, List.append_assoc, List.singleton_append]

/-- Every issue of a true failure points at its culprit. -/
theorem IsWitness.pointsInto {failure : Failure} {x : Input} (hw : failure.IsWitness x) :
    ∀ issue ∈ failure.report.toList, issue.PointsInto x := by
  intro issue hi
  obtain ⟨path, hp, hc⟩ := exists_culprit hw hi
  exact hc.pointsInto hp

end Failure

/-- Every issue of a rejected input points at its culprit inside that input. -/
theorem Schema.pointsInto_of_rejected {schema : Schema} {x : Input} (hx : x.UniqueKeys)
    {failure : Failure} (h : (schema.check x).verdict = .rejected failure) :
    ∀ issue ∈ failure.report.toList, issue.PointsInto x := by
  have hw : failure.IsWitness x := (arises_of_rejected h).isWitness hx
  exact hw.pointsInto

/-- Records under one key, objects with a number as their id, or lists of pairs. -/
def Schema.keyOrIdOrPairs : Schema :=
  .union .written (.record (.literal (.value (.string "k"))) .any)
    [.object [⟨"id", .required, .mutable, .scalar .number⟩], pairsOrIds]

theorem Schema.pointsInto_of_rejected_wrongPair : ∃ failure,
    (keyOrIdOrPairs.check wrongPair).verdict = .rejected failure ∧ failure.report.length = 4 ∧
      ∀ issue ∈ failure.report.toList, issue.PointsInto wrongPair := by
  have h : (keyOrIdOrPairs.check wrongPair).verdict =
      .rejected (.notUnion [.invalidKey (.invalidValue (.present (.string "a"))), .notFound "id",
        .invalidElement (.field "a") (.invalidElement (.index 0) (.notUnion
          [.invalidElement (.index 1) (.mismatch .string (.present (.boolean true))),
            .mismatch .object (.present (.array [.null, .boolean true]))]))]) := rfl
  exact ⟨_, h, rfl, pointsInto_of_rejected (by decide) h⟩

end JsonValidation
