import JsonValidation.Proofs.Steps

/-!
# What a composite reports

A composite that rejects an input reports the failure of the first of its parts that fails, in the
order in which the parts stand in the input or in the composite. The failure of the part is kept as
it is, and wrapped once to tell where it comes from. Only a union keeps the failures of all its parts.

* `Check.Rejects`: a check rejects an input with a failure;
* `Composite.Reports`: what a composite has to report, said by positions;
* `Composite.rejects_iff_reports`: a composite rejects an input exactly with what it has to report.
-/

namespace JsonValidation

/-- Whether a check rejects an input with a failure. -/
def Check.Rejects (check : Check) (x : Input) (failure : Failure) : Prop :=
  (check x).verdict = .rejected failure

/-- Whether a check ends in no fault. -/
def Check.NeverFaults (check : Check) : Prop :=
  ∀ x fault, (check x).verdict ≠ .faulted fault

/-- Whether a failure is the one at the first position that fails at all. -/
def Failure.IsFirst (failure : Failure) (fails : Nat → Failure → Prop) : Prop :=
  ∃ i, fails i failure ∧ ∀ j < i, ∀ earlier, ¬ fails j earlier

namespace Run

variable {α : Type} {step : α → Run} {members : List α} {failure : Failure}

theorem reject_rejected_iff {other : Failure} :
    (reject other).verdict = .rejected failure ↔ failure = other := by
  rw [verdict_reject, Verdict.rejected.injEq, eq_comm]

theorem accepted_iff_of_not_faulted {run : Run} (h : ∀ fault, run.verdict ≠ .faulted fault) :
    run.verdict = .accepted ↔ ∀ failure, run.verdict ≠ .rejected failure := by
  cases hv : run.verdict with
  | accepted => simp
  | rejected failure => simp
  | faulted fault => exact absurd hv (h fault)

/-- Steps that end in no fault report the failure of the first one that rejects. -/
theorem forEach_rejected_iff_isFirst {fails : Nat → Failure → Prop}
    (hf : ∀ a ∈ members, ∀ fault, (step a).verdict ≠ .faulted fault)
    (h : ∀ i failure, fails i failure ↔
      ∃ a, members[i]? = some a ∧ (step a).verdict = .rejected failure) :
    (forEach step members).verdict = .rejected failure ↔ failure.IsFirst fails := by
  rw [forEach_decided_iff (by simp)]
  constructor
  · rintro ⟨before, decider, after, rfl, hb, hd⟩
    refine ⟨before.length, (h _ _).mpr ⟨decider, by simp, hd⟩, fun j hj earlier he => ?_⟩
    obtain ⟨b, hm, hr⟩ := (h _ _).mp he
    rw [List.getElem?_append_left hj] at hm
    have ha := hb b (List.mem_of_getElem? hm)
    rw [hr] at ha
    cases ha
  · rintro ⟨i, hi, hearlier⟩
    obtain ⟨a, ha, hd⟩ := (h _ _).mp hi
    obtain ⟨hlt, rfl⟩ := List.getElem?_eq_some_iff.mp ha
    refine ⟨members.take i, members[i], members.drop (i + 1), by simp, fun b hb => ?_, hd⟩
    obtain ⟨j, hj, rfl⟩ := List.mem_take_iff_getElem.mp hb
    have hm : members[j]? = some members[j] := List.getElem?_eq_getElem _
    -- An earlier step ends in no fault, so it accepts unless it fails, and no earlier one fails.
    rw [accepted_iff_of_not_faulted (hf _ (List.mem_of_getElem? hm))]
    exact fun earlier hr => hearlier j (by omega) earlier ((h _ _).mpr ⟨members[j], hm, hr⟩)

end Run

namespace Composite

/-- The checks of which a composite is made. -/
def parts : Composite → List Check
  | .array items => [items]
  | .tuple list => list.entries
  | .restTuple list rest => rest :: list.entries
  | .record keys values => [keys, values]
  | .object fields => fields.map (·.validator)
  | .intersection list => list.entries
  | .union list => list.entries

/-- Whether an element of an array is rejected by the check for its position. -/
def ElementFails (checkAt : Nat → Option Check) (values : List Value) (i : Nat)
    (failure : Failure) : Prop :=
  ∃ check v inner, checkAt i = some check ∧ values[i]? = some v ∧
    check.Rejects (.present v) inner ∧ failure = .invalidElement (.index i) inner

/-- Whether an entry of a record has a rejected key, or a rejected value under a key that is not
rejected. -/
def EntryFails (keys values : Check) (entries : List (String × Value)) (i : Nat)
    (failure : Failure) : Prop :=
  ∃ key v inner, entries[i]? = some (key, v) ∧
    (keys.Rejects (.present (.string key)) inner ∧ failure = .invalidKey inner ∨
      (∀ other, ¬ keys.Rejects (.present (.string key)) other) ∧
        values.Rejects (.present v) inner ∧ failure = .invalidElement (.field key) inner)

/-- Whether a declared field is required and missing, or present and rejected. -/
def FieldFails (fields : List (Field Check)) (entries : List (String × Value)) (i : Nat)
    (failure : Failure) : Prop :=
  ∃ f, fields[i]? = some f ∧
    (entries.lookup f.name = none ∧ f.presence = .required ∧ failure = .notFound f.name ∨
      ∃ v inner, entries.lookup f.name = some v ∧ f.validator.Rejects (.present v) inner ∧
        failure = .invalidElement (.field f.name) inner)

/-- Whether a part of an intersection is rejected. -/
def PartFails (checks : List Check) (x : Input) (i : Nat) (failure : Failure) : Prop :=
  ∃ check, checks[i]? = some check ∧ check.Rejects x failure

/-- Whether a failure is what a composite has to report of an input. -/
def Reports : Composite → Input → Failure → Prop
  | .array items, .present (.array values), failure =>
    failure.IsFirst (ElementFails (fun _ => some items) values)
  | .tuple list, .present (.array values), failure =>
    values.length ≠ list.length ∧ failure = .lengthNotEqual (.array values) ∨
      values.length = list.length ∧ failure.IsFirst (ElementFails (list.entries[·]?) values)
  | .restTuple list rest, .present (.array values), failure =>
    values.length < list.length ∧ failure = .lengthTooShort (.array values) ∨
      list.length ≤ values.length ∧
        failure.IsFirst (ElementFails (fun i => some (list.entries.getD i rest)) values)
  | .record keys values, .present (.object entries), failure =>
    failure.IsFirst (EntryFails keys values entries)
  | .object fields, .present (.object entries), failure =>
    failure.IsFirst (FieldFails fields entries)
  | .intersection list, x, failure => failure.IsFirst (PartFails list.entries x)
  | .union list, x, failure => ∃ failures,
    List.Forall₂ (fun check inner => Check.Rejects check x inner) list.entries failures ∧
      failure = .notUnion failures
  | .array _, x, failure | .tuple _, x, failure | .restTuple _ _, x, failure =>
    failure = .mismatch .array x
  | .record _ _, x, failure | .object _, x, failure => failure = .mismatch .object x

section Positions

variable {check : Check} {list : Listing Check} {values : List Value}
  {entries : List (String × Value)} {fields : List (Field Check)} {failure : Failure}

theorem part_rejected_iff {segment : Segment} {v : Value} :
    (check.part segment v).verdict = .rejected failure ↔
      ∃ inner, check.Rejects (.present v) inner ∧ failure = .invalidElement segment inner := by
  rw [Check.verdict_part, Verdict.mapFailure_eq_rejected]
  exact exists_congr fun inner => and_congr_right fun _ => eq_comm

theorem part_not_faulted (h : check.NeverFaults) (segment : Segment) (v : Value) (fault : Fault) :
    (check.part segment v).verdict ≠ .faulted fault := by
  rw [Check.verdict_part, ne_eq, Verdict.mapFailure_eq_faulted]
  exact h _ fault

/-- All elements of an array, each checked by the check for its position. -/
theorem elements_rejected_iff {checkAt : Nat → Check} (h : ∀ i, (checkAt i).NeverFaults) :
    (Check.elements checkAt values).verdict = .rejected failure ↔
      failure.IsFirst (ElementFails (fun i => some (checkAt i)) values) := by
  refine Run.forEach_rejected_iff_isFirst (fun (v, i) _ => part_not_faulted (h i) _ v) ?_
  intro i failure
  constructor
  · rintro ⟨check, v, inner, hc, hv, hr, rfl⟩
    obtain rfl : checkAt i = check := Option.some.inj hc
    have hm : values.zipIdx[i]? = some (v, i) := by simp [List.getElem?_zipIdx, hv]
    exact ⟨(v, i), hm, part_rejected_iff.mpr ⟨inner, hr, rfl⟩⟩
  · rintro ⟨⟨v, j⟩, hm, hd⟩
    obtain ⟨hv, rfl⟩ : values[i]? = some v ∧ i = j := by
      simpa [List.getElem?_zipIdx] using hm
    obtain ⟨inner, hr, rfl⟩ := part_rejected_iff.mp hd
    exact ⟨_, v, inner, rfl, hv, hr, rfl⟩

theorem getD_neverFaults {rest : Check} (h : ∀ check ∈ rest :: list.entries, check.NeverFaults)
    (i : Nat) : (list.entries.getD i rest).NeverFaults := by
  obtain ⟨hrest, hentries⟩ := List.forall_mem_cons.mp h
  exact Check.forall_getD hentries hrest i

/-- The elements of an array as far as there are checks for their positions. -/
theorem leading_rejected_iff (h : ∀ check ∈ list.entries, check.NeverFaults) :
    (Check.leading list values).verdict = .rejected failure ↔
      failure.IsFirst (ElementFails (list.entries[·]?) values) := by
  rw [Check.leading_eq]
  refine Run.forEach_rejected_iff_isFirst (fun ((v, i), check) hm => ?_) fun i failure => ?_
  · have hc := (Check.mem_zipIdx_zip.mp hm).2
    exact part_not_faulted (h check (List.mem_of_getElem? hc)) _ v
  constructor
  · rintro ⟨check, v, inner, hc, hv, hr, rfl⟩
    have hm : (values.zipIdx.zip list.entries)[i]? = some ((v, i), check) :=
      List.getElem?_zip_eq_some.mpr ⟨by simp [List.getElem?_zipIdx, hv], hc⟩
    exact ⟨((v, i), check), hm, part_rejected_iff.mpr ⟨inner, hr, rfl⟩⟩
  · rintro ⟨⟨⟨v, j⟩, check⟩, hm, hd⟩
    obtain ⟨hw, hc⟩ := List.getElem?_zip_eq_some.mp hm
    obtain ⟨hv, rfl⟩ : values[i]? = some v ∧ i = j := by
      simpa [List.getElem?_zipIdx] using hw
    obtain ⟨inner, hr, rfl⟩ := part_rejected_iff.mp hd
    exact ⟨check, v, inner, hc, hv, hr, rfl⟩

/-- An entry of a record: the value is only looked at where the key is not rejected. -/
theorem entry_rejected_iff {keys values : Check} (hk : keys.NeverFaults) {key : String} {v : Value} :
    (((keys (.present (.string key))).mapFailure .invalidKey).andThen
        (values.part (.field key) v)).verdict = .rejected failure ↔
      ∃ inner, keys.Rejects (.present (.string key)) inner ∧ failure = .invalidKey inner ∨
        (∀ other, ¬ keys.Rejects (.present (.string key)) other) ∧
          values.Rejects (.present v) inner ∧ failure = .invalidElement (.field key) inner := by
  have hac := Run.accepted_iff_of_not_faulted (hk (.present (.string key)))
  rw [Run.andThen_decided_iff (by simp), Run.verdict_mapFailure, Verdict.mapFailure_eq_rejected,
    Verdict.mapFailure_eq_accepted, part_rejected_iff, hac, ← exists_and_left, ← exists_or]
  exact exists_congr fun inner => or_congr_left (and_congr_right fun _ => eq_comm)

theorem entry_not_faulted {keys values : Check} (hk : keys.NeverFaults) (hv : values.NeverFaults)
    {key : String} {v : Value} (fault : Fault) :
    (((keys (.present (.string key))).mapFailure .invalidKey).andThen
      (values.part (.field key) v)).verdict ≠ .faulted fault := by
  intro hd
  rcases (Run.andThen_decided_iff (by simp)).mp hd with hd | ⟨-, hd⟩
  · rw [Run.verdict_mapFailure, Verdict.mapFailure_eq_faulted] at hd
    exact hk _ fault hd
  · exact part_not_faulted hv _ v fault hd

/-- A declared field of an object. -/
theorem field_rejected_iff {f : Field Check} :
    (Check.field entries f).verdict = .rejected failure ↔
      entries.lookup f.name = none ∧ f.presence = .required ∧ failure = .notFound f.name ∨
        ∃ v inner, entries.lookup f.name = some v ∧ f.validator.Rejects (.present v) inner ∧
          failure = .invalidElement (.field f.name) inner := by
  unfold Check.field
  cases hl : entries.lookup f.name with
  | some v =>
    rw [part_rejected_iff]
    simp
  | none => cases hp : f.presence <;> simp [eq_comm]

theorem field_not_faulted {f : Field Check} (h : f.validator.NeverFaults) (fault : Fault) :
    (Check.field entries f).verdict ≠ .faulted fault := by
  intro hd
  rcases Check.field_decided (by simp) hd with ⟨hd, -⟩ | ⟨v, -, hd⟩
  · cases hd
  · exact h _ fault (Verdict.mapFailure_eq_faulted.mp hd)

end Positions

/-- A composite that takes values of one kind only reports the kind of any other input. -/
theorem rejects_iff_reports_of_mismatch {c : Composite} {x : Input} {kind : Kind}
    (hk : c.kind? = some kind) (hx : ¬ x.HasKind kind) (failure : Failure) :
    c.check.Rejects x failure ↔ c.Reports x failure := by
  cases x with
  | absent => cases c <;> cases hk <;> exact Run.reject_rejected_iff
  | present v =>
    have hne : v.kind ≠ kind := fun e => hx ⟨v, rfl, e⟩
    cases c <;> cases hk <;> cases v <;>
      first | exact Run.reject_rejected_iff | exact absurd rfl hne

/-- A composite whose parts end in no fault rejects an input exactly with what it has to report. -/
theorem rejects_iff_reports {c : Composite} (hc : ∀ check ∈ c.parts, check.NeverFaults) (x : Input)
    (failure : Failure) : c.check.Rejects x failure ↔ c.Reports x failure := by
  cases c with
  | array items =>
    by_cases hx : x.HasKind .array
    · obtain ⟨values, rfl⟩ := Input.hasKind_array.mp hx
      exact elements_rejected_iff fun _ => hc items List.mem_cons_self
    · exact rejects_iff_reports_of_mismatch rfl hx failure
  | tuple list =>
    by_cases hx : x.HasKind .array
    · obtain ⟨values, rfl⟩ := Input.hasKind_array.mp hx
      show (ite _ _ _ : Run).verdict = _ ↔ _ ∨ _
      rw [← leading_rejected_iff hc]
      by_cases hl : values.length = list.length
      · rw [if_pos hl]
        simp [hl]
      · rw [if_neg hl, Run.reject_rejected_iff]
        simp [hl]
    · exact rejects_iff_reports_of_mismatch rfl hx failure
  | restTuple list rest =>
    by_cases hx : x.HasKind .array
    · obtain ⟨values, rfl⟩ := Input.hasKind_array.mp hx
      have hAt := getD_neverFaults hc
      show (ite _ _ _ : Run).verdict = _ ↔ _ ∨ _
      rw [← elements_rejected_iff hAt, Check.leading_andThen_rest]
      by_cases hl : values.length < list.length
      · rw [if_pos hl, Run.reject_rejected_iff]
        simp [hl, Nat.not_le.mpr hl]
      · rw [if_neg hl]
        simp only [hl, Nat.not_lt.mp hl, false_and, true_and, false_or]
    · exact rejects_iff_reports_of_mismatch rfl hx failure
  | record keys values =>
    by_cases hx : x.HasKind .object
    · obtain ⟨entries, rfl⟩ := Input.hasKind_object.mp hx
      have hk := hc keys List.mem_cons_self
      have hv := hc values (List.mem_cons_of_mem keys List.mem_cons_self)
      refine Run.forEach_rejected_iff_isFirst (fun (key, v) _ => entry_not_faulted hk hv)
        fun i failure => ?_
      rw [Prod.exists]
      refine exists_congr fun key => exists_congr fun v => ?_
      rw [exists_and_left, entry_rejected_iff hk]
    · exact rejects_iff_reports_of_mismatch rfl hx failure
  | object fields =>
    by_cases hx : x.HasKind .object
    · obtain ⟨entries, rfl⟩ := Input.hasKind_object.mp hx
      refine Run.forEach_rejected_iff_isFirst (fun f hf => ?_) fun i failure => ?_
      · exact field_not_faulted (hc f.validator (List.mem_map_of_mem hf))
      · exact exists_congr fun f => and_congr_right fun _ => field_rejected_iff.symm
    · exact rejects_iff_reports_of_mismatch rfl hx failure
  | intersection list =>
    show (Check.intersection list x).verdict = _ ↔ _
    rw [Check.intersection_eq]
    exact Run.forEach_rejected_iff_isFirst (fun check hm => hc check hm x) fun i failure => Iff.rfl
  | union list =>
    show (Check.union list x).verdict = _ ↔ _
    rw [Check.union_rejected_iff]
    refine exists_congr fun failures => and_congr_left fun _ => ?_
    rw [← List.forall₂_eq_eq_eq, List.forall₂_map_left_iff, List.forall₂_map_right_iff]
    rfl

theorem ofKind_neverFaults (kind : Kind) : (Check.ofKind kind).NeverFaults := by
  intro x fault h
  cases (Check.ofKind_decided (by simp) h).1

/-- Arrays of a string and any number of numbers after it. -/
def named : Composite :=
  .restTuple ⟨.written, [Check.ofKind .string]⟩ (Check.ofKind .number)

/-- An array with two elements of the wrong kind. -/
def misnamed : Input := .present (.array [.string "a", .ofNat 1, .null, .boolean true])

theorem rejects_iff_reports_misnamed :
    (∀ check ∈ named.parts, check.NeverFaults) ∧
      named.Reports misnamed (.invalidElement (.index 2) (.mismatch .number (.present .null))) ∧
      ¬ named.Reports misnamed
        (.invalidElement (.index 3) (.mismatch .number (.present (.boolean true)))) := by
  have hc : ∀ check ∈ named.parts, check.NeverFaults := by
    intro check hm
    rcases List.mem_pair.mp hm with rfl | rfl <;> exact ofKind_neverFaults _
  refine ⟨hc, (rejects_iff_reports hc _ _).mp rfl, fun h => ?_⟩
  cases (rejects_iff_reports hc _ _).mpr h

end Composite

end JsonValidation
