import JsonValidation.Check
import JsonValidation.Proofs.Decision
import JsonValidation.Proofs.Inputs

/-!
# Verdicts of the combinators

What each combinator makes of the verdicts of its parts, whatever the parts do. For every combinator
there is one statement on when it accepts and one on everything that can decide it otherwise:

* `Check.array_accepted_iff`, `Check.array_decided`, and likewise for tuples, tuples with a rest,
  intersections, records and objects;
* `Check.union_accepted_iff`, `Check.union_rejected_iff`.

No combinator asks a listing for a position that it does not have (`Check.leading_eq`,
`Check.union_eq`, `Check.intersection_eq`), so the form of a listing shows in no run.
-/

namespace JsonValidation

theorem Listing.checkNth_of_getElem? {list : Listing Check} {n : Nat} {check : Check}
    (h : list.entries[n]? = some check) : list.checkNth n = check := by
  funext x
  rw [Listing.checkNth, h]

namespace Check

variable {x : Input} {verdict : Verdict}

/-! ## Positions of listings -/

theorem mem_zipIdx_zip {values : List Value} {checks : List Check} {v : Value} {i : Nat}
    {check : Check} : ((v, i), check) ∈ values.zipIdx.zip checks ↔
      values[i]? = some v ∧ checks[i]? = some check := by
  rw [List.mem_iff_getElem?]
  constructor
  · rintro ⟨j, h⟩
    obtain ⟨hv, hc⟩ := List.getElem?_zip_eq_some.mp h
    rw [List.getElem?_zipIdx, Option.map_eq_some_iff] at hv
    obtain ⟨w, hw, e⟩ := hv
    obtain ⟨rfl, rfl⟩ : w = v ∧ 0 + j = i := Prod.mk.inj e
    rw [Nat.zero_add]
    exact ⟨hw, hc⟩
  · rintro ⟨hv, hc⟩
    exact ⟨i, List.getElem?_zip_eq_some.mpr ⟨by simp [List.getElem?_zipIdx, hv], hc⟩⟩

theorem take_eq_map_zip {α β : Type} (as : List α) (bs : List β) :
    as.take bs.length = (as.zip bs).map Prod.fst := by
  induction as generalizing bs with
  | nil => simp
  | cons a as ih =>
    cases bs with
    | nil => rfl
    | cons b bs => rw [List.length_cons, List.take_succ_cons, ih, List.zip_cons_cons, List.map_cons]

/-- Every element is checked by the check at its position; there is one for each element taken. -/
theorem leading_eq (list : Listing Check) (values : List Value) :
    leading list values =
      Run.forEach (fun ((v, i), check) => part check (.index i) v)
        (values.zipIdx.zip list.entries) := by
  rw [leading, Listing.length, take_eq_map_zip, Run.forEach_map]
  refine Run.forEach_congr fun ((v, i), check) h => ?_
  show part (list.checkNth i) (.index i) v = part check (.index i) v
  rw [Listing.checkNth_of_getElem? (mem_zipIdx_zip.mp h).2]

theorem range_eq_map_zipIdx (list : Listing Check) :
    List.range list.length = list.entries.zipIdx.map Prod.snd := by
  rw [List.zipIdx_map_snd, Listing.length, List.range_eq_range']

theorem checkNth_zipIdx {list : Listing Check} {e : Check × Nat} (h : e ∈ list.entries.zipIdx) :
    list.checkNth e.2 x = e.1 x := by
  rw [Listing.checkNth_of_getElem? (List.mem_zipIdx_iff_getElem?.mp h)]

/-- A union tries every alternative of its listing, and nothing else. -/
theorem union_eq (list : Listing Check) :
    union list x = Run.firstAccepted (fun check => check x) [] list.entries := by
  rw [union, range_eq_map_zipIdx, Run.firstAccepted_map]
  calc Run.firstAccepted (fun e => list.checkNth e.2 x) [] list.entries.zipIdx
      = Run.firstAccepted (fun e => e.1 x) [] list.entries.zipIdx :=
        Run.firstAccepted_congr (fun _ h => checkNth_zipIdx h) []
    _ = Run.firstAccepted (fun check => check x) [] (list.entries.zipIdx.map Prod.fst) :=
        (Run.firstAccepted_map (fun check : Check => check x) Prod.fst [] _).symm
    _ = Run.firstAccepted (fun check => check x) [] list.entries := by rw [List.zipIdx_map_fst]

/-- An intersection runs every part of its listing, and nothing else. -/
theorem intersection_eq (list : Listing Check) :
    intersection list x = Run.forEach (fun check => check x) list.entries := by
  rw [intersection, range_eq_map_zipIdx, Run.forEach_map]
  calc Run.forEach (fun e => list.checkNth e.2 x) list.entries.zipIdx
      = Run.forEach (fun e => e.1 x) list.entries.zipIdx :=
        Run.forEach_congr fun _ h => checkNth_zipIdx h
    _ = Run.forEach (fun check => check x) (list.entries.zipIdx.map Prod.fst) :=
        (Run.forEach_map (fun check : Check => check x) Prod.fst _).symm
    _ = Run.forEach (fun check => check x) list.entries := by rw [List.zipIdx_map_fst]

/-! ## Kinds of inputs -/

theorem ofKind_accepted_iff {kind : Kind} :
    (ofKind kind x).verdict = .accepted ↔ x.HasKind kind := by
  cases x with
  | absent => simp [ofKind, Input.HasKind]
  | present v => by_cases h : v.kind = kind <;> simp [ofKind, Input.HasKind, h]

theorem ofKind_decided {kind : Kind} (hv : verdict ≠ .accepted)
    (h : (ofKind kind x).verdict = verdict) :
    verdict = .rejected (.mismatch kind x) ∧ ¬ x.HasKind kind := by
  have hk : ¬ x.HasKind kind := fun hk => hv (h ▸ ofKind_accepted_iff.mpr hk)
  refine ⟨?_, hk⟩
  cases x with
  | absent => exact h.symm
  | present v =>
    have hne : v.kind ≠ kind := fun e => hk ⟨v, rfl, e⟩
    rw [← h, ofKind, if_neg hne, Run.verdict_reject]

theorem undefined_accepted_iff : (undefined x).verdict = .accepted ↔ x = .absent := by
  cases x <;> simp [undefined]

theorem undefined_decided (hv : verdict ≠ .accepted) (h : (undefined x).verdict = verdict) :
    ∃ v, x = .present v ∧ verdict = .rejected (.notUndefined v) := by
  cases x with
  | absent => exact absurd h.symm hv
  | present v => exact ⟨v, rfl, h.symm⟩

theorem onItems_accepted_iff {run : List Value → Run} :
    (onItems run x).verdict = .accepted ↔
      ∃ values, x = .present (.array values) ∧ (run values).verdict = .accepted := by
  cases x with
  | absent => simp [onItems]
  | present v => cases v <;> simp [onItems]

theorem onItems_decided {run : List Value → Run} (h : (onItems run x).verdict = verdict) :
    (verdict = .rejected (.mismatch .array x) ∧ ¬ x.HasKind .array) ∨
      ∃ values, x = .present (.array values) ∧ (run values).verdict = verdict := by
  rw [Input.hasKind_array]
  cases x with
  | absent => exact .inl ⟨h.symm, by simp⟩
  | present v => cases v with
    | array values => exact .inr ⟨values, rfl, h⟩
    | null | boolean | number | string | object => exact .inl ⟨h.symm, by simp⟩

theorem onEntries_accepted_iff {run : List (String × Value) → Run} :
    (onEntries run x).verdict = .accepted ↔
      ∃ entries, x = .present (.object entries) ∧ (run entries).verdict = .accepted := by
  cases x with
  | absent => simp [onEntries]
  | present v => cases v <;> simp [onEntries]

theorem onEntries_decided {run : List (String × Value) → Run}
    (h : (onEntries run x).verdict = verdict) :
    (verdict = .rejected (.mismatch .object x) ∧ ¬ x.HasKind .object) ∨
      ∃ entries, x = .present (.object entries) ∧ (run entries).verdict = verdict := by
  rw [Input.hasKind_object]
  cases x with
  | absent => exact .inl ⟨h.symm, by simp⟩
  | present v => cases v with
    | object entries => exact .inr ⟨entries, rfl, h⟩
    | null | boolean | number | string | array => exact .inl ⟨h.symm, by simp⟩

theorem ofKind_of_hasKind {kind : Kind} (h : x.HasKind kind) : ofKind kind x = .accept := by
  obtain ⟨v, rfl, hk⟩ := h
  exact if_pos hk

theorem ofKind_of_not_hasKind {kind : Kind} (h : ¬ x.HasKind kind) :
    ofKind kind x = .reject (.mismatch kind x) := by
  cases x with
  | absent => rfl
  | present v => exact if_neg fun hk => h ⟨v, rfl, hk⟩

theorem onItems_of_not_hasKind {run : List Value → Run} (h : ¬ x.HasKind .array) :
    onItems run x = .reject (.mismatch .array x) := by
  rw [Input.hasKind_array] at h
  cases x with
  | absent => rfl
  | present v =>
    cases v with
    | array values => exact absurd ⟨values, rfl⟩ h
    | null | boolean | number | string | object => rfl

theorem onEntries_of_not_hasKind {run : List (String × Value) → Run} (h : ¬ x.HasKind .object) :
    onEntries run x = .reject (.mismatch .object x) := by
  rw [Input.hasKind_object] at h
  cases x with
  | absent => rfl
  | present v =>
    cases v with
    | object entries => exact absurd ⟨entries, rfl⟩ h
    | null | boolean | number | string | array => rfl

@[simp] theorem verdict_part (check : Check) (segment : Segment) (v : Value) :
    (part check segment v).verdict =
      (check (.present v)).verdict.mapFailure (.invalidElement segment) :=
  Run.verdict_mapFailure _ _

/-! ## Arrays -/

/-- Checks each element of an array by the check for its position. -/
def elements (checkAt : Nat → Check) (values : List Value) : Run :=
  Run.forEach (fun (v, i) => part (checkAt i) (.index i) v) values.zipIdx

/-- What holds of the checks in a list and of the one for all other positions holds at every
position. -/
theorem forall_getD {P : Check → Prop} {checks : List Check} {rest : Check}
    (h : ∀ check ∈ checks, P check) (hr : P rest) (i : Nat) : P (checks.getD i rest) := by
  rw [List.getD_eq_getElem?_getD]
  cases hi : checks[i]? with
  | none => exact hr
  | some check => exact h check (List.mem_of_getElem? hi)

theorem array_accepted_iff {items : Check} :
    (array items x).verdict = .accepted ↔
      ∃ values, x = .present (.array values) ∧
        ∀ v ∈ values, (items (.present v)).verdict = .accepted := by
  rw [array, onItems_accepted_iff]
  refine exists_congr fun values => and_congr_right fun _ => ?_
  rw [Run.forEach_accepted_iff]
  constructor
  · intro h v hv
    obtain ⟨i, hi⟩ := List.mem_iff_getElem?.mp hv
    simpa using h (v, i) (List.mk_mem_zipIdx_iff_getElem?.mpr hi)
  · rintro h ⟨v, i⟩ hv
    simpa using h v (List.mem_of_getElem? (List.mk_mem_zipIdx_iff_getElem?.mp hv))

theorem array_decided {items : Check} (hv : verdict ≠ .accepted)
    (h : (array items x).verdict = verdict) :
    (verdict = .rejected (.mismatch .array x) ∧ ¬ x.HasKind .array) ∨
      ∃ values i v, x = .present (.array values) ∧ values[i]? = some v ∧
        (items (.present v)).verdict.mapFailure (.invalidElement (.index i)) = verdict := by
  refine (onItems_decided h).imp_right fun ⟨values, hx, h⟩ => ?_
  obtain ⟨⟨v, i⟩, hm, h⟩ := Run.exists_mem_of_forEach_decided hv h
  exact ⟨values, i, v, hx, List.mk_mem_zipIdx_iff_getElem?.mp hm, by simpa using h⟩

theorem leading_accepted_iff {list : Listing Check} {values : List Value} :
    (leading list values).verdict = .accepted ↔
      ∀ (i : Nat) (v : Value) (check : Check), values[i]? = some v →
        list.entries[i]? = some check → (check (.present v)).verdict = .accepted := by
  rw [leading_eq, Run.forEach_accepted_iff]
  constructor
  · intro h i v check hv hc
    simpa using h ((v, i), check) (mem_zipIdx_zip.mpr ⟨hv, hc⟩)
  · rintro h ⟨⟨v, i⟩, check⟩ hm
    obtain ⟨hv, hc⟩ := mem_zipIdx_zip.mp hm
    simpa using h i v check hv hc

theorem leading_decided {list : Listing Check} {values : List Value} (hv : verdict ≠ .accepted)
    (h : (leading list values).verdict = verdict) :
    ∃ i v, ∃ check : Check, values[i]? = some v ∧ list.entries[i]? = some check ∧
      (check (.present v)).verdict.mapFailure (.invalidElement (.index i)) = verdict := by
  rw [leading_eq] at h
  obtain ⟨⟨⟨v, i⟩, check⟩, hm, h⟩ := Run.exists_mem_of_forEach_decided hv h
  obtain ⟨hi, hc⟩ := mem_zipIdx_zip.mp hm
  exact ⟨i, v, check, hi, hc, by simpa using h⟩

theorem tuple_accepted_iff {list : Listing Check} :
    (tuple list x).verdict = .accepted ↔
      ∃ values, x = .present (.array values) ∧ values.length = list.length ∧
        ∀ (i : Nat) (v : Value) (check : Check), values[i]? = some v →
          list.entries[i]? = some check → (check (.present v)).verdict = .accepted := by
  rw [tuple, onItems_accepted_iff]
  refine exists_congr fun values => and_congr_right fun _ => ?_
  rw [← leading_accepted_iff]
  by_cases hl : values.length = list.length <;> simp [hl]

theorem tuple_decided {list : Listing Check} (hv : verdict ≠ .accepted)
    (h : (tuple list x).verdict = verdict) :
    (verdict = .rejected (.mismatch .array x) ∧ ¬ x.HasKind .array) ∨
      ∃ values, x = .present (.array values) ∧
        ((verdict = .rejected (.lengthNotEqual (.array values)) ∧ values.length ≠ list.length) ∨
          ∃ i v, ∃ check : Check, values[i]? = some v ∧ list.entries[i]? = some check ∧
            (check (.present v)).verdict.mapFailure (.invalidElement (.index i)) = verdict) := by
  refine (onItems_decided h).imp_right fun ⟨values, hx, h⟩ => ⟨values, hx, ?_⟩
  split at h
  · exact .inr (leading_decided hv h)
  · rename_i hl
    exact .inl ⟨h.symm, hl⟩

theorem mem_zipIdx_drop {values : List Value} {n i : Nat} {v : Value} :
    (v, i) ∈ values.zipIdx.drop n ↔ n ≤ i ∧ values[i]? = some v := by
  rw [List.mem_iff_getElem?]
  constructor
  · rintro ⟨j, h⟩
    rw [List.getElem?_drop, List.getElem?_zipIdx, Option.map_eq_some_iff] at h
    obtain ⟨w, hw, e⟩ := h
    obtain ⟨rfl, rfl⟩ : w = v ∧ 0 + (n + j) = i := Prod.mk.inj e
    rw [Nat.zero_add]
    exact ⟨Nat.le_add_right n j, hw⟩
  · rintro ⟨hn, hv⟩
    refine ⟨i - n, ?_⟩
    rw [List.getElem?_drop, Nat.add_sub_cancel' hn, List.getElem?_zipIdx, hv, Option.map_some,
      Nat.zero_add]

/-- The elements of a tuple with a rest are checked in one pass over the whole array: by the check at
their position where there is one, and by the check of the rest from there on. -/
theorem leading_andThen_rest (list : Listing Check) (rest : Check) (values : List Value) :
    (leading list values).andThen
        (Run.forEach (fun (v, i) => rest.part (.index i) v) (values.zipIdx.drop list.length)) =
      elements (fun i => list.entries.getD i rest) values := by
  -- Both passes number the elements by their places in the whole array, so one function of the place
  -- gives the check: the listing has one for each place that is taken and none for those dropped.
  have hl : leading list values = Run.forEach
      (fun (v, i) => part (list.entries.getD i rest) (.index i) v)
      (values.zipIdx.take list.length) := by
    refine Run.forEach_congr fun (v, i) h => ?_
    have hi : i < list.entries.length := by
      obtain ⟨j, hj, e⟩ := List.mem_take_iff_getElem.mp h
      simp only [List.getElem_zipIdx, Prod.mk.injEq] at e
      have hlen : list.length = list.entries.length := rfl
      omega
    show part (list.checkNth i) (.index i) v = part (list.entries.getD i rest) (.index i) v
    have hc := List.getElem?_eq_getElem hi
    rw [Listing.checkNth_of_getElem? hc, List.getD_eq_getElem?_getD, hc, Option.getD_some]
  have hr : Run.forEach (fun (v, i) => rest.part (.index i) v) (values.zipIdx.drop list.length) =
      Run.forEach (fun (v, i) => part (list.entries.getD i rest) (.index i) v)
        (values.zipIdx.drop list.length) := by
    refine Run.forEach_congr fun (v, i) h => ?_
    have hi : list.entries.length ≤ i := (mem_zipIdx_drop.mp h).1
    show part rest (.index i) v = part (list.entries.getD i rest) (.index i) v
    rw [List.getD_eq_getElem?_getD, List.getElem?_eq_none hi, Option.getD_none]
  rw [hl, hr, ← Run.forEach_append, List.take_append_drop, elements]

/-- A listing with a check for every element checks all of them. What stands for the checks past its
end is never used. -/
theorem leading_eq_elements {list : Listing Check} (rest : Check) {values : List Value}
    (h : values.length ≤ list.length) :
    leading list values = elements (fun i => list.entries.getD i rest) values := by
  have hdrop : values.zipIdx.drop list.length = [] := by
    rw [List.drop_eq_nil_iff, List.length_zipIdx]
    exact h
  have hpass := leading_andThen_rest list rest values
  rw [hdrop, Run.forEach, Run.andThen_accept] at hpass
  exact hpass

theorem tuple_eq_elements {list : Listing Check} (rest : Check) {values : List Value}
    (h : values.length = list.length) :
    tuple list (.present (.array values)) =
      elements (fun i => list.entries.getD i rest) values := by
  show (if values.length = list.length then _ else _ : Run) = _
  rw [if_pos h, leading_eq_elements rest (Nat.le_of_eq h)]

theorem restTuple_eq_elements {list : Listing Check} {rest : Check} {values : List Value}
    (h : list.length ≤ values.length) :
    restTuple list rest (.present (.array values)) =
      elements (fun i => list.entries.getD i rest) values := by
  show (if values.length < list.length then _ else _ : Run) = _
  rw [if_neg (Nat.not_lt.mpr h), leading_andThen_rest]

theorem restTuple_accepted_iff {list : Listing Check} {rest : Check} :
    (restTuple list rest x).verdict = .accepted ↔
      ∃ values, x = .present (.array values) ∧ list.length ≤ values.length ∧
        (∀ (i : Nat) (v : Value) (check : Check), values[i]? = some v →
          list.entries[i]? = some check → (check (.present v)).verdict = .accepted) ∧
        ∀ i v, list.length ≤ i → values[i]? = some v →
          (rest (.present v)).verdict = .accepted := by
  rw [restTuple, onItems_accepted_iff]
  refine exists_congr fun values => and_congr_right fun _ => ?_
  by_cases hl : values.length < list.length
  · simp [hl, Nat.not_le.mpr hl]
  have hle : list.length ≤ values.length := Nat.not_lt.mp hl
  rw [if_neg hl, Run.andThen_accepted_iff, leading_accepted_iff, Run.forEach_accepted_iff]
  constructor
  · intro h
    refine ⟨hle, h.1, fun i v hi hv => ?_⟩
    simpa using h.2 (v, i) (mem_zipIdx_drop.mpr ⟨hi, hv⟩)
  · intro h
    refine ⟨h.2.1, fun e hm => ?_⟩
    obtain ⟨hi, hv⟩ := mem_zipIdx_drop.mp hm
    simpa using h.2.2 e.2 e.1 hi hv

theorem restTuple_decided {list : Listing Check} {rest : Check} (hv : verdict ≠ .accepted)
    (h : (restTuple list rest x).verdict = verdict) :
    (verdict = .rejected (.mismatch .array x) ∧ ¬ x.HasKind .array) ∨
      ∃ values, x = .present (.array values) ∧
        ((verdict = .rejected (.lengthTooShort (.array values)) ∧ values.length < list.length) ∨
          ∃ i v, ∃ check : Check, values[i]? = some v ∧
            (list.entries[i]? = some check ∨ list.length ≤ i ∧ check = rest) ∧
            (check (.present v)).verdict.mapFailure (.invalidElement (.index i)) = verdict) := by
  refine (onItems_decided h).imp_right fun ⟨values, hx, h⟩ => ⟨values, hx, ?_⟩
  split at h
  · rename_i hl
    exact .inl ⟨h.symm, hl⟩
  · refine .inr ?_
    rcases (Run.andThen_decided_iff hv).mp h with h | ⟨-, h⟩
    · obtain ⟨i, v, check, hi, hc, h⟩ := leading_decided hv h
      exact ⟨i, v, check, hi, .inl hc, h⟩
    · obtain ⟨⟨v, i⟩, hm, h⟩ := Run.exists_mem_of_forEach_decided hv h
      obtain ⟨hn, hi⟩ := mem_zipIdx_drop.mp hm
      exact ⟨i, v, rest, hi, .inr ⟨hn, rfl⟩, by simpa using h⟩

/-! ## Combinations -/

/-- A union accepts where one alternative does, as long as none of them ends in a fault. -/
theorem union_accepted_iff {list : Listing Check}
    (hf : ∀ check ∈ list.entries, ∀ fault, (check x).verdict ≠ .faulted fault) :
    (union list x).verdict = .accepted ↔ ∃ check ∈ list.entries, (check x).verdict = .accepted := by
  rw [union_eq]
  constructor
  · intro h
    obtain ⟨before, decider, after, e, -, hd⟩ := (Run.firstAccepted_decided_iff (by simp)).mp h
    exact ⟨decider, e ▸ List.mem_append_right before List.mem_cons_self, hd⟩
  · rintro ⟨check, hm, ha⟩
    cases h : (Run.firstAccepted (fun check => check x) [] list.entries).verdict with
    | accepted => rfl
    | faulted fault =>
      obtain ⟨before, decider, after, e, -, hd⟩ := (Run.firstAccepted_decided_iff (by simp)).mp h
      exact absurd hd (hf decider (e ▸ List.mem_append_right before List.mem_cons_self) fault)
    | rejected failure =>
      obtain ⟨failures, hr, -⟩ := Run.firstAccepted_rejected_iff.mp h
      have hc : Verdict.accepted ∈ failures.map .rejected :=
        hr ▸ List.mem_map.mpr ⟨check, hm, ha⟩
      simp at hc

/-- A union rejects where all alternatives do, and keeps their failures in order. -/
theorem union_rejected_iff {list : Listing Check} {failure : Failure} :
    (union list x).verdict = .rejected failure ↔
      ∃ failures, list.entries.map (fun check => (check x).verdict) = failures.map .rejected ∧
        failure = .notUnion failures := by
  rw [union_eq, Run.firstAccepted_rejected_iff]
  rfl

theorem intersection_accepted_iff {list : Listing Check} :
    (intersection list x).verdict = .accepted ↔
      ∀ check ∈ list.entries, (check x).verdict = .accepted := by
  rw [intersection_eq, Run.forEach_accepted_iff]

theorem intersection_decided {list : Listing Check} (hv : verdict ≠ .accepted)
    (h : (intersection list x).verdict = verdict) :
    ∃ check ∈ list.entries, (check x).verdict = verdict := by
  rw [intersection_eq] at h
  exact Run.exists_mem_of_forEach_decided hv h

/-! ## Objects -/

theorem record_accepted_iff {keys values : Check} :
    (record keys values x).verdict = .accepted ↔
      ∃ entries, x = .present (.object entries) ∧ ∀ e ∈ entries,
        (keys (.present (.string e.1))).verdict = .accepted ∧
        (values (.present e.2)).verdict = .accepted := by
  rw [record, onEntries_accepted_iff]
  refine exists_congr fun entries => and_congr_right fun _ => ?_
  rw [Run.forEach_accepted_iff]
  refine forall₂_congr fun e _ => ?_
  rw [Run.andThen_accepted_iff]
  simp

theorem record_decided {keys values : Check} (hv : verdict ≠ .accepted)
    (h : (record keys values x).verdict = verdict) :
    (verdict = .rejected (.mismatch .object x) ∧ ¬ x.HasKind .object) ∨
      ∃ entries key v, x = .present (.object entries) ∧ (key, v) ∈ entries ∧
        ((keys (.present (.string key))).verdict.mapFailure .invalidKey = verdict ∨
          (values (.present v)).verdict.mapFailure (.invalidElement (.field key)) = verdict) := by
  refine (onEntries_decided h).imp_right fun ⟨entries, hx, h⟩ => ?_
  obtain ⟨⟨key, v⟩, hm, h⟩ := Run.exists_mem_of_forEach_decided hv h
  refine ⟨entries, key, v, hx, hm, ?_⟩
  rcases (Run.andThen_decided_iff hv).mp h with h | ⟨-, h⟩
  · exact .inl (by simpa using h)
  · exact .inr (by simpa using h)

theorem field_accepted_iff {entries : List (String × Value)} {f : Field Check} :
    (field entries f).verdict = .accepted ↔
      (∀ v, entries.lookup f.name = some v → (f.validator (.present v)).verdict = .accepted) ∧
      (entries.lookup f.name = none → f.presence = .optional) := by
  unfold field
  cases hl : entries.lookup f.name with
  | some v => simp
  | none => cases hp : f.presence <;> simp

theorem field_decided {entries : List (String × Value)} {f : Field Check}
    (hv : verdict ≠ .accepted) (h : (field entries f).verdict = verdict) :
    (verdict = .rejected (.notFound f.name) ∧ entries.lookup f.name = none ∧
        f.presence = .required) ∨
      ∃ v, entries.lookup f.name = some v ∧
        (f.validator (.present v)).verdict.mapFailure (.invalidElement (.field f.name)) =
          verdict := by
  unfold field at h
  cases hl : entries.lookup f.name with
  | some v =>
    rw [hl] at h
    exact .inr ⟨v, rfl, by simpa using h⟩
  | none =>
    rw [hl] at h
    cases hp : f.presence with
    | required =>
      rw [hp] at h
      exact .inl ⟨h.symm, rfl, rfl⟩
    | optional =>
      rw [hp] at h
      exact absurd h.symm hv

theorem object_accepted_iff {fields : List (Field Check)} :
    (object fields x).verdict = .accepted ↔
      ∃ entries, x = .present (.object entries) ∧ ∀ f ∈ fields,
        (∀ v, entries.lookup f.name = some v → (f.validator (.present v)).verdict = .accepted) ∧
        (entries.lookup f.name = none → f.presence = .optional) := by
  rw [object, onEntries_accepted_iff]
  refine exists_congr fun entries => and_congr_right fun _ => ?_
  rw [Run.forEach_accepted_iff]
  exact forall₂_congr fun f _ => field_accepted_iff

theorem object_decided {fields : List (Field Check)} (hv : verdict ≠ .accepted)
    (h : (object fields x).verdict = verdict) :
    (verdict = .rejected (.mismatch .object x) ∧ ¬ x.HasKind .object) ∨
      ∃ entries, ∃ f ∈ fields, x = .present (.object entries) ∧
        ((verdict = .rejected (.notFound f.name) ∧ entries.lookup f.name = none ∧
            f.presence = .required) ∨
          ∃ v, entries.lookup f.name = some v ∧
            (f.validator (.present v)).verdict.mapFailure (.invalidElement (.field f.name)) =
              verdict) := by
  refine (onEntries_decided h).imp_right fun ⟨entries, hx, h⟩ => ?_
  obtain ⟨f, hf, h⟩ := Run.exists_mem_of_forEach_decided hv h
  exact ⟨entries, f, hf, hx, field_decided hv h⟩

end Check

end JsonValidation
