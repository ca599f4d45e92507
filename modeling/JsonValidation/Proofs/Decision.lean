import JsonValidation.Run

/-!
# What decides a run

A run of several steps ends as its deciding step does: the first step that does not accept where
all have to, and the first that does not reject where one has to.

* `Run.verdict_andThen`, `Run.verdict_mapFailure`: the verdict of a run put together from others;
* `Run.forEach_accepted_iff`, `Run.forEach_decided_iff`: the verdict of steps that all have to
  accept;
* `Run.firstAccepted_decided_iff`, `Run.firstAccepted_rejected_iff`: the verdict of steps of which
  one has to accept.
-/

namespace JsonValidation

/-- A verdict whose failure is wrapped. -/
def Verdict.mapFailure (wrap : Failure → Failure) : Verdict → Verdict
  | .rejected failure => .rejected (wrap failure)
  | verdict => verdict

namespace Verdict

variable {wrap : Failure → Failure} {verdict : Verdict}

@[simp] theorem mapFailure_eq_accepted :
    verdict.mapFailure wrap = .accepted ↔ verdict = .accepted := by
  cases verdict <;> simp [mapFailure]

theorem mapFailure_eq_rejected {failure : Failure} :
    verdict.mapFailure wrap = .rejected failure ↔
      ∃ inner, verdict = .rejected inner ∧ wrap inner = failure := by
  cases verdict <;> simp [mapFailure]

@[simp] theorem mapFailure_eq_faulted {fault : Fault} :
    verdict.mapFailure wrap = .faulted fault ↔ verdict = .faulted fault := by
  cases verdict <;> simp [mapFailure]

end Verdict

namespace Run

@[simp] theorem verdict_accept : accept.verdict = .accepted := rfl

@[simp] theorem verdict_reject (failure : Failure) : (reject failure).verdict = .rejected failure :=
  rfl

@[simp] theorem verdict_fault (f : Fault) : (fault f).verdict = .faulted f := rfl

@[simp] theorem verdict_precededBy (run : Run) (calls : List Call) :
    (run.precededBy calls).verdict = run.verdict := rfl

@[simp] theorem verdict_mapFailure (wrap : Failure → Failure) (run : Run) :
    (run.mapFailure wrap).verdict = run.verdict.mapFailure wrap := by
  obtain ⟨calls, verdict⟩ := run
  cases verdict <;> rfl

theorem andThen_of_accepted {first : Run} (h : first.verdict = .accepted) (second : Run) :
    first.andThen second = second.precededBy first.calls := by
  obtain ⟨calls, verdict⟩ := first
  cases h
  rfl

theorem andThen_of_not_accepted {first : Run} (h : first.verdict ≠ .accepted) (second : Run) :
    first.andThen second = first := by
  obtain ⟨calls, verdict⟩ := first
  cases verdict with
  | accepted => exact absurd rfl h
  | rejected | faulted => rfl

theorem andThen_accepted_iff {first second : Run} :
    (first.andThen second).verdict = .accepted ↔
      first.verdict = .accepted ∧ second.verdict = .accepted := by
  by_cases h : first.verdict = .accepted
  · simp [andThen_of_accepted h, h]
  · simp [andThen_of_not_accepted h, h]

/-- Two runs in a row end in another verdict where the first does, or where it accepts and the
second does. -/
theorem andThen_decided_iff {first second : Run} {verdict : Verdict} (hv : verdict ≠ .accepted) :
    (first.andThen second).verdict = verdict ↔
      first.verdict = verdict ∨ first.verdict = .accepted ∧ second.verdict = verdict := by
  by_cases h : first.verdict = .accepted
  · simp [andThen_of_accepted h, h, Ne.symm hv]
  · simp [andThen_of_not_accepted h, h]

/-! ## Steps that all have to accept -/

variable {α β : Type} {step : α → Run}

theorem forEach_congr {step' : α → Run} {members : List α}
    (h : ∀ a ∈ members, step a = step' a) : forEach step members = forEach step' members := by
  induction members with
  | nil => rfl
  | cons a rest ih =>
    rw [forEach, forEach, h a List.mem_cons_self, ih fun b hb => h b (List.mem_cons_of_mem a hb)]

theorem forEach_map (step : α → Run) (f : β → α) (members : List β) :
    forEach step (members.map f) = forEach (fun b => step (f b)) members := by
  induction members with
  | nil => rfl
  | cons b rest ih => rw [List.map_cons, forEach, forEach, ih]

/-- All members of several lists, one list after the other. -/
theorem forEach_flatMap (step : α → Run) (f : β → List α) (members : List β) :
    forEach step (members.flatMap f) = forEach (fun b => forEach step (f b)) members := by
  induction members with
  | nil => rfl
  | cons b rest ih => rw [List.flatMap_cons, forEach_append, ih, forEach]

theorem forEach_accepted_iff {members : List α} :
    (forEach step members).verdict = .accepted ↔ ∀ a ∈ members, (step a).verdict = .accepted := by
  induction members with
  | nil => simp [forEach]
  | cons a rest ih => rw [forEach, andThen_accepted_iff, ih, List.forall_mem_cons]

/-- The first step that does not accept decides: all before it have accepted, and what comes after
it has no influence. -/
theorem forEach_decided_iff {members : List α} {verdict : Verdict} (hv : verdict ≠ .accepted) :
    (forEach step members).verdict = verdict ↔
      ∃ before decider after, members = before ++ decider :: after ∧
        (∀ b ∈ before, (step b).verdict = .accepted) ∧ (step decider).verdict = verdict := by
  induction members with
  | nil => simp [forEach, Ne.symm hv]
  | cons a rest ih =>
    rw [forEach, andThen_decided_iff hv, ih]
    constructor
    · rintro (h | ⟨ha, before, decider, after, rfl, hb, hd⟩)
      · exact ⟨[], a, rest, rfl, fun b hb => absurd hb List.not_mem_nil, h⟩
      · exact ⟨a :: before, decider, after, rfl, List.forall_mem_cons.mpr ⟨ha, hb⟩, hd⟩
    · rintro ⟨before, decider, after, e, hb, hd⟩
      cases before with
      | nil =>
        obtain ⟨rfl, -⟩ := List.cons_eq_cons.mp e
        exact .inl hd
      | cons b before =>
        obtain ⟨rfl, rfl⟩ := List.cons_eq_cons.mp e
        obtain ⟨ha, hb⟩ := List.forall_mem_cons.mp hb
        exact .inr ⟨ha, before, decider, after, rfl, hb, hd⟩

/-- What comes after a step that does not accept has no influence on the run, not on its calls
either. -/
theorem forEach_append_of_decided {before after : List α} {decider : α}
    (hd : (step decider).verdict ≠ .accepted) :
    forEach step (before ++ decider :: after) = forEach step (before ++ [decider]) := by
  rw [forEach_append, forEach_append, forEach, forEach, andThen_of_not_accepted hd,
    andThen_of_not_accepted hd]

/-- A run with a first step that does not accept makes the calls of the steps up to it, and ends as it
does. -/
theorem forEach_of_decided {before after : List α} {decider : α}
    (hb : ∀ b ∈ before, (step b).verdict = .accepted) (hd : (step decider).verdict ≠ .accepted) :
    forEach step (before ++ decider :: after) =
      ⟨(before ++ [decider]).flatMap fun a => (step a).calls, (step decider).verdict⟩ := by
  induction before with
  | nil =>
    rw [List.nil_append, forEach, andThen_of_not_accepted hd, List.nil_append,
      List.flatMap_singleton]
  | cons b before ih =>
    obtain ⟨ha, hb⟩ := List.forall_mem_cons.mp hb
    rw [List.cons_append, forEach, ih hb, andThen_of_accepted ha, List.cons_append,
      List.flatMap_cons]
    rfl

theorem exists_mem_of_forEach_decided {members : List α} {verdict : Verdict}
    (hv : verdict ≠ .accepted) (h : (forEach step members).verdict = verdict) :
    ∃ a ∈ members, (step a).verdict = verdict := by
  obtain ⟨before, decider, after, rfl, -, hd⟩ := (forEach_decided_iff hv).mp h
  exact ⟨decider, List.mem_append_right before List.mem_cons_self, hd⟩

/-! ## Steps of which one has to accept -/

theorem firstAccepted_congr {step' : α → Run} {members : List α}
    (h : ∀ a ∈ members, step a = step' a) (earlier : List Failure) :
    firstAccepted step earlier members = firstAccepted step' earlier members := by
  induction members generalizing earlier with
  | nil => rfl
  | cons a rest ih =>
    simp only [firstAccepted, h a List.mem_cons_self,
      ih fun b hb => h b (List.mem_cons_of_mem a hb)]

theorem firstAccepted_map (step : α → Run) (f : β → α) (earlier : List Failure) (members : List β) :
    firstAccepted step earlier (members.map f) =
      firstAccepted (fun b => step (f b)) earlier members := by
  induction members generalizing earlier with
  | nil => rfl
  | cons b rest ih => simp only [List.map_cons, firstAccepted, ih]

/-- One more step: it decides unless it rejects, and then its failure is kept for the end. -/
theorem firstAccepted_cons (a : α) (rest : List α) (earlier : List Failure) :
    (firstAccepted step earlier (a :: rest)).verdict =
      match (step a).verdict with
      | .rejected failure => (firstAccepted step (earlier ++ [failure]) rest).verdict
      | verdict => verdict := by
  rw [firstAccepted]
  obtain ⟨calls, verdict⟩ := step a
  cases verdict <;> rfl

theorem firstAccepted_cons_of_rejected {a : α} {failure : Failure}
    (ha : (step a).verdict = .rejected failure) (rest : List α) (earlier : List Failure) :
    firstAccepted step earlier (a :: rest) =
      (firstAccepted step (earlier ++ [failure]) rest).precededBy (step a).calls := by
  rw [firstAccepted]
  split
  · rename_i calls other h
    rw [h] at ha ⊢
    cases ha
    rfl
  · rename_i hn
    exact absurd (show step a = ⟨(step a).calls, .rejected failure⟩ from ha ▸ rfl) (hn _ _)

theorem firstAccepted_cons_of_decided {a : α} (ha : ∀ failure, (step a).verdict ≠ .rejected failure)
    (rest : List α) (earlier : List Failure) : firstAccepted step earlier (a :: rest) = step a := by
  rw [firstAccepted]
  split
  · rename_i calls failure h
    exact absurd (congrArg verdict h) (ha failure)
  · rfl

/-- What comes after a step that does not reject has no influence on the run, not on its calls
either. -/
theorem firstAccepted_append_of_decided {before after : List α} {decider : α}
    (hd : ∀ failure, (step decider).verdict ≠ .rejected failure) (earlier : List Failure) :
    firstAccepted step earlier (before ++ decider :: after) =
      firstAccepted step earlier (before ++ [decider]) := by
  induction before generalizing earlier with
  | nil =>
    rw [List.nil_append, List.nil_append, firstAccepted_cons_of_decided hd,
      firstAccepted_cons_of_decided hd]
  | cons b before ih => simp only [List.cons_append, firstAccepted, ih]

/-- A run with a first step that does not reject makes the calls of the steps up to it, and ends as it
does. -/
theorem firstAccepted_of_decided {before after : List α} {decider : α}
    (hb : ∀ b ∈ before, ∃ failure, (step b).verdict = .rejected failure)
    (hd : ∀ failure, (step decider).verdict ≠ .rejected failure) (earlier : List Failure) :
    firstAccepted step earlier (before ++ decider :: after) =
      ⟨(before ++ [decider]).flatMap fun a => (step a).calls, (step decider).verdict⟩ := by
  induction before generalizing earlier with
  | nil =>
    rw [List.nil_append, firstAccepted_cons_of_decided hd, List.nil_append,
      List.flatMap_singleton]
  | cons b before ih =>
    obtain ⟨⟨failure, hr⟩, hb⟩ := List.forall_mem_cons.mp hb
    rw [List.cons_append, firstAccepted_cons_of_rejected hr, ih hb, List.cons_append,
      List.flatMap_cons]
    rfl

/-- Steps that all reject make their calls, and keep their failures for what comes after them. -/
theorem firstAccepted_append_of_rejected {members : List α} {failures : List Failure}
    (h : members.map (fun a => (step a).verdict) = failures.map .rejected)
    (earlier : List Failure) (after : List α) :
    firstAccepted step earlier (members ++ after) =
      (firstAccepted step (earlier ++ failures) after).precededBy
        (members.flatMap fun a => (step a).calls) := by
  induction members generalizing earlier failures with
  | nil =>
    cases failures with
    | nil => simp
    | cons => cases h
  | cons a rest ih =>
    cases failures with
    | nil => cases h
    | cons failure failures =>
      obtain ⟨ha, hr⟩ := List.cons_eq_cons.mp h
      rw [List.cons_append, firstAccepted_cons_of_rejected ha, ih hr, precededBy_precededBy,
        List.flatMap_cons, List.append_assoc, List.singleton_append]

/-- A run of steps that all reject makes their calls and keeps their failures. -/
theorem firstAccepted_of_rejected {members : List α} {failures : List Failure}
    (h : members.map (fun a => (step a).verdict) = failures.map .rejected)
    (earlier : List Failure) :
    firstAccepted step earlier members =
      ⟨members.flatMap fun a => (step a).calls, .rejected (.notUnion (earlier ++ failures))⟩ := by
  have ha := firstAccepted_append_of_rejected h earlier []
  rwa [List.append_nil, firstAccepted, precededBy, reject, List.append_nil] at ha

/-- The first step that does not reject decides: all before it have rejected. -/
theorem firstAccepted_decided_iff {members : List α} {earlier : List Failure} {verdict : Verdict}
    (hv : ∀ failure, verdict ≠ .rejected failure) :
    (firstAccepted step earlier members).verdict = verdict ↔
      ∃ before decider after, members = before ++ decider :: after ∧
        (∀ b ∈ before, ∃ failure, (step b).verdict = .rejected failure) ∧
        (step decider).verdict = verdict := by
  induction members generalizing earlier with
  | nil => simp [firstAccepted, Ne.symm (hv _)]
  | cons a rest ih =>
    rw [firstAccepted_cons]
    constructor
    · intro h
      split at h
      · rename_i failure ha
        obtain ⟨before, decider, after, rfl, hb, hd⟩ := ih.mp h
        exact ⟨a :: before, decider, after, rfl, List.forall_mem_cons.mpr ⟨⟨failure, ha⟩, hb⟩, hd⟩
      · exact ⟨[], a, rest, rfl, fun b hb => absurd hb List.not_mem_nil, h⟩
    · rintro ⟨before, decider, after, e, hb, hd⟩
      cases before with
      | nil =>
        obtain ⟨rfl, -⟩ := List.cons_eq_cons.mp e
        rw [hd]
        cases verdict with
        | rejected failure => exact absurd rfl (hv failure)
        | accepted | faulted => rfl
      | cons b before =>
        obtain ⟨rfl, rfl⟩ := List.cons_eq_cons.mp e
        obtain ⟨⟨failure, ha⟩, hb⟩ := List.forall_mem_cons.mp hb
        rw [ha]
        exact ih.mpr ⟨before, decider, after, rfl, hb, hd⟩

/-- When all steps reject, their failures are kept in their order. -/
theorem firstAccepted_rejected_iff {members : List α} {earlier : List Failure} {failure : Failure} :
    (firstAccepted step earlier members).verdict = .rejected failure ↔
      ∃ failures, members.map (fun a => (step a).verdict) = failures.map .rejected ∧
        failure = .notUnion (earlier ++ failures) := by
  induction members generalizing earlier with
  | nil => simp [firstAccepted, eq_comm]
  | cons a rest ih =>
    rw [firstAccepted_cons]
    constructor
    · intro h
      split at h
      · rename_i first ha
        obtain ⟨failures, hr, rfl⟩ := ih.mp h
        exact ⟨first :: failures, by rw [List.map_cons, ha, hr, List.map_cons], by simp⟩
      · rename_i hn
        exact absurd h (hn failure)
    · rintro ⟨failures, e, rfl⟩
      cases failures with
      | nil => cases e
      | cons first failures =>
        obtain ⟨ha, hr⟩ : (step a).verdict = .rejected first ∧ _ := List.cons_eq_cons.mp e
        rw [ha]
        exact ih.mpr ⟨failures, hr, by simp⟩

/-- Either all steps reject, or there is a first one that does not. -/
theorem all_rejected_or_decided (step : α → Run) (members : List α) :
    (∃ failures : List Failure,
      members.map (fun a => (step a).verdict) = failures.map .rejected) ∨
      ∃ before decider after, members = before ++ decider :: after ∧
        (∀ b ∈ before, ∃ failure, (step b).verdict = .rejected failure) ∧
        ∀ failure, (step decider).verdict ≠ .rejected failure := by
  by_cases h : ∃ failure, (firstAccepted step [] members).verdict = .rejected failure
  · obtain ⟨failure, h⟩ := h
    obtain ⟨failures, hr, -⟩ := firstAccepted_rejected_iff.mp h
    exact .inl ⟨failures, hr⟩
  · have hv := not_exists.mp h
    obtain ⟨before, decider, after, e, hb, hd⟩ := (firstAccepted_decided_iff hv).mp rfl
    exact .inr ⟨before, decider, after, e, hb, hd ▸ hv⟩

end Run

end JsonValidation
