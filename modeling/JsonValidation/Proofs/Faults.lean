import JsonValidation.Proofs.Guards

/-!
# Faults are faults of guards

A fault ends a check at once, so the last call that was made is to blame for it.

* `Run.FaultsBy`: a run that ends in a fault ends with a call to blame for it;
* `Schema.faultsBy`: this passes from the guards inside a schema to its check;
* `Schema.blames_of_faulted`: a check ends in a fault only by calling a predicate that gives up;
* `Schema.not_faulted`: a check ends in no fault in which no guard inside the schema ends.
-/

namespace JsonValidation

/-! ## Runs -/

namespace Run

/-- Whether a run that ends in a fault ends with a call to blame for it. -/
def FaultsBy (blame : Call → Fault → Prop) (run : Run) : Prop :=
  ∀ fault, run.verdict = .faulted fault →
    ∃ before call, run.calls = before ++ [call] ∧ blame call fault

variable {α : Type} {blame : Call → Fault → Prop} {run : Run} {step : α → Run} {members : List α}

theorem faultsBy_of_not_faulted (h : ∀ fault, run.verdict ≠ .faulted fault) : run.FaultsBy blame :=
  fun fault hv => absurd hv (h fault)

theorem FaultsBy.precededBy (h : run.FaultsBy blame) (calls : List Call) :
    (run.precededBy calls).FaultsBy blame := by
  intro fault hv
  obtain ⟨before, call, hc, hb⟩ := h fault hv
  exact ⟨calls ++ before, call, by simp [Run.precededBy, hc], hb⟩

theorem FaultsBy.andThen {first second : Run} (h₁ : first.FaultsBy blame)
    (h₂ : second.FaultsBy blame) : (first.andThen second).FaultsBy blame := by
  by_cases ha : first.verdict = .accepted
  · rw [andThen_of_accepted ha]
    exact h₂.precededBy first.calls
  · rw [andThen_of_not_accepted ha]
    exact h₁

theorem FaultsBy.mapFailure (h : run.FaultsBy blame) (wrap : Failure → Failure) :
    (run.mapFailure wrap).FaultsBy blame := by
  obtain ⟨calls, verdict⟩ := run
  cases verdict with
  | accepted | faulted => exact h
  | rejected failure => exact faultsBy_of_not_faulted (by simp [Run.mapFailure])

theorem forEach_faultsBy (h : ∀ a ∈ members, (step a).FaultsBy blame) :
    (forEach step members).FaultsBy blame := by
  induction members with
  | nil => exact faultsBy_of_not_faulted (by simp [forEach])
  | cons a rest ih =>
    obtain ⟨ha, hr⟩ := List.forall_mem_cons.mp h
    exact ha.andThen (ih hr)

theorem firstAccepted_faultsBy (h : ∀ a ∈ members, (step a).FaultsBy blame)
    (earlier : List Failure) : (firstAccepted step earlier members).FaultsBy blame := by
  induction members generalizing earlier with
  | nil => exact faultsBy_of_not_faulted (by simp [firstAccepted])
  | cons a rest ih =>
    obtain ⟨ha, hr⟩ := List.forall_mem_cons.mp h
    rw [firstAccepted]
    split
    · exact (ih hr _).precededBy _
    · exact ha

end Run

/-! ## Combinators -/

namespace Check

/-- Whether every run of a check that ends in a fault ends with a call to blame for it. -/
def FaultsBy (blame : Call → Fault → Prop) (check : Check) : Prop :=
  ∀ x, (check x).FaultsBy blame

variable {blame : Call → Fault → Prop} {check : Check} {list : Listing Check}

theorem FaultsBy.mono {blame' : Call → Fault → Prop} (h : check.FaultsBy blame)
    (hb : ∀ call fault, blame call fault → blame' call fault) : check.FaultsBy blame' := by
  intro x fault hv
  obtain ⟨before, call, hc, hc'⟩ := h x fault hv
  exact ⟨before, call, hc, hb call fault hc'⟩

theorem FaultsBy.part (h : check.FaultsBy blame) (segment : Segment) (v : Value) :
    (check.part segment v).FaultsBy blame :=
  (h (.present v)).mapFailure _

theorem onItems_faultsBy {run : List Value → Run} (h : ∀ values, (run values).FaultsBy blame) :
    (onItems run).FaultsBy blame := by
  intro x fault hv
  rcases onItems_decided hv with ⟨hv, -⟩ | ⟨values, rfl, hv⟩
  · cases hv
  · exact h values fault hv

theorem onEntries_faultsBy {run : List (String × Value) → Run}
    (h : ∀ entries, (run entries).FaultsBy blame) : (onEntries run).FaultsBy blame := by
  intro x fault hv
  rcases onEntries_decided hv with ⟨hv, -⟩ | ⟨entries, rfl, hv⟩
  · cases hv
  · exact h entries fault hv

theorem array_faultsBy (h : check.FaultsBy blame) : (array check).FaultsBy blame :=
  onItems_faultsBy fun _ => Run.forEach_faultsBy fun (v, _) _ => h.part _ v

theorem leading_faultsBy (h : ∀ check ∈ list.entries, check.FaultsBy blame) (values : List Value) :
    (leading list values).FaultsBy blame := by
  rw [leading_eq]
  refine Run.forEach_faultsBy fun ((v, i), check) hm => ?_
  exact (h check (List.mem_of_getElem? (mem_zipIdx_zip.mp hm).2)).part _ v

theorem tuple_faultsBy (h : ∀ check ∈ list.entries, check.FaultsBy blame) :
    (tuple list).FaultsBy blame := by
  refine onItems_faultsBy fun values => ?_
  split
  · exact leading_faultsBy h values
  · exact Run.faultsBy_of_not_faulted (by simp)

theorem restTuple_faultsBy {rest : Check} (h : ∀ check ∈ list.entries, check.FaultsBy blame)
    (hr : rest.FaultsBy blame) : (restTuple list rest).FaultsBy blame := by
  refine onItems_faultsBy fun values => ?_
  split
  · exact Run.faultsBy_of_not_faulted (by simp)
  · exact (leading_faultsBy h values).andThen (Run.forEach_faultsBy fun (v, _) _ => hr.part _ v)

theorem union_faultsBy (h : ∀ check ∈ list.entries, check.FaultsBy blame) :
    (union list).FaultsBy blame := by
  intro x
  rw [union_eq]
  exact Run.firstAccepted_faultsBy (fun check hm => h check hm x) []

theorem intersection_faultsBy (h : ∀ check ∈ list.entries, check.FaultsBy blame) :
    (intersection list).FaultsBy blame := by
  intro x
  rw [intersection_eq]
  exact Run.forEach_faultsBy fun check hm => h check hm x

theorem record_faultsBy {keys values : Check} (hk : keys.FaultsBy blame)
    (hv : values.FaultsBy blame) : (record keys values).FaultsBy blame :=
  onEntries_faultsBy fun _ => Run.forEach_faultsBy fun (key, v) _ =>
    ((hk (.present (.string key))).mapFailure _).andThen (hv.part _ v)

theorem object_faultsBy {fields : List (Field Check)}
    (h : ∀ f ∈ fields, f.validator.FaultsBy blame) : (object fields).FaultsBy blame := by
  refine onEntries_faultsBy fun entries => Run.forEach_faultsBy fun f hf => ?_
  unfold field
  split
  · exact (h f hf).part _ _
  · split <;> exact Run.faultsBy_of_not_faulted (by simp)

end Check

/-! ## Guards -/

namespace Guard

/-- Whether the predicate of a guard, called on an input, gives up with a message. -/
def GivesUp (guard : Guard) (x : Input) (message : String) : Prop :=
  match guard.test with
  | .onValue test => ∃ v, x = .present v ∧ test v = .error message
  | .onInput test => test x = .error message

/-- Whether a call is one of a guard whose predicate gives up on it, with a fault. -/
def Blames (guard : Guard) (call : Call) (fault : Fault) : Prop :=
  call.label = guard.label ∧ ∃ message, guard.GivesUp call.argument message ∧ fault = .guard message

theorem afterCall_faultsBy {guard : Guard} {x : Input} {answer : Except String Bool}
    (h : ∀ message, answer = .error message → guard.GivesUp x message) :
    (guard.afterCall x answer).FaultsBy guard.Blames := by
  intro fault hv
  rcases answer with message | (_ | _)
  · cases hv
    exact ⟨[], _, rfl, rfl, message, h message rfl, rfl⟩
  · cases hv
  · cases hv

theorem check_faultsBy (guard : Guard) : guard.check.FaultsBy guard.Blames := by
  intro x
  unfold check
  split
  · rename_i test v ht
    refine afterCall_faultsBy fun message hm => ?_
    rw [GivesUp, ht]
    exact ⟨v, rfl, hm⟩
  · exact Run.faultsBy_of_not_faulted (by simp)
  · rename_i test ht
    refine afterCall_faultsBy fun message hm => ?_
    rw [GivesUp, ht]
    exact hm

end Guard

namespace Schema

/-! ## Schemas -/

theorem forall_checks {schemas : List Schema} {P : Check → Prop} :
    (∀ check ∈ checks schemas, P check) ↔ ∀ s ∈ schemas, P s.check := by
  rw [checks_eq_map, List.forall_mem_map]

/-- Where each run of the guards inside a schema that ends in a fault ends with a call to blame for
it, so does each run of the schema. -/
theorem faultsBy {schema : Schema} {blame : Call → Fault → Prop}
    (hg : ∀ g ∈ schema.guards, g.check.FaultsBy blame) : schema.check.FaultsBy blame := by
  induction schema with
  | scalar kind =>
    intro x
    refine Run.faultsBy_of_not_faulted fun fault h => ?_
    cases (Check.ofKind_decided (by simp) h).1
  | undefined =>
    intro x
    cases x <;> exact Run.faultsBy_of_not_faulted (by simp [check, Check.undefined])
  | literal l =>
    intro x
    refine Run.faultsBy_of_not_faulted fun fault h => ?_
    cases Literal.check_decided (by simp) h
  | guard g => exact hg g List.mem_cons_self
  | array items ih => exact Check.array_faultsBy (ih hg)
  | tuple form elements ih =>
    rw [forall_guards_tuple] at hg
    exact Check.tuple_faultsBy (forall_checks.mpr fun s hs => ih s hs (hg s hs))
  | restTuple form leading rest ih ihRest =>
    rw [forall_guards_restTuple] at hg
    exact Check.restTuple_faultsBy (forall_checks.mpr fun s hs => ih s hs (hg.1 s hs))
      (ihRest hg.2)
  | union form first others ih =>
    rw [forall_guards_union] at hg
    have h : ∀ check ∈ checks (first :: others), check.FaultsBy blame :=
      forall_checks.mpr fun s hs => ih s hs (hg s hs)
    exact Check.union_faultsBy h
  | intersection form parts ih =>
    rw [forall_guards_intersection] at hg
    exact Check.intersection_faultsBy (forall_checks.mpr fun s hs => ih s hs (hg s hs))
  | record keys values ihKeys ihValues =>
    rw [forall_guards_record] at hg
    exact Check.record_faultsBy (ihKeys hg.1) (ihValues hg.2)
  | object fields ih =>
    rw [forall_guards_object] at hg
    refine Check.object_faultsBy fun field hf => ?_
    obtain ⟨f, hm, rfl⟩ := mem_fieldChecks.mp hf
    exact ih f hm (hg f hm)
  | readonly inner ih | branded brand inner ih | shared inner ih => exact ih hg

/-- A check ends in a fault only by calling the predicate of a guard inside its schema that gives up,
and this call is the last one. -/
theorem blames_of_faulted {schema : Schema} {x : Input} {fault : Fault}
    (h : (schema.check x).verdict = .faulted fault) :
    ∃ guard ∈ schema.guards, ∃ before call,
      (schema.check x).calls = before ++ [call] ∧ guard.Blames call fault := by
  have hb : schema.check.FaultsBy fun call fault => ∃ g ∈ schema.guards, g.Blames call fault :=
    faultsBy fun g hg => g.check_faultsBy.mono fun call fault h => ⟨g, hg, h⟩
  obtain ⟨before, call, hc, g, hg, hbl⟩ := hb x fault h
  exact ⟨g, hg, before, call, hc, hbl⟩

/-- A check ends in no fault in which no guard inside the schema ends. -/
theorem not_faulted {schema : Schema} {fault : Fault}
    (hg : ∀ g ∈ schema.guards, ∀ y, (g.check y).verdict ≠ .faulted fault) (x : Input) :
    (schema.check x).verdict ≠ .faulted fault := by
  have hb : schema.check.FaultsBy fun _ other => other ≠ fault := by
    refine faultsBy fun g hm y other hv => ?_
    obtain ⟨before, call, hc, -⟩ := g.check_faultsBy y other hv
    exact ⟨before, call, hc, fun e => hg g hm y (e ▸ hv)⟩
  intro h
  obtain ⟨before, call, -, hne⟩ := hb x fault h
  exact hne rfl

end Schema

end JsonValidation
