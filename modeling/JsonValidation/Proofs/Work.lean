import Mathlib.Algebra.BigOperators.Ring.List
import Mathlib.Algebra.Order.BigOperators.Group.List
import Mathlib.Algebra.Order.Ring.Nat
import JsonValidation.Proofs.Guards

/-!
# The work of a check

All code of the caller that a check runs is in the predicates of guards, so the calls it makes are its
work. A check calls predicates only on what its input holds, and each guard at most once for every
value in the input, however the check ends:

* `Input.parts`, `Input.size`: the values inside an input, and how many there are;
* `Input.Holds`: the inputs that can be found in an input, its parts and its keys;
* `Run.Within`: a run that calls predicates only on some inputs, and only so many times;
* `Schema.calls_bounded`: the calls of a schema.
-/

namespace JsonValidation

/-! ## Parts -/

mutual

/-- The values inside a value, itself first. -/
def Value.parts : Value → List Value
  | .array items => .array items :: Value.partsOfItems items
  | .object entries => .object entries :: Value.partsOfEntries entries
  | v => [v]

/-- The values inside the values of a list. -/
def Value.partsOfItems : List Value → List Value
  | [] => []
  | v :: rest => v.parts ++ Value.partsOfItems rest

/-- The values inside the values of entries. -/
def Value.partsOfEntries : List (String × Value) → List Value
  | [] => []
  | (_, v) :: rest => v.parts ++ Value.partsOfEntries rest

end

namespace Value

/-- The number of values inside a value, itself included. -/
def size (v : Value) : Nat := v.parts.length

theorem partsOfItems_eq (items : List Value) : partsOfItems items = items.flatMap parts := by
  induction items with
  | nil => rfl
  | cons v rest ih => rw [partsOfItems, ih, List.flatMap_cons]

theorem partsOfEntries_eq (entries : List (String × Value)) :
    partsOfEntries entries = entries.flatMap fun e => e.2.parts := by
  induction entries with
  | nil => rfl
  | cons e rest ih => rw [partsOfEntries, ih, List.flatMap_cons]

theorem self_mem_parts (v : Value) : v ∈ v.parts := by
  cases v <;> exact List.mem_cons_self

theorem mem_parts_array {items : List Value} {v w : Value} (hv : v ∈ items) (hw : w ∈ v.parts) :
    w ∈ (array items).parts := by
  rw [parts, partsOfItems_eq]
  exact List.mem_cons_of_mem _ (List.mem_flatMap_of_mem hv hw)

theorem mem_parts_object {entries : List (String × Value)} {e : String × Value} {w : Value}
    (he : e ∈ entries) (hw : w ∈ e.2.parts) : w ∈ (object entries).parts := by
  rw [parts, partsOfEntries_eq]
  exact List.mem_cons_of_mem _ (List.mem_flatMap_of_mem (f := fun e => e.2.parts) he hw)

theorem size_array (items : List Value) : (array items).size = (items.map size).sum + 1 := by
  rw [size, parts, partsOfItems_eq, List.length_cons, List.length_flatMap]
  rfl

theorem size_object (entries : List (String × Value)) :
    (object entries).size = (entries.map fun e => e.2.size).sum + 1 := by
  rw [size, parts, partsOfEntries_eq, List.length_cons, List.length_flatMap]
  rfl

/-- The value of an entry is smaller than the object. -/
theorem size_le_of_entry {entries : List (String × Value)} {e : String × Value} (he : e ∈ entries) :
    e.2.size ≤ (object entries).size := by
  rw [size_object]
  exact Nat.le_succ_of_le (List.le_sum_of_mem (List.mem_map_of_mem (f := fun e => e.2.size) he))

theorem size_pos (v : Value) : 0 < v.size :=
  List.length_pos_of_mem v.self_mem_parts

end Value

namespace Input

/-- The inputs inside an input, itself first. -/
def parts : Input → List Input
  | .absent => [.absent]
  | .present v => v.parts.map .present

/-- The number of inputs inside an input, itself included. -/
def size (x : Input) : Nat := x.parts.length

/-- Whether something can be found in an input: a part of it, or a key of an object among its parts,
as a string. -/
inductive Holds (x : Input) : Input → Prop where
  | part {y : Input} (mem : y ∈ x.parts) : Holds x y
  | key {entries : List (String × Value)} {key : String}
    (mem : .present (.object entries) ∈ x.parts) (key_mem : key ∈ entries.map Prod.fst) :
    Holds x (.present (.string key))

theorem size_present (v : Value) : (present v).size = v.size :=
  List.length_map ..

theorem size_pos (x : Input) : 0 < x.size := by
  cases x with
  | absent => exact Nat.one_pos
  | present v => exact size_present v ▸ v.size_pos

theorem holds_self (x : Input) : x.Holds x := by
  cases x with
  | absent => exact .part List.mem_cons_self
  | present v => exact .part (List.mem_map_of_mem v.self_mem_parts)

/-- Only the absent input holds absence, and it holds nothing else. -/
theorem Holds.absent_iff {x y : Input} (h : x.Holds y) : y = .absent ↔ x = .absent := by
  cases x with
  | absent => cases h with
    | part mem => exact ⟨fun _ => rfl, fun _ => List.mem_singleton.mp mem⟩
    | key mem => cases List.mem_singleton.mp mem
  | present v => cases h with
    | part mem =>
      obtain ⟨w, -, rfl⟩ := List.mem_map.mp mem
      exact ⟨nofun, nofun⟩
    | key => exact ⟨nofun, nofun⟩

/-- What a value holds is held by every value all of whose parts the other has. -/
theorem Holds.of_parts {v w : Value} (hs : ∀ u ∈ v.parts, u ∈ w.parts) {y : Input}
    (h : (present v).Holds y) : (present w).Holds y := by
  have hm : ∀ y ∈ (present v).parts, y ∈ (present w).parts := by
    intro y hy
    obtain ⟨u, hu, rfl⟩ := List.mem_map.mp hy
    exact List.mem_map_of_mem (hs u hu)
  cases h with
  | part mem => exact .part (hm _ mem)
  | key mem key_mem => exact .key (hm _ mem) key_mem

theorem Holds.of_item {items : List Value} {v : Value} (hv : v ∈ items) {y : Input}
    (h : (present v).Holds y) : (present (.array items)).Holds y :=
  h.of_parts fun _ => Value.mem_parts_array hv

theorem Holds.of_entry {entries : List (String × Value)} {e : String × Value} (he : e ∈ entries)
    {y : Input} (h : (present e.2).Holds y) : (present (.object entries)).Holds y :=
  h.of_parts fun _ => Value.mem_parts_object he

/-- A key is all that its own string holds. -/
theorem Holds.of_key {entries : List (String × Value)} {e : String × Value} (he : e ∈ entries)
    {y : Input} (h : (present (.string e.1)).Holds y) : (present (.object entries)).Holds y := by
  have hm : ∀ y ∈ (present (.string e.1)).parts, y = .present (.string e.1) :=
    fun y hy => List.mem_singleton.mp hy
  cases h with
  | part mem =>
    rw [hm y mem]
    exact .key (List.mem_map_of_mem (Value.self_mem_parts _)) (List.mem_map_of_mem he)
  | key mem => cases hm _ mem

end Input

/-! ## Runs -/

/-- Whether a run calls predicates only on some inputs, and at most so many times. -/
structure Run.Within (run : Run) (holds : Input → Prop) (bound : Nat) : Prop where
  argument : ∀ call ∈ run.calls, holds call.argument
  length_le : run.calls.length ≤ bound

namespace Run

variable {α : Type} {run : Run} {holds : Input → Prop} {bound : Nat} {step : α → Run}
  {members : List α} {boundOf : α → Nat}

theorem within_of_calls_eq_nil (h : run.calls = []) : run.Within holds bound := by
  constructor
  · rw [h]
    exact fun call hc => absurd hc List.not_mem_nil
  · rw [h]
    exact Nat.zero_le bound

theorem Within.mono {holds' : Input → Prop} {bound' : Nat} (h : run.Within holds bound)
    (hh : ∀ x, holds x → holds' x) (hb : bound ≤ bound') : run.Within holds' bound' :=
  ⟨fun call hc => hh call.argument (h.argument call hc), Nat.le_trans h.length_le hb⟩

theorem Within.precededBy {first second : Run} {n : Nat} (h : first.Within holds bound)
    (h' : second.Within holds n) : (second.precededBy first.calls).Within holds (bound + n) := by
  constructor
  · intro call hc
    rcases List.mem_append.mp hc with hc | hc
    · exact h.argument call hc
    · exact h'.argument call hc
  · calc (first.calls ++ second.calls).length
        = first.calls.length + second.calls.length := List.length_append
      _ ≤ bound + n := Nat.add_le_add h.length_le h'.length_le

theorem Within.andThen {first second : Run} {n : Nat} (h : first.Within holds bound)
    (h' : second.Within holds n) : (first.andThen second).Within holds (bound + n) := by
  by_cases ha : first.verdict = .accepted
  · rw [andThen_of_accepted ha]
    exact h.precededBy h'
  · rw [andThen_of_not_accepted ha]
    exact h.mono (fun _ hx => hx) (Nat.le_add_right bound n)

theorem Within.mapFailure (h : run.Within holds bound) (wrap : Failure → Failure) :
    (run.mapFailure wrap).Within holds bound := by
  obtain ⟨calls, verdict⟩ := run
  cases verdict <;> exact ⟨h.argument, h.length_le⟩

theorem forEach_within (h : ∀ a ∈ members, (step a).Within holds (boundOf a)) :
    (forEach step members).Within holds (members.map boundOf).sum := by
  induction members with
  | nil => exact within_of_calls_eq_nil rfl
  | cons a rest ih =>
    obtain ⟨ha, hr⟩ := List.forall_mem_cons.mp h
    rw [List.map_cons, List.sum_cons]
    exact ha.andThen (ih hr)

theorem firstAccepted_within (h : ∀ a ∈ members, (step a).Within holds (boundOf a))
    (earlier : List Failure) :
    (firstAccepted step earlier members).Within holds (members.map boundOf).sum := by
  induction members generalizing earlier with
  | nil => exact within_of_calls_eq_nil rfl
  | cons a rest ih =>
    obtain ⟨ha, hr⟩ := List.forall_mem_cons.mp h
    rw [List.map_cons, List.sum_cons]
    by_cases hf : ∃ failure, (step a).verdict = .rejected failure
    · obtain ⟨failure, hf⟩ := hf
      rw [firstAccepted_cons_of_rejected hf]
      exact ha.precededBy (ih hr _)
    · rw [firstAccepted_cons_of_decided (not_exists.mp hf)]
      exact ha.mono (fun _ hx => hx) (Nat.le_add_right _ _)

end Run

/-! ## Combinators -/

namespace Check

/-- Whether a check calls predicates only on what its input holds, and at most `weight` times for each
value in it. -/
def Within (check : Check) (weight : Nat) : Prop :=
  ∀ x : Input, (check x).Within x.Holds (weight * x.size)

variable {α : Type} {check : Check} {list : Listing Check} {weight : Nat}

theorem Within.mono {weight' : Nat} (h : check.Within weight) (hw : weight ≤ weight') :
    check.Within weight' :=
  fun x => (h x).mono (fun _ hx => hx) (Nat.mul_le_mul_right x.size hw)

theorem within_of_calls_eq_nil (h : ∀ x, (check x).calls = []) : check.Within weight :=
  fun x => Run.within_of_calls_eq_nil (h x)

theorem Within.part (h : check.Within weight) (segment : Segment) (v : Value) :
    (check.part segment v).Within (Input.present v).Holds (weight * v.size) :=
  Input.size_present v ▸ (h (.present v)).mapFailure _

theorem onItems_within {run : List Value → Run}
    (h : ∀ items, (run items).Within (Input.present (.array items)).Holds
      (weight * (Value.array items).size)) : (onItems run).Within weight := by
  intro x
  cases x with
  | absent => exact Run.within_of_calls_eq_nil rfl
  | present v => cases v with
    | array items => exact Input.size_present _ ▸ h items
    | null | boolean | number | string | object => exact Run.within_of_calls_eq_nil rfl

theorem onEntries_within {run : List (String × Value) → Run}
    (h : ∀ entries, (run entries).Within (Input.present (.object entries)).Holds
      (weight * (Value.object entries).size)) : (onEntries run).Within weight := by
  intro x
  cases x with
  | absent => exact Run.within_of_calls_eq_nil rfl
  | present v => cases v with
    | object entries => exact Input.size_present _ ▸ h entries
    | null | boolean | number | string | array => exact Run.within_of_calls_eq_nil rfl

/-! ### Arrays -/

/-- Every element is checked once, so the bounds for the elements add up to one for the array. -/
theorem elements_within {checkAt : Nat → Check} (h : ∀ i, (checkAt i).Within weight)
    (items : List Value) :
    (elements checkAt items).Within
      (Input.present (.array items)).Holds (weight * (Value.array items).size) := by
  have hm : ∀ e ∈ items.zipIdx, ((checkAt e.2).part (.index e.2) e.1).Within
      (Input.present (.array items)).Holds (weight * e.1.size) := by
    intro e he
    have hv : e.1 ∈ items := List.mem_of_getElem? (List.mem_zipIdx_iff_getElem?.mp he)
    exact ((h e.2).part _ e.1).mono (fun _ hx => hx.of_item hv) (Nat.le_refl _)
  refine (Run.forEach_within hm).mono (fun _ hx => hx) ?_
  calc (items.zipIdx.map fun e => weight * e.1.size).sum
      = weight * ((items.zipIdx.map Prod.fst).map Value.size).sum := by
        rw [List.sum_map_mul_left, List.map_map]
        rfl
    _ = weight * (items.map Value.size).sum := by rw [List.zipIdx_map_fst]
    _ ≤ weight * (Value.array items).size := by
        rw [Value.size_array]
        exact Nat.mul_le_mul_left weight (Nat.le_succ _)

theorem array_within (h : check.Within weight) : (array check).Within weight :=
  onItems_within (elements_within fun _ => h)

theorem undefined_within : undefined.Within weight :=
  within_of_calls_eq_nil fun x => by cases x <;> rfl

theorem tuple_within (h : ∀ check ∈ list.entries, check.Within weight) :
    (tuple list).Within weight := by
  refine onItems_within fun items => ?_
  split
  · rename_i hl
    rw [leading_eq_elements undefined (Nat.le_of_eq hl)]
    exact elements_within (forall_getD h undefined_within) items
  · exact Run.within_of_calls_eq_nil rfl

theorem restTuple_within (h : ∀ check ∈ list.entries, check.Within weight) {rest : Check}
    (hr : rest.Within weight) : (restTuple list rest).Within weight := by
  refine onItems_within fun items => ?_
  split
  · exact Run.within_of_calls_eq_nil rfl
  · rw [leading_andThen_rest]
    exact elements_within (forall_getD h hr) items

/-! ### Objects -/

/-- A key has no parts, so its check makes no more calls than one value allows. -/
theorem record_within {keys values : Check} {keyWeight valueWeight : Nat}
    (hk : keys.Within keyWeight) (hv : values.Within valueWeight) :
    (record keys values).Within (keyWeight + valueWeight) := by
  refine onEntries_within fun entries => ?_
  have hm : ∀ e ∈ entries, (((keys (.present (.string e.1))).mapFailure .invalidKey).andThen
      (values.part (.field e.1) e.2)).Within (Input.present (.object entries)).Holds
        ((keyWeight + valueWeight) * e.2.size) := by
    intro e he
    have hke := ((hk (.present (.string e.1))).mapFailure .invalidKey).mono
      (fun _ hx => hx.of_key he) (Nat.le_refl _)
    have hve := (hv.part (.field e.1) e.2).mono (fun _ hx => hx.of_entry he) (Nat.le_refl _)
    refine (hke.andThen hve).mono (fun _ hx => hx) ?_
    calc keyWeight * 1 + valueWeight * e.2.size
        ≤ keyWeight * e.2.size + valueWeight * e.2.size :=
          Nat.add_le_add_right (Nat.mul_le_mul_left keyWeight e.2.size_pos) _
      _ = (keyWeight + valueWeight) * e.2.size := (Nat.add_mul ..).symm
  refine (Run.forEach_within hm).mono (fun _ hx => hx) ?_
  calc (entries.map fun e => (keyWeight + valueWeight) * e.2.size).sum
      = (keyWeight + valueWeight) * (entries.map fun e => e.2.size).sum :=
        List.sum_map_mul_left ..
    _ ≤ (keyWeight + valueWeight) * (Value.object entries).size := by
        rw [Value.size_object]
        exact Nat.mul_le_mul_left _ (Nat.le_succ _)

section Members

variable {α : Type} {members : List α} {weightOf : α → Nat}

/-- Every field is checked on one part of the object, which is no larger than the object. -/
theorem object_within {fieldOf : α → Field Check}
    (h : ∀ a ∈ members, (fieldOf a).validator.Within (weightOf a)) :
    (object (members.map fieldOf)).Within (members.map weightOf).sum := by
  refine onEntries_within fun entries => ?_
  have hm : ∀ a ∈ members, (field entries (fieldOf a)).Within
      (Input.present (.object entries)).Holds (weightOf a * (Value.object entries).size) := by
    intro a ha
    rw [field]
    split
    · rename_i v hl
      have hv := mem_of_lookup hl
      have hs : v.size ≤ (Value.object entries).size := Value.size_le_of_entry hv
      exact ((h a ha).part _ v).mono (fun _ hx => hx.of_entry hv) (Nat.mul_le_mul_left _ hs)
    · split <;> exact Run.within_of_calls_eq_nil rfl
  rw [Run.forEach_map, ← List.sum_map_mul_right]
  exact Run.forEach_within hm

/-- All members of a combination are checked on the same input. -/
theorem union_within {form : ListForm} {checkOf : α → Check}
    (h : ∀ a ∈ members, (checkOf a).Within (weightOf a)) :
    (union ⟨form, members.map checkOf⟩).Within (members.map weightOf).sum := by
  intro x
  rw [union_eq, Run.firstAccepted_map, ← List.sum_map_mul_right]
  exact Run.firstAccepted_within (fun a ha => h a ha x) []

theorem intersection_within {form : ListForm} {checkOf : α → Check}
    (h : ∀ a ∈ members, (checkOf a).Within (weightOf a)) :
    (intersection ⟨form, members.map checkOf⟩).Within (members.map weightOf).sum := by
  intro x
  rw [intersection_eq, Run.forEach_map, ← List.sum_map_mul_right]
  exact Run.forEach_within fun a ha => h a ha x

end Members

end Check

/-! ## Guards and schemas -/

theorem Guard.check_within (guard : Guard) : guard.check.Within 1 := by
  intro x
  have hc (answer : Except String Bool) :
      (guard.afterCall x answer).Within x.Holds (1 * x.size) := by
    constructor
    · intro call hm
      obtain rfl := List.mem_singleton.mp hm
      exact x.holds_self
    · rw [Nat.one_mul]
      exact x.size_pos
  unfold check
  split
  · exact hc _
  · exact Run.within_of_calls_eq_nil rfl
  · exact hc _

theorem Literal.check_within (literal : Literal) {weight : Nat} : literal.check.Within weight := by
  refine Check.within_of_calls_eq_nil fun x => ?_
  rw [check]
  split <;> rfl

namespace Schema

theorem length_guardsOfAll (schemas : List Schema) :
    (guardsOfAll schemas).length = (schemas.map fun s => s.guards.length).sum := by
  rw [guardsOfAll_eq, List.length_flatMap]

theorem length_guards_le {schemas : List Schema} {s : Schema} (h : s ∈ schemas) :
    s.guards.length ≤ (guardsOfAll schemas).length := by
  rw [length_guardsOfAll]
  exact List.le_sum_of_mem (List.mem_map_of_mem h)

/-- A check calls predicates only on what its input holds, and at most once for every guard and every
value in the input. -/
theorem check_within (schema : Schema) : schema.check.Within schema.guards.length := by
  induction schema with
  | scalar kind =>
    refine Check.within_of_calls_eq_nil fun x => ?_
    cases x with
    | absent => rfl
    | present v =>
      rw [check, Check.ofKind]
      split <;> rfl
  | undefined => exact Check.undefined_within
  | literal l => exact l.check_within
  | guard g => exact g.check_within
  | array items ih => exact Check.array_within ih
  | tuple form elements ih =>
    refine Check.tuple_within fun check hc => ?_
    obtain ⟨s, hs, rfl⟩ := mem_checks.mp hc
    exact (ih s hs).mono (length_guards_le hs)
  | restTuple form leading rest ih ihRest =>
    rw [guards, List.length_append]
    refine Check.restTuple_within (fun check hc => ?_) (ihRest.mono (Nat.le_add_left _ _))
    obtain ⟨s, hs, rfl⟩ := mem_checks.mp hc
    exact (ih s hs).mono (Nat.le_trans (length_guards_le hs) (Nat.le_add_right _ _))
  | union form first others ih =>
    have hl : (union form first others).guards = guardsOfAll (first :: others) := rfl
    have hc : (union form first others).check =
        Check.union ⟨form, (first :: others).map Schema.check⟩ := by
      rw [check, checks_eq_map, List.map_cons]
    rw [hl, length_guardsOfAll, hc]
    exact Check.union_within ih
  | intersection form parts ih =>
    rw [guards, length_guardsOfAll, check, checks_eq_map]
    exact Check.intersection_within ih
  | record keys values ihKeys ihValues =>
    rw [guards, List.length_append]
    exact Check.record_within ihKeys ihValues
  | object fields ih =>
    rw [guards, guardsOfFields_eq, List.length_flatMap, check, fieldChecks_eq_map]
    exact Check.object_within ih
  | readonly inner ih | branded brand inner ih | shared inner ih => exact ih

/-- However a check ends, it calls predicates only on what its input holds, which is absent only where
the input is, and it makes no more calls than there are guards in the schema times values in the
input. -/
theorem calls_bounded (schema : Schema) (x : Input) :
    (∀ call ∈ (schema.check x).calls,
      x.Holds call.argument ∧ (call.argument = .absent ↔ x = .absent)) ∧
      (schema.check x).calls.length ≤ schema.guards.length * x.size := by
  have h : (schema.check x).Within x.Holds (schema.guards.length * x.size) := schema.check_within x
  constructor
  · intro call hc
    have hx := h.argument call hc
    exact ⟨hx, hx.absent_iff⟩
  · exact h.length_le

end Schema

end JsonValidation
