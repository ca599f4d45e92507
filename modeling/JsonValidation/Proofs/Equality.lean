import Mathlib.Data.List.Forall2
import Mathlib.Data.List.Perm.Subperm
import JsonValidation.Literal
import JsonValidation.Proofs.Induction
import JsonValidation.Proofs.Inputs

/-!
# Equality of values

Equality of values ignores the order of entries at every depth. It is computed from the left: every
entry of the first object has to be found in the second one, which is as long. Where keys are unique
this is symmetric, because then both objects have the same keys.

* `Value.equal_array_iff`, `Value.equal_object_iff`: equality part by part;
* `Value.equal_symm`, `Value.equal_trans`: equality in both directions, and in several steps;
* `Value.strictlyEqual_left`, `Value.strictlyEqual_right`: a literal cannot tell equal values apart,
  and equal literals are the same literal.
-/

namespace JsonValidation

theorem Number.equal_comm (m n : Number) : m.equal n = n.equal m := by
  cases m <;> cases n <;> simp only [equal, BEq.comm, Binary64.equal_comm]

theorem Number.equal_trans {l m n : Number} (hlm : l.equal m = true) (hmn : m.equal n = true) :
    l.equal n = true := by
  cases l <;> cases m <;> cases n <;> simp only [equal, beq_iff_eq, Bool.false_eq_true] at *
  · exact hlm.trans hmn
  · exact Binary64.equal_trans hlm hmn

/-- Numbers that are spelled alike and equal have the same value as the same numbers. -/
theorem Number.sameValue_congr {l m : Number} (h : l.equal m = true) (n : Number) :
    l.sameValue n = m.sameValue n := by
  cases l with
  | integer i => cases m with
    | integer j => rw [beq_iff_eq.mp h]
    | float y => cases h
  | float x => cases m with
    | integer j => cases h
    | float y =>
      have hc : ∀ z : Binary64, x.equal z = y.equal z := by
        intro z
        rw [Bool.eq_iff_iff]
        exact ⟨Binary64.equal_trans (Binary64.equal_comm x y ▸ h), Binary64.equal_trans h⟩
      cases n <;> exact hc _

theorem Number.sameValue_comm (m n : Number) : m.sameValue n = n.sameValue m := by
  cases m <;> cases n <;> simp only [sameValue, BEq.comm, Binary64.equal_comm]

namespace Value

variable {v w u : Value} {items items' : List Value} {entries entries' : List (String × Value)}

/-! ## Equality part by part -/

theorem equalItems_iff : equalItems items items' = true ↔
    List.Forall₂ (fun v w => v.equal w = true) items items' := by
  induction items generalizing items' with
  | nil => cases items' <;> simp [equalItems]
  | cons v rest ih => cases items' <;> simp [equalItems, ih]

theorem equalEntries_iff : equalEntries entries entries' = true ↔
    ∀ e ∈ entries, ∃ w, entries'.lookup e.1 = some w ∧ e.2.equal w = true := by
  induction entries with
  | nil => simp [equalEntries]
  | cons e rest ih =>
    rw [equalEntries, Bool.and_eq_true, ih, List.forall_mem_cons]
    refine and_congr_left fun _ => ?_
    cases entries'.lookup e.1 <;> simp

theorem equal_array_iff : (array items).equal (array items') = true ↔
    List.Forall₂ (fun v w => v.equal w = true) items items' := by
  rw [equal, equalItems_iff]

theorem equal_object_iff : (object entries).equal (object entries') = true ↔
    entries.length = entries'.length ∧
      ∀ e ∈ entries, ∃ w, entries'.lookup e.1 = some w ∧ e.2.equal w = true := by
  rw [equal, Bool.and_eq_true, beq_iff_eq, equalEntries_iff]

theorem kind_eq_of_equal (h : v.equal w = true) : v.kind = w.kind := by
  cases v <;> cases w <;> first | rfl | cases h

/-- Equal objects have the same keys, because the keys of the first are among those of the second and
they are as many. -/
theorem keys_perm_of_equal (hu : (entries.map Prod.fst).Nodup)
    (h : (object entries).equal (object entries') = true) :
    (entries.map Prod.fst).Perm (entries'.map Prod.fst) := by
  obtain ⟨hl, he⟩ := equal_object_iff.mp h
  have hs : entries.map Prod.fst ⊆ entries'.map Prod.fst := by
    intro key hk
    obtain ⟨e, hm, rfl⟩ := List.mem_map.mp hk
    obtain ⟨w, hw, -⟩ := he e hm
    exact List.mem_map.mpr ⟨_, mem_of_lookup hw, rfl⟩
  have hp : List.Subperm (entries.map Prod.fst) (entries'.map Prod.fst) := hu.subperm hs
  exact hp.perm_of_length_le (by simp [hl])

/-- Every entry of the second of two equal objects is found in the first one. -/
theorem exists_lookup_of_equal (hv : (object entries).UniqueKeys) (hw : (object entries').UniqueKeys)
    (h : (object entries).equal (object entries') = true) {key : String}
    (hm : (key, w) ∈ entries') : ∃ v, entries.lookup key = some v ∧ v.equal w = true := by
  have hu := (uniqueKeys_object.mp hv).1
  have hk : key ∈ entries.map Prod.fst :=
    (keys_perm_of_equal hu h).mem_iff.mpr (List.mem_map_of_mem hm)
  obtain ⟨⟨_, v⟩, he, rfl⟩ := List.mem_map.mp hk
  obtain ⟨w', hl, hvw⟩ := (equal_object_iff.mp h).2 _ he
  have hl' := lookup_of_mem (uniqueKeys_object.mp hw).1 hm
  obtain rfl : w' = w := Option.some.inj (hl.symm.trans hl')
  exact ⟨v, lookup_of_mem hu he, hvw⟩

/-! ## Equality in both directions -/

theorem equal_symm (hv : v.UniqueKeys) (hw : w.UniqueKeys) (h : v.equal w = true) :
    w.equal v = true := by
  induction v generalizing w with
  | null => cases w <;> first | rfl | cases h
  | boolean b =>
    cases w with
    | boolean c => exact beq_iff_eq.mpr (beq_iff_eq.mp h).symm
    | null | number | string | array | object => cases h
  | number n =>
    cases w with
    | number m => exact (Number.equal_comm m n).trans h
    | null | boolean | string | array | object => cases h
  | string s =>
    cases w with
    | string t => exact beq_iff_eq.mpr (beq_iff_eq.mp h).symm
    | null | boolean | number | array | object => cases h
  | array items ih =>
    cases w with
    | array items' =>
      rw [uniqueKeys_array] at hv hw
      rw [equal_array_iff] at h ⊢
      induction h with
      | nil => exact .nil
      | cons h _ ihRest =>
        obtain ⟨ihHead, ihTail⟩ := List.forall_mem_cons.mp ih
        obtain ⟨hv, hvs⟩ := List.forall_mem_cons.mp hv
        obtain ⟨hw, hws⟩ := List.forall_mem_cons.mp hw
        exact .cons (ihHead hv hw h) (ihRest ihTail hvs hws)
    | null | boolean | number | string | object => cases h
  | object entries ih =>
    cases w with
    | object entries' =>
      refine equal_object_iff.mpr ⟨(equal_object_iff.mp h).1.symm, fun e he => ?_⟩
      obtain ⟨v, hl, hvw⟩ := exists_lookup_of_equal hv hw h he
      have hm := mem_of_lookup hl
      have hv' := (uniqueKeys_object.mp hv).2 _ hm
      have hw' := (uniqueKeys_object.mp hw).2 _ he
      exact ⟨v, hl, ih _ hm hv' hw' hvw⟩
    | null | boolean | number | string | array => cases h

theorem equal_trans (hvw : v.equal w = true) (hwu : w.equal u = true) : v.equal u = true := by
  induction v generalizing w u with
  | null =>
    cases w with
    | null => exact hwu
    | boolean | number | string | array | object => cases hvw
  | boolean b =>
    cases w with
    | boolean c => rwa [beq_iff_eq.mp hvw]
    | null | number | string | array | object => cases hvw
  | number n =>
    cases w with
    | number m =>
      cases u with
      | number l => exact Number.equal_trans hvw hwu
      | null | boolean | string | array | object => cases hwu
    | null | boolean | string | array | object => cases hvw
  | string s =>
    cases w with
    | string t => rwa [beq_iff_eq.mp hvw]
    | null | boolean | number | array | object => cases hvw
  | array items ih =>
    cases w with
    | array items' =>
      cases u with
      | array items'' =>
        rw [equal_array_iff] at hvw hwu ⊢
        induction hvw generalizing items'' with
        | nil => exact hwu
        | cons h _ ihRest =>
          obtain ⟨ihHead, ihTail⟩ := List.forall_mem_cons.mp ih
          cases hwu with
          | cons h' hwu => exact .cons (ihHead h h') (ihRest ihTail _ hwu)
      | null | boolean | number | string | object => cases hwu
    | null | boolean | number | string | object => cases hvw
  | object entries ih =>
    cases w with
    | object entries' =>
      cases u with
      | object entries'' =>
        rw [equal_object_iff] at hvw hwu ⊢
        refine ⟨hvw.1.trans hwu.1, fun e he => ?_⟩
        obtain ⟨w, hw, h⟩ := hvw.2 e he
        obtain ⟨u, hu, h'⟩ := hwu.2 _ (mem_of_lookup hw)
        exact ⟨u, hu, ih e he h h'⟩
      | null | boolean | number | string | array => cases hwu
    | null | boolean | number | string | array => cases hvw

/-! ## Literals -/

theorem equal_congr_left (hv : v.UniqueKeys) (hw : w.UniqueKeys) (h : v.equal w = true)
    (u : Value) : v.equal u = w.equal u := by
  rw [Bool.eq_iff_iff]
  exact ⟨equal_trans (equal_symm hv hw h), equal_trans h⟩

theorem equal_congr_right (hv : v.UniqueKeys) (hw : w.UniqueKeys) (h : v.equal w = true)
    (u : Value) : u.equal v = u.equal w := by
  rw [Bool.eq_iff_iff]
  exact ⟨fun hu => equal_trans hu h, fun hu => equal_trans hu (equal_symm hv hw h)⟩

/-- Equal values are the same to every literal. -/
theorem strictlyEqual_left (hv : v.UniqueKeys) (hw : w.UniqueKeys) (h : v.equal w = true)
    (u : Value) : v.strictlyEqual u = w.strictlyEqual u := by
  have hc := equal_congr_left hv hw h u
  cases v with
  | number n =>
    cases w with
    | number m =>
      cases u with
      | number l => exact Number.sameValue_congr h l
      | null | boolean | string | array | object => exact hc
    | null | boolean | string | array | object => cases h
  | null | boolean | string | array | object => cases w <;> first | exact hc | cases h

/-- Equal values are the same literal. -/
theorem strictlyEqual_right (hv : v.UniqueKeys) (hw : w.UniqueKeys) (h : v.equal w = true)
    (u : Value) : u.strictlyEqual v = u.strictlyEqual w := by
  have hc := equal_congr_right hv hw h u
  cases u with
  | number l =>
    cases v with
    | number n =>
      cases w with
      | number m =>
        show l.sameValue n = l.sameValue m
        rw [Number.sameValue_comm l, Number.sameValue_comm l, Number.sameValue_congr h]
      | null | boolean | string | array | object => cases h
    | null | boolean | string | array | object => cases w <;> first | exact hc | cases h
  | null | boolean | string | array | object => exact hc

end Value

end JsonValidation
