import JsonValidation.Proofs.Equality

/-!
# Inputs that look alike

A check finds out about an input by its kind and by its parts. A relation of inputs is a bisimulation
if related inputs agree in this: they are of the same kind, and every step leads in both to related
parts or in neither to any.

* `Input.IsBisimulation`: what checks rely on in related inputs;
* `Input.isBisimulation_eq`, `Input.isBisimulation_alike`: two bisimulations, the equality of inputs
  as they are written and the equality of values with unique keys.
-/

namespace JsonValidation

namespace Input

section Positions

variable {α β : Type} {S : α → β → Prop} {as : List α} {bs : List β}

theorem forall₂_of_getElem? (h : ∀ i : Nat, Option.Rel S as[i]? bs[i]?) : List.Forall₂ S as bs := by
  induction as generalizing bs with
  | nil =>
    cases bs with
    | nil => exact .nil
    | cons b bs => exact nomatch h 0
  | cons a as ih =>
    cases bs with
    | nil => exact nomatch h 0
    | cons b bs =>
      have hab : Option.Rel S (some a) (some b) := h 0
      cases hab with
      | some hab => exact .cons hab (ih fun i => h (i + 1))

theorem rel_getElem? (h : List.Forall₂ S as bs) (i : Nat) : Option.Rel S as[i]? bs[i]? := by
  induction h generalizing i with
  | nil => exact .none
  | cons hab _ ih =>
    cases i with
    | zero => exact .some hab
    | succ i => exact ih i

theorem exists_of_rel_some {a : Option α} {b : β} (h : Option.Rel S a (some b)) :
    ∃ a', a = some a' ∧ S a' b := by
  cases h with
  | some hab => exact ⟨_, rfl, hab⟩

theorem eq_none_of_rel_none {a : Option α} (h : Option.Rel S a none) : a = none := by
  cases h
  rfl

/-- The partner of what stands at a position of the second of two related lists. -/
theorem exists_getElem?_of_forall₂ (h : List.Forall₂ S as bs) {i : Nat} {b : β}
    (hb : bs[i]? = some b) : ∃ a, as[i]? = some a ∧ S a b :=
  exists_of_rel_some (hb ▸ rel_getElem? h i)

theorem exists_mem_of_forall₂_right (h : List.Forall₂ S as bs) {b : β} (hb : b ∈ bs) :
    ∃ a ∈ as, S a b := by
  obtain ⟨i, hi⟩ := List.mem_iff_getElem?.mp hb
  obtain ⟨a, ha, hab⟩ := exists_getElem?_of_forall₂ h hi
  exact ⟨a, List.mem_of_getElem? ha, hab⟩

theorem exists_mem_of_forall₂_left (h : List.Forall₂ S as bs) {a : α} (ha : a ∈ as) :
    ∃ b ∈ bs, S a b :=
  exists_mem_of_forall₂_right h.flip ha

end Positions

/-- Whether related inputs agree in everything that checks look at. Keys of objects are inputs of
their own, and are related to themselves. -/
structure IsBisimulation (R : Input → Input → Prop) : Prop where
  hasKind_iff {x y : Input} : R x y → ∀ kind, x.HasKind kind ↔ y.HasKind kind
  step {v w : Value} : R (.present v) (.present w) → ∀ segment,
    Option.Rel (fun v w => R (.present v) (.present w)) (v.step? segment) (w.step? segment)
  entry {entries entries' : List (String × Value)} :
    R (.present (.object entries)) (.present (.object entries')) →
      ∀ e' ∈ entries', ∃ e ∈ entries, e.1 = e'.1 ∧ R (.present e.2) (.present e'.2)
  key (name : String) : R (.present (.string name)) (.present (.string name))

namespace IsBisimulation

variable {R : Input → Input → Prop} {x y : Input} {values : List Value}
  {entries entries' : List (String × Value)}

theorem eq_absent_iff (hR : IsBisimulation R) (h : R x y) : x = .absent ↔ y = .absent := by
  have hx : ∀ x : Input, x = .absent ↔ ∀ kind, ¬ x.HasKind kind := by
    rintro (_ | v)
    · simp [HasKind]
    · simp [HasKind]
  rw [hx x, hx y]
  exact forall_congr' fun kind => not_congr (hR.hasKind_iff h kind)

/-- What is related to an array is an array of related elements. -/
theorem exists_array (hR : IsBisimulation R) (h : R (.present (.array values)) y) :
    ∃ values', y = .present (.array values') ∧
      List.Forall₂ (fun v w => R (.present v) (.present w)) values values' := by
  have hk := (hR.hasKind_iff h .array).mp ⟨_, rfl, rfl⟩
  obtain ⟨values', rfl⟩ := hasKind_array.mp hk
  exact ⟨values', rfl, forall₂_of_getElem? fun i => hR.step h (.index i)⟩

/-- What is related to an object is an object. -/
theorem exists_object (hR : IsBisimulation R) (h : R (.present (.object entries)) y) :
    ∃ entries', y = .present (.object entries') := by
  have hk := (hR.hasKind_iff h .object).mp ⟨_, rfl, rfl⟩
  exact hasKind_object.mp hk

theorem lookup (hR : IsBisimulation R)
    (h : R (.present (.object entries)) (.present (.object entries'))) (name : String) :
    Option.Rel (fun v w => R (.present v) (.present w)) (entries.lookup name)
      (entries'.lookup name) :=
  hR.step h (.field name)

end IsBisimulation

theorem isBisimulation_eq : IsBisimulation Eq where
  hasKind_iff h kind := by rw [h]
  step {v _} h segment := by
    cases h
    cases v.step? segment with
    | none => exact .none
    | some part => exact .some rfl
  entry h e he := by
    cases h
    exact ⟨e, he, rfl, rfl⟩
  key _ := rfl

/-! ## Equal inputs -/

/-- Whether two inputs with unique keys are equal, in whatever order the entries of their objects
are. -/
structure Alike (x y : Input) : Prop where
  left : x.UniqueKeys
  right : y.UniqueKeys
  equal : x.equal y = true

variable {x y : Input} {v w : Value}

theorem Alike.symm (h : x.Alike y) : y.Alike x := by
  refine ⟨h.right, h.left, ?_⟩
  cases x with
  | absent =>
    cases y with
    | absent => rfl
    | present w => exact h.equal
  | present v =>
    cases y with
    | absent => exact h.equal
    | present w => exact Value.equal_symm h.left h.right h.equal

theorem Alike.hasKind (h : x.Alike y) {kind : Kind} (hk : x.HasKind kind) : y.HasKind kind := by
  obtain ⟨v, rfl, rfl⟩ := hk
  cases y with
  | absent => exact nomatch h.equal
  | present w => exact ⟨w, rfl, (Value.kind_eq_of_equal h.equal).symm⟩

theorem Alike.items {items items' : List Value}
    (h : (present (.array items)).Alike (.present (.array items'))) :
    List.Forall₂ (fun v w => (present v).Alike (.present w)) items items' := by
  have hv := Value.uniqueKeys_array.mp h.left
  have hw := Value.uniqueKeys_array.mp h.right
  obtain ⟨hl, he⟩ := List.forall₂_iff_zip.mp (Value.equal_array_iff.mp h.equal)
  refine List.forall₂_iff_zip.mpr ⟨hl, fun hm => ?_⟩
  obtain ⟨hmv, hmw⟩ := List.of_mem_zip hm
  exact ⟨hv _ hmv, hw _ hmw, he hm⟩

theorem Alike.lookup {entries entries' : List (String × Value)}
    (h : (present (.object entries)).Alike (.present (.object entries'))) {name : String}
    (hl : entries.lookup name = some v) :
    ∃ w, entries'.lookup name = some w ∧ (present v).Alike (.present w) := by
  have hm := mem_of_lookup hl
  obtain ⟨w, hw, hvw⟩ := (Value.equal_object_iff.mp h.equal).2 _ hm
  have hv' := (Value.uniqueKeys_object.mp h.left).2 _ hm
  have hw' := (Value.uniqueKeys_object.mp h.right).2 _ (mem_of_lookup hw)
  exact ⟨w, hw, hv', hw', hvw⟩

theorem Alike.rel_lookup {entries entries' : List (String × Value)}
    (h : (present (.object entries)).Alike (.present (.object entries'))) (name : String) :
    Option.Rel (fun v w => (present v).Alike (.present w)) (entries.lookup name)
      (entries'.lookup name) := by
  cases hv : entries.lookup name with
  | some v =>
    obtain ⟨w, hw, ha⟩ := h.lookup hv
    rw [hw]
    exact .some ha
  | none =>
    cases hw : entries'.lookup name with
    | none => exact .none
    | some w =>
      -- A key of the second object alone would be missing in the first, against symmetry.
      obtain ⟨v, hv', -⟩ := h.symm.lookup hw
      rw [hv] at hv'
      cases hv'

theorem Alike.step (h : (present v).Alike (.present w)) (segment : Segment) :
    Option.Rel (fun v w => (present v).Alike (.present w)) (v.step? segment)
      (w.step? segment) := by
  cases v with
  | array items =>
    obtain ⟨items', hw⟩ := hasKind_array.mp (h.hasKind ⟨_, rfl, rfl⟩)
    cases hw
    cases segment with
    | index n =>
      exact rel_getElem? h.items n
    | field name => exact .none
  | object entries =>
    obtain ⟨entries', hw⟩ := hasKind_object.mp (h.hasKind ⟨_, rfl, rfl⟩)
    cases hw
    cases segment with
    | index n => exact .none
    | field name => exact h.rel_lookup name
  | null | boolean | number | string =>
    cases w <;> first | exact .none | exact nomatch h.equal

/-- Equality of values is a bisimulation, as long as no object has two entries under one key. -/
theorem isBisimulation_alike : IsBisimulation Alike where
  hasKind_iff h _ := ⟨h.hasKind, h.symm.hasKind⟩
  step h segment := h.step segment
  entry {entries entries'} h e' he' := by
    have hl := lookup_of_mem (Value.uniqueKeys_object.mp h.right).1 he'
    obtain ⟨v, hv, ha⟩ := h.symm.lookup hl
    exact ⟨(e'.1, v), mem_of_lookup hv, rfl, ha.symm⟩
  key name := ⟨Value.uniqueKeys_string name, Value.uniqueKeys_string name, beq_self_eq_true name⟩

end Input

end JsonValidation
