import JsonValidation.Location

/-!
# Parts of inputs

A location leads into an input along the keys of objects and the positions in arrays. An object of
the reader never has two entries under one key, so a key leads to at most one value, and every entry
is found under its key:

* `Value.UniqueKeys`: no object inside a value has two entries under one key;
* `Input.follow?`: the part of an input to which steps lead;
* `Input.HasKind`: whether an input is a value of a kind.
-/

namespace JsonValidation

/-! ## Unique keys -/

mutual

/-- Whether no object inside a value has two entries under one key. -/
def Value.UniqueKeys : Value → Prop
  | .array items => Value.UniqueKeysItems items
  | .object entries => (entries.map Prod.fst).Nodup ∧ Value.UniqueKeysEntries entries
  | _ => True

/-- Whether all values of a list have unique keys. -/
def Value.UniqueKeysItems : List Value → Prop
  | [] => True
  | v :: rest => v.UniqueKeys ∧ Value.UniqueKeysItems rest

/-- Whether the values of all entries have unique keys. -/
def Value.UniqueKeysEntries : List (String × Value) → Prop
  | [] => True
  | (_, v) :: rest => v.UniqueKeys ∧ Value.UniqueKeysEntries rest

end

mutual

instance Value.decidableUniqueKeys : (v : Value) → Decidable v.UniqueKeys
  | .array items => Value.decidableUniqueKeysItems items
  | .object entries =>
    have := Value.decidableUniqueKeysEntries entries
    inferInstanceAs (Decidable ((entries.map Prod.fst).Nodup ∧ Value.UniqueKeysEntries entries))
  | .null | .boolean _ | .number _ | .string _ => isTrue True.intro

instance Value.decidableUniqueKeysItems :
    (items : List Value) → Decidable (Value.UniqueKeysItems items)
  | [] => isTrue True.intro
  | v :: rest =>
    have := v.decidableUniqueKeys
    have := Value.decidableUniqueKeysItems rest
    inferInstanceAs (Decidable (v.UniqueKeys ∧ Value.UniqueKeysItems rest))

instance Value.decidableUniqueKeysEntries :
    (entries : List (String × Value)) → Decidable (Value.UniqueKeysEntries entries)
  | [] => isTrue True.intro
  | (_, v) :: rest =>
    have := v.decidableUniqueKeys
    have := Value.decidableUniqueKeysEntries rest
    inferInstanceAs (Decidable (v.UniqueKeys ∧ Value.UniqueKeysEntries rest))

end

theorem Value.uniqueKeysItems_iff {items : List Value} :
    Value.UniqueKeysItems items ↔ ∀ v ∈ items, v.UniqueKeys := by
  induction items with
  | nil => simp [Value.UniqueKeysItems]
  | cons v rest ih => rw [Value.UniqueKeysItems, ih, List.forall_mem_cons]

theorem Value.uniqueKeysEntries_iff {entries : List (String × Value)} :
    Value.UniqueKeysEntries entries ↔ ∀ e ∈ entries, e.2.UniqueKeys := by
  induction entries with
  | nil => simp [Value.UniqueKeysEntries]
  | cons e rest ih => rw [Value.UniqueKeysEntries, ih, List.forall_mem_cons]

theorem Value.uniqueKeys_string (s : String) : (Value.string s).UniqueKeys := by
  simp only [Value.UniqueKeys]

theorem Value.uniqueKeys_array {items : List Value} :
    (Value.array items).UniqueKeys ↔ ∀ v ∈ items, v.UniqueKeys := by
  rw [Value.UniqueKeys, Value.uniqueKeysItems_iff]

theorem Value.uniqueKeys_object {entries : List (String × Value)} :
    (Value.object entries).UniqueKeys ↔
      (entries.map Prod.fst).Nodup ∧ ∀ e ∈ entries, e.2.UniqueKeys := by
  rw [Value.UniqueKeys, Value.uniqueKeysEntries_iff]

section Entries

variable {β : Type} {entries : List (String × β)} {key : String} {b : β}

theorem mem_of_lookup (h : entries.lookup key = some b) : (key, b) ∈ entries := by
  obtain ⟨before, after, rfl, -⟩ := List.lookup_eq_some_iff.mp h
  exact List.mem_append_right before List.mem_cons_self

/-- An entry is found under its key, because no entry before it has the same one. -/
theorem lookup_of_mem (hu : (entries.map Prod.fst).Nodup) (h : (key, b) ∈ entries) :
    entries.lookup key = some b := by
  obtain ⟨before, after, rfl⟩ := List.append_of_mem h
  refine List.lookup_eq_some_iff.mpr ⟨before, after, rfl, fun e he => ?_⟩
  rw [List.map_append, List.map_cons, List.nodup_append] at hu
  have hne : e.1 ≠ key := hu.2.2 e.1 (List.mem_map_of_mem he) key List.mem_cons_self
  exact bne_iff_ne.mpr hne.symm

theorem lookup_map_values {γ : Type} (f : β → γ) (entries : List (String × β)) (key : String) :
    (entries.map fun (key, b) => (key, f b)).lookup key = (entries.lookup key).map f := by
  induction entries with
  | nil => rfl
  | cons e rest ih =>
    obtain ⟨k, b⟩ := e
    simp only [List.map_cons, List.lookup_cons, ih]
    cases key == k <;> rfl

end Entries

/-! ## Following steps -/

/-- The part of a value to which one step leads, if there is one. -/
def Value.step? : Value → Segment → Option Value
  | .array items, .index n => items[n]?
  | .object entries, .field name => entries.lookup name
  | _, _ => none

namespace Input

/-- Whether no object inside an input has two entries under one key. -/
def UniqueKeys : Input → Prop
  | .absent => True
  | .present v => v.UniqueKeys

instance (x : Input) : Decidable x.UniqueKeys :=
  match x with
  | .absent => isTrue True.intro
  | .present v => inferInstanceAs (Decidable v.UniqueKeys)

/-- Whether an input is a value of a kind. -/
def HasKind (x : Input) (kind : Kind) : Prop := ∃ v, x = .present v ∧ v.kind = kind

/-- The part of an input to which steps lead, if there is one. No step leads to the input itself,
which may be absent. -/
def follow? : Input → List Segment → Option Input
  | x, [] => some x
  | .absent, _ :: _ => none
  | .present v, segment :: rest => (v.step? segment).bind fun w => follow? (.present w) rest

@[simp] theorem follow?_nil (x : Input) : x.follow? [] = some x := by
  cases x <;> rfl

theorem follow?_cons_of_step {v w : Value} {segment : Segment} (h : v.step? segment = some w)
    (rest : List Segment) : (present v).follow? (segment :: rest) = (present w).follow? rest := by
  rw [follow?, h, Option.bind_some]

theorem follow?_append {x y : Input} {path : List Segment} (h : x.follow? path = some y)
    (rest : List Segment) : x.follow? (path ++ rest) = y.follow? rest := by
  induction path generalizing x with
  | nil =>
    obtain rfl : x = y := by simpa using h
    rfl
  | cons segment path ih =>
    cases x with
    | absent => cases h
    | present v =>
      rw [follow?] at h
      obtain ⟨w, hw, h⟩ := Option.bind_eq_some_iff.mp h
      rw [List.cons_append, follow?_cons_of_step hw, ih h]

/-- One step more. -/
theorem follow?_push {x : Input} {path : List Segment} {v w : Value} {segment : Segment}
    (h : x.follow? path = some (.present v)) (hs : v.step? segment = some w) :
    x.follow? (path ++ [segment]) = some (.present w) := by
  rw [follow?_append h, follow?_cons_of_step hs, follow?_nil]

/-- Steps lead to absence only from an absent input, and only if there are none. -/
theorem eq_absent_of_follow? {x : Input} {path : List Segment}
    (h : x.follow? path = some .absent) : x = .absent := by
  induction path generalizing x with
  | nil => simpa using h
  | cons segment path ih =>
    cases x with
    | absent => rfl
    | present v =>
      rw [follow?] at h
      obtain ⟨w, -, h⟩ := Option.bind_eq_some_iff.mp h
      cases ih h

/-- What a step leads to has unique keys as well. -/
theorem UniqueKeys.step? {v w : Value} {segment : Segment} (hu : (present v).UniqueKeys)
    (h : v.step? segment = some w) : (present w).UniqueKeys := by
  cases v with
  | array items => cases segment with
    | index n => exact Value.uniqueKeys_array.mp hu w (List.mem_of_getElem? h)
    | field name => cases h
  | object entries => cases segment with
    | field name => exact (Value.uniqueKeys_object.mp hu).2 (name, w) (mem_of_lookup h)
    | index n => cases h
  | null | boolean | number | string => cases h

theorem UniqueKeys.follow? {x y : Input} {path : List Segment} (hu : x.UniqueKeys)
    (h : x.follow? path = some y) : y.UniqueKeys := by
  induction path generalizing x with
  | nil =>
    obtain rfl : x = y := by simpa using h
    exact hu
  | cons segment path ih =>
    cases x with
    | absent => cases h
    | present v =>
      obtain ⟨w, hw, h⟩ := Option.bind_eq_some_iff.mp h
      exact ih (hu.step? hw) h

/-- In an object with unique keys, the step of an entry's key leads to its value. -/
theorem UniqueKeys.step?_of_mem {entries : List (String × Value)} {key : String} {v : Value}
    (hu : (present (.object entries)).UniqueKeys) (h : (key, v) ∈ entries) :
    (Value.object entries).step? (.field key) = some v :=
  lookup_of_mem (Value.uniqueKeys_object.mp hu).1 h

theorem hasKind_array {x : Input} : x.HasKind .array ↔ ∃ items, x = .present (.array items) := by
  constructor
  · rintro ⟨v, rfl, h⟩
    cases v <;> simp_all [Value.kind]
  · rintro ⟨items, rfl⟩
    exact ⟨_, rfl, rfl⟩

theorem hasKind_object {x : Input} :
    x.HasKind .object ↔ ∃ entries, x = .present (.object entries) := by
  constructor
  · rintro ⟨v, rfl, h⟩
    cases v <;> simp_all [Value.kind]
  · rintro ⟨entries, rfl⟩
    exact ⟨_, rfl, rfl⟩

end Input

end JsonValidation
