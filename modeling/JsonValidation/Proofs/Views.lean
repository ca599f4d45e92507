import JsonValidation.View.Chain
import JsonValidation.Proofs.Inputs

/-!
# What views hold

An accessor is a fault where the view does not hold what its type says. For a view that does, every
accessor gives a result, and the views of parts hold what their types say in turn:

* `ViewType.Fits`: the inputs that the accessors of a view type rely on;
* `Chain.exists_answer`: no chain of accessors is a fault on a view of an input that fits;
* `View.Leads`: the steps along which accessors get from a view to a view of one of its parts;
* `View.Leads.reaches`: they lead to that part of the input, which fits the type of its view.
-/

namespace JsonValidation

/-- Whether an input has the shape that the accessors of a view type rely on. -/
def ViewType.Fits : ViewType → Input → Prop
  | .untyped, _ => True
  | .string, x => x.HasKind .string
  | .number, x => x.HasKind .number
  | .boolean, x => x.HasKind .boolean
  | .object, x => x.HasKind .object
  | .array element, x =>
    ∃ items, x = .present (.array items) ∧ ∀ v ∈ items, element.Fits (.present v)
  | .record value, x =>
    ∃ entries, x = .present (.object entries) ∧ ∀ e ∈ entries, value.Fits (.present e.2)
  | .readonly inner, x => inner.Fits x
  | .branded _ inner, x => inner.Fits x

namespace View

variable {type : ViewType}

/-! ## Accessors -/

theorem string_of_fits {view : View .string} (h : ViewType.string.Fits view.input) :
    ∃ s, view.input = .present (.string s) ∧ view.string = .ok s := by
  obtain ⟨v, hv, hk⟩ := h
  unfold string
  rw [hv]
  cases v with
  | string s => exact ⟨s, rfl, rfl⟩
  | null | boolean | number | array | object => cases hk

theorem number_of_fits {view : View .number} (h : ViewType.number.Fits view.input) :
    ∃ n, view.input = .present (.number n) ∧ view.number = .ok n.toBinary64 := by
  obtain ⟨v, hv, hk⟩ := h
  unfold number
  rw [hv]
  cases v with
  | number n => exact ⟨n, rfl, rfl⟩
  | null | boolean | string | array | object => cases hk

theorem boolean_of_fits {view : View .boolean} (h : ViewType.boolean.Fits view.input) :
    ∃ b, view.input = .present (.boolean b) ∧ view.boolean = .ok b := by
  obtain ⟨v, hv, hk⟩ := h
  unfold boolean
  rw [hv]
  cases v with
  | boolean b => exact ⟨b, rfl, rfl⟩
  | null | number | string | array | object => cases hk

section Array

variable {view : View (.array type)} {items : List Value}

theorem items?_of_array (h : view.input = .present (.array items)) : view.items? = some items := by
  rw [items?, h]
  rfl

theorem elements_of_array (h : view.input = .present (.array items)) :
    view.elements = .ok (items.map (part type)) := by
  rw [elements, items?_of_array h]
  rfl

theorem size_of_array (h : view.input = .present (.array items)) :
    view.size = .ok items.length := by
  rw [size, items?_of_array h]
  rfl

theorem get?_of_array (h : view.input = .present (.array items)) (n : Nat) :
    view.get? n = .ok (items[n]?.map (part type)) := by
  rw [get?, items?_of_array h]
  rfl

end Array

section Record

variable {view : View (.record type)} {entries : List (String × Value)}

theorem entries?_of_object {view : View type} (h : view.input = .present (.object entries)) :
    view.entries? = some entries := by
  rw [entries?, h]
  rfl

theorem entries_of_object (h : view.input = .present (.object entries)) :
    view.entries = .ok (entries.map fun (key, v) => (key, part type v)) := by
  rw [View.entries, entries?_of_object h]
  rfl

theorem lookup?_of_object (h : view.input = .present (.object entries)) (key : String) :
    view.lookup? key = .ok ((entries.lookup key).map (part type)) := by
  rw [lookup?, entries?_of_object h]
  rfl

end Record

theorem field_of_object {view : View .object} {entries : List (String × Value)}
    (h : view.input = .present (.object entries)) (name : String) :
    view.field name = match entries.lookup name with
      | some v => .present v
      | none => .absent := by
  rw [field, entries?_of_object h]
  rfl

/-- A field of an object is the part to which its name leads. -/
theorem step?_of_field {view : View .object} {name : String} {v : Value}
    (h : view.field name = .present v) :
    ∃ w, view.input = .present w ∧ w.step? (.field name) = some v := by
  cases hx : view.input with
  | absent => simp [field, entries?, hx, Input.value?] at h
  | present w =>
    refine ⟨w, rfl, ?_⟩
    cases w with
    | object entries =>
      rw [field_of_object hx] at h
      show entries.lookup name = some v
      cases hl : entries.lookup name with
      | none => simp [hl] at h
      | some u => simpa [hl] using h
    | null | boolean | number | string | array =>
      simp [field, entries?, hx, Input.value?, Value.entries?] at h

end View

/-! ## Chains of accessors -/

theorem bind_ok {α β ε : Type} (a : α) (f : α → Except ε β) : (Except.ok a >>= f) = f a := rfl

theorem exists_mapM_ok {α β ε : Type} {f : α → Except ε β} {as : List α}
    (h : ∀ a ∈ as, ∃ b, f a = .ok b) : ∃ bs, as.mapM f = .ok bs := by
  induction as with
  | nil => exact ⟨[], rfl⟩
  | cons a rest ih =>
    obtain ⟨⟨b, hb⟩, hr⟩ := List.forall_mem_cons.mp h
    obtain ⟨bs, hbs⟩ := ih hr
    refine ⟨b :: bs, ?_⟩
    rw [List.mapM_cons, hb, hbs]
    rfl

/-- No chain is a fault on a view of an input that fits. -/
theorem Chain.exists_answer {type : ViewType} (chain : Chain type) {view : View type}
    (h : type.Fits view.input) : ∃ answer, chain.answer view = .ok answer := by
  induction chain with
  | input | isInput | entries? | items? | inspect | field | brand => exact ⟨_, rfl⟩
  | string =>
    obtain ⟨s, -, hs⟩ := View.string_of_fits h
    exact ⟨.text s, by rw [answer, hs]; rfl⟩
  | number =>
    obtain ⟨n, -, hn⟩ := View.number_of_fits h
    exact ⟨.double n.toBinary64, by rw [answer, hn]; rfl⟩
  | boolean =>
    obtain ⟨b, -, hb⟩ := View.boolean_of_fits h
    exact ⟨.flag b, by rw [answer, hb]; rfl⟩
  | size =>
    obtain ⟨items, hx, -⟩ := h
    exact ⟨.count items.length, by rw [answer, View.size_of_array hx]; rfl⟩
  | isEmpty =>
    obtain ⟨items, hx, -⟩ := h
    exact ⟨.flag (items.length == 0), by rw [answer, View.size_of_array hx]; rfl⟩
  | get n next ih =>
    obtain ⟨items, hx, hf⟩ := h
    rw [answer, View.get?_of_array hx]
    cases hv : items[n]? with
    | none => exact ⟨.missing, rfl⟩
    | some v => exact ih (hf v (List.mem_of_getElem? hv))
  | each next ih =>
    obtain ⟨items, hx, hf⟩ := h
    have he : ∀ element ∈ items.map (View.part _), ∃ a, next.answer element = .ok a := by
      rw [List.forall_mem_map]
      exact fun v hv => ih (hf v hv)
    obtain ⟨answers, ha⟩ := exists_mapM_ok he
    refine ⟨.each answers, ?_⟩
    simp only [answer, View.elements_of_array hx, bind_ok, ha]
    rfl
  | lookup key next ih =>
    obtain ⟨entries, hx, hf⟩ := h
    rw [answer, View.lookup?_of_object hx]
    cases hv : entries.lookup key with
    | none => exact ⟨.missing, rfl⟩
    | some v => exact ih (hf (key, v) (mem_of_lookup hv))
  | eachEntry next ih =>
    obtain ⟨entries, hx, hf⟩ := h
    have he : ∀ e ∈ entries.map fun (key, v) => (key, View.part _ v), ∃ a,
        (do return (e.1, ← next.answer e.2) : Except Fault (String × Answer)) = .ok a := by
      rw [List.forall_mem_map]
      intro e hm
      obtain ⟨a, ha⟩ : ∃ a, next.answer (View.part _ e.2) = .ok a := ih (hf e hm)
      exact ⟨(e.1, a), by rw [ha]; rfl⟩
    obtain ⟨answers, ha⟩ := exists_mapM_ok he
    refine ⟨.eachEntry answers, ?_⟩
    simp only [answer, View.entries_of_object hx, bind_ok, ha]
    rfl
  | writable next ih => exact ih h
  | unbranded next ih => exact ih h

/-! ## Views of parts -/

namespace View

/-- The steps along which accessors get from a view to a view of one of its parts: by position or
from all elements, by key or from all entries, and through marks and brands. -/
inductive Leads : {type type' : ViewType} → View type → List Segment → View type' → Prop
  | here {type : ViewType} (view : View type) : Leads view [] view
  | get {type type' : ViewType} {view : View (.array type)} {n : Nat} {element : View type}
    {path : List Segment} {found : View type'} (h : view.get? n = .ok (some element))
    (next : Leads element path found) : Leads view (.index n :: path) found
  | each {type type' : ViewType} {view : View (.array type)} {elements : List (View type)} {n : Nat}
    {element : View type} {path : List Segment} {found : View type'}
    (h : view.elements = .ok elements) (hn : elements[n]? = some element)
    (next : Leads element path found) : Leads view (.index n :: path) found
  | lookup {type type' : ViewType} {view : View (.record type)} {key : String} {value : View type}
    {path : List Segment} {found : View type'} (h : view.lookup? key = .ok (some value))
    (next : Leads value path found) : Leads view (.field key :: path) found
  | entry {type type' : ViewType} {view : View (.record type)}
    {entries : List (String × View type)} {key : String} {value : View type}
    {path : List Segment} {found : View type'} (h : view.entries = .ok entries)
    (hm : (key, value) ∈ entries) (next : Leads value path found) :
    Leads view (.field key :: path) found
  | writable {type type' : ViewType} {view : View (.readonly type)} {path : List Segment}
    {found : View type'} (next : Leads view.writable path found) : Leads view path found
  | unbranded {brand : String} {type type' : ViewType} {view : View (.branded brand type)}
    {path : List Segment} {found : View type'} (next : Leads view.unbranded path found) :
    Leads view path found

section Parts

variable {type : ViewType}

theorem part_of_get? {view : View (.array type)} {items : List Value} {n : Nat}
    {element : View type} (hx : view.input = .present (.array items))
    (h : view.get? n = .ok (some element)) : ∃ v, items[n]? = some v ∧ part type v = element := by
  rw [get?_of_array hx, Except.ok.injEq] at h
  exact Option.map_eq_some_iff.mp h

theorem get?_of_elements {view : View (.array type)} {items : List Value}
    {elements : List (View type)} (hx : view.input = .present (.array items))
    (h : view.elements = .ok elements) (n : Nat) : view.get? n = .ok elements[n]? := by
  rw [elements_of_array hx, Except.ok.injEq] at h
  rw [get?_of_array hx, ← h, List.getElem?_map]

/-- All elements of an array are as many as its size, and each is the one at its position. -/
theorem exists_elements {view : View (.array type)} (h : (ViewType.array type).Fits view.input) :
    ∃ elements, view.elements = .ok elements ∧ view.size = .ok elements.length ∧
      ∀ n, view.get? n = .ok elements[n]? := by
  obtain ⟨items, hx, -⟩ := h
  have he : view.elements = .ok (items.map (part type)) := elements_of_array hx
  refine ⟨items.map (part type), he, ?_, get?_of_elements hx he⟩
  rw [size_of_array hx, List.length_map]

theorem part_of_lookup? {view : View (.record type)} {entries : List (String × Value)}
    {key : String} {value : View type} (hx : view.input = .present (.object entries))
    (h : view.lookup? key = .ok (some value)) :
    ∃ v, entries.lookup key = some v ∧ part type v = value := by
  rw [lookup?_of_object hx, Except.ok.injEq] at h
  exact Option.map_eq_some_iff.mp h

/-- The entries of a view are found under their keys. -/
theorem lookup?_of_entries {view : View (.record type)} {found : List (String × View type)}
    {entries : List (String × Value)} (hx : view.input = .present (.object entries))
    (h : view.entries = .ok found) (key : String) : view.lookup? key = .ok (found.lookup key) := by
  rw [entries_of_object hx, Except.ok.injEq] at h
  rw [lookup?_of_object hx, ← h, lookup_map_values]

theorem nodup_keys_of_entries {view : View (.record type)} {found : List (String × View type)}
    {entries : List (String × Value)} (hx : view.input = .present (.object entries))
    (hu : view.input.UniqueKeys) (h : view.entries = .ok found) :
    (found.map Prod.fst).Nodup := by
  rw [entries_of_object hx, Except.ok.injEq] at h
  have hk : found.map Prod.fst = entries.map Prod.fst := by
    rw [← h, List.map_map]
    rfl
  rw [hx] at hu
  rw [hk]
  exact (Value.uniqueKeys_object.mp hu).1

/-- No two entries of a record have one key, and the value of each is the one under its key. -/
theorem exists_entries {view : View (.record type)} (h : (ViewType.record type).Fits view.input)
    (hu : view.input.UniqueKeys) :
    ∃ entries, view.entries = .ok entries ∧ (entries.map Prod.fst).Nodup ∧
      ∀ key, view.lookup? key = .ok (entries.lookup key) := by
  obtain ⟨entries, hx, -⟩ := h
  have he := entries_of_object hx
  exact ⟨_, he, nodup_keys_of_entries hx hu he, lookup?_of_entries hx he⟩

/-- In an object with unique keys, what is found among the entries is found under its key. -/
theorem lookup?_of_mem_entries {view : View (.record type)} {found : List (String × View type)}
    {entries : List (String × Value)} {key : String} {value : View type}
    (hx : view.input = .present (.object entries)) (hu : view.input.UniqueKeys)
    (h : view.entries = .ok found) (hm : (key, value) ∈ found) :
    view.lookup? key = .ok (some value) := by
  rw [lookup?_of_entries hx h, lookup_of_mem (nodup_keys_of_entries hx hu h) hm]

end Parts

section Steps

variable {type type' : ViewType} {path : List Segment} {found : View type'}

/-- Whether steps lead from a view to another one that holds that part of the input and whose type
fits it, as long as the first one holds what its type says. -/
def Reaches (view : View type) (path : List Segment) (found : View type') : Prop :=
  type.Fits view.input → view.input.UniqueKeys →
    type'.Fits found.input ∧ view.input.follow? path = some found.input

theorem reaches_get {view : View (.array type)} {n : Nat} {element : View type}
    (h : view.get? n = .ok (some element)) (next : element.Reaches path found) :
    view.Reaches (.index n :: path) found := by
  intro ⟨items, hx, hf⟩ hu
  obtain ⟨v, hv, rfl⟩ := part_of_get? hx h
  rw [hx] at hu ⊢
  have hs : (Value.array items).step? (.index n) = some v := hv
  rw [Input.follow?_cons_of_step hs]
  exact next (hf v (List.mem_of_getElem? hv)) (hu.step? hs)

theorem reaches_lookup {view : View (.record type)} {key : String} {value : View type}
    (h : view.lookup? key = .ok (some value)) (next : value.Reaches path found) :
    view.Reaches (.field key :: path) found := by
  intro ⟨entries, hx, hf⟩ hu
  obtain ⟨v, hv, rfl⟩ := part_of_lookup? hx h
  rw [hx] at hu ⊢
  have hs : (Value.object entries).step? (.field key) = some v := hv
  rw [Input.follow?_cons_of_step hs]
  exact next (hf (key, v) (mem_of_lookup hv)) (hu.step? hs)

end Steps

/-- Steps along accessors lead to a part of the input, and its view holds what its type says. -/
theorem Leads.reaches {type type' : ViewType} {view : View type} {path : List Segment}
    {found : View type'} (h : view.Leads path found) : view.Reaches path found := by
  induction h with
  | here view => exact fun hf _ => ⟨hf, Input.follow?_nil _⟩
  | get h next ih => exact reaches_get h ih
  | each h hn next ih =>
    intro hf hu
    have ⟨items, hx, _⟩ := hf
    exact reaches_get (by rw [get?_of_elements hx h, hn]) ih hf hu
  | lookup h next ih => exact reaches_lookup h ih
  | entry h hm next ih =>
    intro hf hu
    have ⟨entries, hx, _⟩ := hf
    -- Only here do unique keys matter: the path names the entry by its key.
    exact reaches_lookup (lookup?_of_mem_entries hx hu h hm) ih hf hu
  | writable next ih => exact ih
  | unbranded next ih => exact ih

end View

end JsonValidation
