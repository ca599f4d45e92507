import Mathlib.Data.List.Induction
import Mathlib.Data.List.Nodup
import JsonValidation.Proofs.Erasure

/-!
# What declarations leave behind

The fields of an object are what is left of the declarations of its fields. The history of the
declarations tells it: the first declaration of a name gives the field its place, the last one its
presence and validator, and the readonly steps after that one its mark.

* `Field.IsLatest`: the field that a history leaves under a name;
* `Field.Records`: fields that are what a history leaves, which one more declaration keeps
  (`Field.Records.declare`), and so any number of them (`Field.records_ofDeclarations`);
* `Field.Table`: the fields under keys, which are their names (`Field.Table.ofDeclarations_eq`);
* `Schema.ofDeclarations_records`: all that can be asked of the fields, and their check.
-/

namespace JsonValidation

variable {σ : Type}

namespace Declaration

/-- The field that a declaration declares, if it declares one. -/
def field? : Declaration σ → Option (Field σ)
  | .required name validator => some ⟨name, .required, .mutable, validator⟩
  | .optional name validator => some ⟨name, .optional, .mutable, validator⟩
  | .readonly => none

/-- The names that are declared, each as often as it is. -/
def names (declarations : List (Declaration σ)) : List String :=
  (declarations.filterMap field?).map (·.name)

theorem names_append (ds es : List (Declaration σ)) : names (ds ++ es) = names ds ++ names es := by
  rw [names, List.filterMap_append, List.map_append, names, names]

theorem names_singleton_of_field? {d : Declaration σ} {f : Field σ} (h : d.field? = some f) :
    names [d] = [f.name] := by
  simp [names, h]

end Declaration

namespace Field

/-- A field that is marked readonly. -/
def marked (field : Field σ) : Field σ := { field with mutability := .readonly }

/-- Whether a field is what a history of declarations leaves under its name: its presence and
validator are from a declaration after which its name is not declared again, and it is marked
readonly if there is a readonly step after that declaration. -/
def IsLatest (declarations : List (Declaration σ)) (field : Field σ) : Prop :=
  ∃ before d after, declarations = before ++ d :: after ∧ d.field? = some field.unmarked ∧
    field.name ∉ Declaration.names after ∧
    (field.mutability = .readonly ↔ Declaration.readonly ∈ after)

/-- Whether fields are what a history of declarations leaves: each declared name once, in the order
of the first declarations, and the latest field under each name. -/
structure Records (declarations : List (Declaration σ)) (fields : List (Field σ)) : Prop where
  names_eq : fields.map (·.name) = (Declaration.names declarations).eraseDups
  nodup : (fields.map (·.name)).Nodup
  mem_iff : ∀ field, field ∈ fields ↔ field.IsLatest declarations

/-! ## Putting a field in its place -/

section Insert

variable {f g : Field σ} {fields : List (Field σ)}

theorem insert_of_notMem (h : f.name ∉ fields.map (·.name)) : insert f fields = fields ++ [f] := by
  induction fields with
  | nil => rfl
  | cons other rest ih =>
    rw [List.map_cons, List.mem_cons, not_or] at h
    rw [insert, if_neg (Ne.symm h.1), ih h.2, List.cons_append]

theorem map_name_insert_of_mem (h : f.name ∈ fields.map (·.name)) :
    (insert f fields).map (·.name) = fields.map (·.name) := by
  induction fields with
  | nil => cases h
  | cons other rest ih =>
    by_cases hn : other.name = f.name
    · rw [insert, if_pos hn, List.map_cons, List.map_cons, hn]
    · rw [List.map_cons, List.mem_cons] at h
      rw [insert, if_neg hn, List.map_cons, List.map_cons, ih (h.resolve_left (Ne.symm hn))]

/-- A field replaces the one with its name. There is no other one with it, so all others stay. -/
theorem mem_insert_iff (hn : (fields.map (·.name)).Nodup) :
    g ∈ insert f fields ↔ g = f ∨ g ∈ fields ∧ g.name ≠ f.name := by
  induction fields with
  | nil => simp [insert]
  | cons other rest ih =>
    rw [List.map_cons, List.nodup_cons] at hn
    by_cases ho : other.name = f.name
    · have hrest : ∀ g ∈ rest, g.name ≠ f.name := fun g hg e =>
        hn.1 (List.mem_map.mpr ⟨g, hg, e.trans ho.symm⟩)
      rw [insert, if_pos ho, List.mem_cons, List.mem_cons]
      constructor
      · exact Or.imp_right fun hg => ⟨.inr hg, hrest g hg⟩
      · rintro (rfl | ⟨rfl | hg, hne⟩)
        · exact .inl rfl
        · exact absurd ho hne
        · exact .inr hg
    · rw [insert, if_neg ho, List.mem_cons, List.mem_cons, ih hn.2]
      constructor
      · rintro (rfl | rfl | ⟨hg, hne⟩)
        · exact .inr ⟨.inl rfl, ho⟩
        · exact .inl rfl
        · exact .inr ⟨.inr hg, hne⟩
      · rintro (rfl | ⟨rfl | hg, hne⟩)
        · exact .inr (.inl rfl)
        · exact .inl rfl
        · exact .inr (.inr ⟨hg, hne⟩)

theorem declare_of_field? {d : Declaration σ} (h : d.field? = some f) :
    declare fields d = insert f fields := by
  cases d with
  | required | optional =>
    obtain rfl := Option.some.inj h
    rfl
  | readonly => cases h

end Insert

/-! ## One more declaration -/

section History

variable {declarations : List (Declaration σ)} {d : Declaration σ} {f g : Field σ}
  {fields : List (Field σ)}

theorem mutability_of_field? (h : d.field? = some f) : f.mutability = .mutable := by
  cases d with
  | required | optional =>
    obtain rfl := Option.some.inj h
    rfl
  | readonly => cases h

theorem unmarked_of_mutable (h : f.mutability = .mutable) : f.unmarked = f := by
  rw [unmarked, ← h]

theorem not_isLatest_nil : ¬ f.IsLatest [] := by
  rintro ⟨before, d, after, h, -⟩
  cases before <;> cases h

/-- The declaration that a field is from is the last one of a history or one before it. -/
theorem isLatest_append :
    f.IsLatest (declarations ++ [d]) ↔
      (d.field? = some f.unmarked ∧ f.mutability = .mutable) ∨
        ∃ before e after, declarations = before ++ e :: after ∧ e.field? = some f.unmarked ∧
          f.name ∉ Declaration.names (after ++ [d]) ∧
          (f.mutability = .readonly ↔ Declaration.readonly ∈ after ++ [d]) := by
  have hmutable : f.mutability = .mutable ↔
      (f.mutability = .readonly ↔ Declaration.readonly ∈ ([] : List (Declaration σ))) := by
    cases f.mutability <;> simp
  constructor
  · rintro ⟨before, e, after, hsplit, hfield, hname, hmark⟩
    rcases List.eq_nil_or_concat' after with rfl | ⟨after, last, rfl⟩
    · obtain ⟨-, rfl⟩ : declarations = before ∧ d = e := by simpa using hsplit
      exact .inl ⟨hfield, hmutable.mpr hmark⟩
    · have hlast : declarations ++ [d] = (before ++ e :: after) ++ [last] := by simpa using hsplit
      obtain ⟨rfl, hd⟩ := List.append_inj' hlast rfl
      obtain rfl := List.singleton_inj.mp hd
      exact .inr ⟨before, e, after, rfl, hfield, hname, hmark⟩
  · rintro (⟨hfield, hmark⟩ | ⟨before, e, after, rfl, hfield, hname, hmark⟩)
    · exact ⟨declarations, d, [], rfl, hfield, List.not_mem_nil, hmutable.mp hmark⟩
    · exact ⟨before, e, after ++ [d], by simp, hfield, hname, hmark⟩

/-- A declaration of a field makes that field the latest under its name, and no difference to any
other. -/
theorem isLatest_append_of_field? (h : d.field? = some g) :
    f.IsLatest (declarations ++ [d]) ↔ f = g ∨ f.IsLatest declarations ∧ f.name ≠ g.name := by
  have hd : Declaration.readonly ≠ d := by
    rintro rfl
    cases h
  have hlast : d.field? = some f.unmarked ∧ f.mutability = .mutable ↔ f = g := by
    constructor
    · rintro ⟨hfield, hmutable⟩
      rw [unmarked_of_mutable hmutable, h] at hfield
      exact (Option.some.inj hfield).symm
    · rintro rfl
      have hmutable := mutability_of_field? h
      exact ⟨by rw [unmarked_of_mutable hmutable, h], hmutable⟩
  have hearlier : ∀ after : List (Declaration σ),
      (f.name ∉ Declaration.names (after ++ [d]) ∧
        (f.mutability = .readonly ↔ Declaration.readonly ∈ after ++ [d])) ↔
      (f.name ∉ Declaration.names after ∧
        (f.mutability = .readonly ↔ Declaration.readonly ∈ after)) ∧ f.name ≠ g.name := by
    intro after
    rw [Declaration.names_append, Declaration.names_singleton_of_field? h, List.mem_append,
      List.mem_append, List.mem_singleton, List.mem_singleton, or_iff_left hd, not_or,
      and_right_comm]
  rw [isLatest_append, hlast]
  simp only [hearlier, IsLatest, ← and_assoc, exists_and_right]

/-- A readonly step marks the latest field under each name. -/
theorem isLatest_append_readonly :
    f.IsLatest (declarations ++ [.readonly]) ↔
      ∃ g : Field σ, g.IsLatest declarations ∧ g.marked = f := by
  rw [isLatest_append]
  constructor
  · rintro (⟨hfield, -⟩ | ⟨before, e, after, rfl, hfield, hname, hmark⟩)
    · cases hfield
    · have hreadonly : f.mutability = .readonly := hmark.mpr (by simp)
      have hf : f.marked = f := by rw [marked, ← hreadonly]
      rw [Declaration.names_append, List.mem_append, not_or] at hname
      -- What the field was like before it was marked again depends on the steps before this one.
      by_cases hbefore : Declaration.readonly ∈ after
      · exact ⟨f, ⟨before, e, after, rfl, hfield, hname.1, by simp [hreadonly, hbefore]⟩, hf⟩
      · have hmark' : f.unmarked.mutability = .readonly ↔ Declaration.readonly ∈ after := by
          simp [unmarked, hbefore]
        exact ⟨f.unmarked, ⟨before, e, after, rfl, hfield, hname.1, hmark'⟩, hf⟩
  · rintro ⟨g, ⟨before, e, after, rfl, hfield, hname, -⟩, rfl⟩
    refine .inr ⟨before, e, after, rfl, hfield, ?_, by simp [marked]⟩
    rw [Declaration.names_append, List.mem_append, not_or]
    exact ⟨hname, List.not_mem_nil⟩

theorem records_nil : Records ([] : List (Declaration σ)) [] :=
  ⟨rfl, .nil, fun _ => iff_of_false List.not_mem_nil not_isLatest_nil⟩

theorem Records.mem_names_iff (h : Records declarations fields) {name : String} :
    name ∈ fields.map (·.name) ↔ name ∈ Declaration.names declarations := by
  rw [h.names_eq, List.mem_eraseDups]

theorem Records.insert (h : Records declarations fields) (hd : d.field? = some g) :
    Records (declarations ++ [d]) (Field.insert g fields) := by
  have hnames : Declaration.names (declarations ++ [d]) =
      Declaration.names declarations ++ [g.name] := by
    rw [Declaration.names_append, Declaration.names_singleton_of_field? hd]
  have hmem : ∀ f, f ∈ Field.insert g fields ↔ f.IsLatest (declarations ++ [d]) := by
    intro f
    rw [mem_insert_iff h.nodup, h.mem_iff, isLatest_append_of_field? hd]
  by_cases hg : g.name ∈ fields.map (·.name)
  · have hplace := map_name_insert_of_mem hg
    refine ⟨?_, hplace ▸ h.nodup, hmem⟩
    rw [hplace, hnames, List.eraseDups_append, h.names_eq]
    simp [List.removeAll, h.mem_names_iff.mp hg]
  · have hlast : (Field.insert g fields).map (·.name) = fields.map (·.name) ++ [g.name] := by
      rw [insert_of_notMem hg, List.map_append, List.map_singleton]
    refine ⟨?_, ?_, hmem⟩
    · rw [hlast, hnames, List.eraseDups_append, h.names_eq]
      simp [List.removeAll, mt h.mem_names_iff.mpr hg, List.eraseDups_cons]
    · rw [hlast, List.nodup_append_comm]
      exact List.nodup_cons.mpr ⟨hg, h.nodup⟩

theorem Records.marked (h : Records declarations fields) :
    Records (declarations ++ [.readonly]) (fields.map Field.marked) := by
  have hplace : (fields.map Field.marked).map (·.name) = fields.map (·.name) := by
    rw [List.map_map]
    rfl
  refine ⟨?_, hplace ▸ h.nodup, fun f => ?_⟩
  · rw [hplace, h.names_eq, Declaration.names_append]
    exact congrArg List.eraseDups (List.append_nil _).symm
  · rw [List.mem_map, isLatest_append_readonly]
    exact exists_congr fun g => and_congr_left fun _ => h.mem_iff g

/-- One more declaration keeps to the history. -/
theorem Records.declare (h : Records declarations fields) (d : Declaration σ) :
    Records (declarations ++ [d]) (declare fields d) := by
  cases d with
  | required | optional => exact h.insert rfl
  | readonly => exact h.marked

/-- Any number of declarations leave what their history says. -/
theorem records_ofDeclarations (declarations : List (Declaration σ)) :
    Records declarations (ofDeclarations declarations) := by
  induction declarations using List.reverseRecOn with
  | nil => exact records_nil
  | append_singleton declarations d ih =>
    rw [ofDeclarations, List.foldl_append]
    exact ih.declare d

/-! ## Finding fields -/

theorem find?_eq_some_iff (hn : (fields.map (·.name)).Nodup) {name : String} :
    find? fields name = some f ↔ f ∈ fields ∧ f.name = name := by
  induction fields with
  | nil => simp [find?]
  | cons other rest ih =>
    rw [List.map_cons, List.nodup_cons] at hn
    rw [find?, List.find?_cons, List.mem_cons]
    by_cases ho : other.name = name
    · have hrest : f ∈ rest → f.name ≠ name := fun hf e =>
        hn.1 (List.mem_map.mpr ⟨f, hf, e.trans ho.symm⟩)
      simp only [ho, beq_self_eq_true, Option.some.injEq]
      constructor
      · rintro rfl
        exact ⟨.inl rfl, ho⟩
      · rintro ⟨rfl | hf, he⟩
        · rfl
        · exact absurd he (hrest hf)
    · rw [beq_eq_false_iff_ne.mpr ho]
      refine (ih hn.2).trans ⟨fun h => ⟨.inr h.1, h.2⟩, ?_⟩
      rintro ⟨rfl | hf, he⟩
      · exact absurd he ho
      · exact ⟨hf, he⟩

theorem find?_eq_none_iff {name : String} :
    find? fields name = none ↔ name ∉ fields.map (·.name) := by
  simp only [find?, List.find?_eq_none, beq_iff_eq, List.mem_map, not_exists, not_and]

/-! ## Fields under keys -/

/-- Fields under keys, in the order in which the keys were added. -/
abbrev Table (σ : Type) := List (String × Field σ)

namespace Table

/-- Puts a field under a key: in the place of the one under that key, or at the end. -/
def put (key : String) (field : Field σ) : Table σ → Table σ
  | [] => [(key, field)]
  | (other, old) :: rest =>
    if other = key then (other, field) :: rest else (other, old) :: put key field rest

/-- The fields under keys after one more declaration, which puts a field under its name. -/
def declare (table : Table σ) : Declaration σ → Table σ
  | .required name validator => table.put name ⟨name, .required, .mutable, validator⟩
  | .optional name validator => table.put name ⟨name, .optional, .mutable, validator⟩
  | .readonly => table.map fun (key, field) => (key, field.marked)

/-- The fields under keys of a sequence of declarations. -/
def ofDeclarations (declarations : List (Declaration σ)) : Table σ :=
  declarations.foldl declare []

/-- Fields under their names. -/
def ofFields (fields : List (Field σ)) : Table σ := fields.map fun field => (field.name, field)

theorem put_ofFields (f : Field σ) (fields : List (Field σ)) :
    (ofFields fields).put f.name f = ofFields (Field.insert f fields) := by
  induction fields with
  | nil => rfl
  | cons other rest ih =>
    rw [ofFields, List.map_cons, put, Field.insert]
    by_cases h : other.name = f.name
    · rw [if_pos h, if_pos h, h]
      rfl
    · rw [if_neg h, if_neg h]
      exact congrArg ((other.name, other) :: ·) ih

theorem declare_ofFields (fields : List (Field σ)) (d : Declaration σ) :
    (ofFields fields).declare d = ofFields (Field.declare fields d) := by
  cases d with
  | required name validator => exact put_ofFields ⟨name, .required, .mutable, validator⟩ fields
  | optional name validator => exact put_ofFields ⟨name, .optional, .mutable, validator⟩ fields
  | readonly =>
    show (fields.map _).map _ = (fields.map _).map _
    rw [List.map_map, List.map_map]
    rfl

/-- Whatever is declared, each field stands under its name. -/
theorem ofDeclarations_eq (declarations : List (Declaration σ)) :
    ofDeclarations declarations = ofFields (Field.ofDeclarations declarations) := by
  show declarations.foldl declare (ofFields []) = ofFields (declarations.foldl Field.declare [])
  exact List.foldl_hom ofFields declare_ofFields

theorem lookup_ofFields (fields : List (Field σ)) (name : String) :
    (ofFields fields).lookup name = Field.find? fields name := by
  induction fields with
  | nil => rfl
  | cons other rest ih =>
    rw [ofFields, List.map_cons, List.lookup_cons, Field.find?, List.find?_cons, Bool.beq_comm]
    cases other.name == name with
    | true => rfl
    | false => exact ih

end Table

/-! ## Declaring each field once -/

/-- The declaration of a field as it is, without its mark. -/
def declaration (field : Field σ) : Declaration σ :=
  match field.presence with
  | .required => .required field.name field.validator
  | .optional => .optional field.name field.validator

theorem field?_declaration (f : Field σ) : f.declaration.field? = some f.unmarked := by
  obtain ⟨name, presence, mutability, validator⟩ := f
  cases presence <;> rfl

/-- Fields with different names are added at the end, one after the other. -/
theorem foldl_declare_declaration (earlier fields : List (Field σ))
    (hn : ((earlier ++ fields).map (·.name)).Nodup) :
    (fields.map declaration).foldl declare earlier = earlier ++ fields.map unmarked := by
  induction fields generalizing earlier with
  | nil => exact (List.append_nil earlier).symm
  | cons f rest ih =>
    have hnew : f.unmarked.name ∉ earlier.map (·.name) := by
      rw [List.map_append, List.map_cons, List.nodup_middle, List.nodup_cons, List.mem_append,
        not_or] at hn
      exact hn.1.1
    have hrest : ((earlier ++ [f.unmarked] ++ rest).map (·.name)).Nodup := by
      rw [List.append_assoc, List.map_append]
      rw [List.map_append] at hn
      exact hn
    rw [List.map_cons, List.foldl_cons, declare_of_field? (field?_declaration f),
      insert_of_notMem hnew, ih _ hrest, List.map_cons, List.append_assoc, List.singleton_append]

theorem ofDeclarations_map_declaration {fields : List (Field σ)}
    (hn : (fields.map (·.name)).Nodup) :
    ofDeclarations (fields.map declaration) = fields.map unmarked :=
  foldl_declare_declaration [] fields hn

end History

end Field

namespace Schema

/-- The fields of an object are what the history of their declarations leaves, and stand under their
names. So there is at most one field to find under a name, and one if the name was ever declared;
and the object is checked like the one whose fields are declared once each. -/
theorem ofDeclarations_records (declarations : List (Declaration Schema)) :
    Field.Records declarations (Field.ofDeclarations declarations) ∧
    Field.Table.ofDeclarations declarations =
      (Field.ofDeclarations declarations).map (fun field => (field.name, field)) ∧
    (∀ name, (Field.Table.ofDeclarations declarations).lookup name =
      Field.find? (Field.ofDeclarations declarations) name) ∧
    (∀ name field, Field.find? (Field.ofDeclarations declarations) name = some field ↔
      field ∈ Field.ofDeclarations declarations ∧ field.name = name) ∧
    (∀ name, Field.find? (Field.ofDeclarations declarations) name = none ↔
      name ∉ Declaration.names declarations) ∧
    ∀ x, (ofDeclarations declarations).check x =
      (ofDeclarations ((Field.ofDeclarations declarations).map Field.declaration)).check x := by
  have hrecords := Field.records_ofDeclarations declarations
  have htable := Field.Table.ofDeclarations_eq declarations
  refine ⟨hrecords, htable, fun name => ?_, fun name field => ?_, fun name => ?_, fun x => ?_⟩
  · rw [htable, Field.Table.lookup_ofFields]
  · exact Field.find?_eq_some_iff hrecords.nodup
  · rw [Field.find?_eq_none_iff, hrecords.mem_names_iff]
  · rw [ofDeclarations, ofDeclarations, Field.ofDeclarations_map_declaration hrecords.nodup,
      ← check_stripped, stripped]

end Schema

end JsonValidation
