import JsonValidation.Proofs.Leaves
import JsonValidation.Proofs.OneLine
import JsonValidation.Proofs.Rejections
import JsonValidation.Proofs.Work

/-!
# The lines of a report

The text of a report has a line for each issue, under a line that counts them. An issue is written
with the values that it is about, in which line breaks are escaped, and with the names on its location,
in which they are not. So a report can be cut into its lines again unless such a name has a line break
in it:

* `Report.lines`, `Report.IsLineByLine`: the lines of a report, and whether its text is cut into them;
* `Location.names`: the names on a location;
* `Schema.isLineByLine_iff_of_rejected`: which reports of rejected inputs are cut into their lines, and
  where the names come from.
-/

namespace JsonValidation

/-! ## Cutting lists -/

section Cutting

variable {α : Type} [DecidableEq α] {a : α}

theorem not_mem_of_mem_splitOn {piece whole : List α} (h : piece ∈ whole.splitOn a) : a ∉ piece := by
  induction whole generalizing piece with
  | nil =>
    obtain rfl := List.mem_singleton.mp h
    exact List.not_mem_nil
  | cons b rest ih =>
    rw [List.splitOn_cons_eq_if_modifyHead] at h
    split at h
    · rcases List.mem_cons.mp h with rfl | h
      · exact List.not_mem_nil
      · exact ih h
    · rename_i hb
      obtain ⟨first, others, hs⟩ := List.exists_cons_of_ne_nil (List.splitOn_ne_nil a rest)
      -- The character goes to the first piece; the others are as before.
      rw [hs] at h ih
      rcases List.mem_cons.mp h with rfl | h
      · have hne : a ≠ b := fun e => hb (beq_iff_eq.mpr e.symm)
        exact List.not_mem_cons_of_ne_of_not_mem hne (ih List.mem_cons_self)
      · exact ih (List.mem_cons_of_mem _ h)

/-- What ends each line cuts them apart, and every line where it stands in the line as well. -/
theorem splitOn_flatMap_concat (lines : List (List α)) :
    (lines.flatMap (· ++ [a])).splitOn a = lines.flatMap (·.splitOn a) ++ [[]] := by
  induction lines with
  | nil => exact List.splitOn_nil a
  | cons line rest ih =>
    rw [List.flatMap_cons, List.append_assoc, List.singleton_append,
      List.splitOn_append_cons_self, ih, List.flatMap_cons, List.append_assoc]

theorem flatMap_splitOn_eq_self_iff {lines : List (List α)} :
    lines.flatMap (·.splitOn a) = lines ↔ ∀ line ∈ lines, a ∉ line := by
  constructor
  · intro h line hm
    rw [← h] at hm
    obtain ⟨_, -, hm⟩ := List.mem_flatMap.mp hm
    exact not_mem_of_mem_splitOn hm
  · intro h
    calc lines.flatMap (·.splitOn a)
        = lines.flatMap fun line => [line] :=
          List.flatMap_congr fun line hm => List.splitOn_eq_singleton (h line hm)
      _ = lines := List.flatMap_singleton' lines

end Cutting

/-! ## Names on locations -/

/-- The name of a step to the entry with a key. -/
def Segment.name? : Segment → Option String
  | .field name => some name
  | .index _ => none

theorem Segment.filterMap_name?_field (name : String) (rest : List Segment) :
    (field name :: rest).filterMap name? = name :: rest.filterMap name? := rfl

theorem Segment.filterMap_name?_index (n : Nat) (rest : List Segment) :
    (index n :: rest).filterMap name? = rest.filterMap name? := rfl

namespace Location

/-- The names on a location. -/
def names (location : Location) : List String := location.segments.filterMap Segment.name?

theorem isOneLine_indexText (n : Nat) : IsOneLine (Segment.index n).text :=
  (isOneLine_natRepr n).between (by decide) (by decide)

theorem isOneLine_tailText_iff {segments : List Segment} :
    IsOneLine (tailText segments) ↔
      ∀ name ∈ segments.filterMap Segment.name?, IsOneLine name := by
  induction segments with
  | nil => exact iff_of_true (by decide) fun _ h => absurd h List.not_mem_nil
  | cons segment rest ih =>
    cases segment with
    | field name =>
      have hpoint : IsOneLine "." := by decide
      rw [tailText, Segment.filterMap_name?_field, List.forall_mem_cons, isOneLine_append,
        isOneLine_append, ih, and_iff_right hpoint]
    | index n =>
      rw [tailText, Segment.filterMap_name?_index, isOneLine_append, ih,
        and_iff_right (isOneLine_indexText n)]

theorem isOneLine_text_iff {location : Location} :
    IsOneLine location.text ↔ ∀ name ∈ location.names, IsOneLine name := by
  obtain ⟨segments⟩ := location
  cases segments with
  | nil => exact iff_of_true (by decide) fun _ h => absurd h List.not_mem_nil
  | cons segment rest =>
    show IsOneLine (segment.text ++ tailText rest) ↔ _
    rw [names, isOneLine_append, isOneLine_tailText_iff]
    cases segment with
    | field name => rw [Segment.filterMap_name?_field, List.forall_mem_cons, Segment.text]
    | index n => rw [Segment.filterMap_name?_index, and_iff_right (isOneLine_indexText n)]

end Location

/-! ## Issues -/

theorem Kind.isOneLine_name (kind : Kind) : IsOneLine kind.name := by
  cases kind <;> decide

namespace Issue

theorem isOneLine_noteText {label : String} {note : Option String} (hl : IsOneLine label)
    (hn : ∀ text ∈ note, IsOneLine text) : IsOneLine (noteText label note) := by
  cases note with
  | none => exact List.not_mem_nil
  | some text =>
    have hopening : IsOneLine (" (" ++ label ++ ": ") := hl.between (by decide) (by decide)
    exact (hn text rfl).between hopening (by decide)

theorem isOneLine_text_iff {issue : Issue} (hexpected : ∀ text ∈ issue.expected, IsOneLine text)
    (hgot : ∀ text ∈ issue.got, IsOneLine text) :
    IsOneLine issue.text ↔
      (∀ name ∈ issue.location.names, IsOneLine name) ∧ IsOneLine issue.message := by
  have hcolon : IsOneLine ": " := by decide
  have hexpected : IsOneLine (noteText "expected" issue.expected) :=
    isOneLine_noteText (by decide) hexpected
  have hgot : IsOneLine (noteText "got" issue.got) := isOneLine_noteText (by decide) hgot
  have hlocation : IsOneLine (if issue.location.isRoot then "(root)" else issue.location.text) ↔
      ∀ name ∈ issue.location.names, IsOneLine name := by
    rw [← Location.isOneLine_text_iff]
    split
    · rename_i h
      have hroot : issue.location.segments = [] := List.isEmpty_iff.mp h
      rw [Location.text, hroot]
      decide
    · rfl
  simp only [text, isOneLine_append, hlocation, hcolon, hexpected, hgot, and_true]

end Issue

namespace Failure

theorem isOneLine_itemsText (got : Value) : IsOneLine (itemsText got) :=
  isOneLine_append.mpr ⟨isOneLine_natRepr _, by decide⟩

theorem isOneLine_gotNote (p : Failure) : ∀ text ∈ p.gotNote, IsOneLine text := by
  intro text h
  cases p with
  | mismatch expected got =>
    obtain rfl := Option.some.inj h
    cases got with
    | absent => decide
    | present v => exact v.kind.isOneLine_name
  | notUndefined got =>
    obtain rfl := Option.some.inj h
    exact got.kind.isOneLine_name
  | invalidValue got =>
    obtain rfl := Option.some.inj h
    exact got.isOneLine_text
  | lengthNotEqual got | lengthTooShort got =>
    obtain rfl := Option.some.inj h
    exact isOneLine_itemsText got
  | notFound | notUnion | invalidKey | invalidElement => cases h

theorem isOneLine_expectedNote (p : Failure) : ∀ text ∈ p.expectedNote, IsOneLine text := by
  intro text h
  cases p with
  | mismatch expected got =>
    obtain rfl := Option.some.inj h
    exact expected.isOneLine_name
  | notUndefined | notFound =>
    obtain rfl := Option.some.inj h
    decide
  | invalidValue | lengthNotEqual | lengthTooShort | notUnion | invalidKey | invalidElement =>
    cases h

/-- All that the message of a leaf takes over as it is is the name of a missing field. -/
theorem isOneLine_text_of_isLeaf {p : Failure} (hp : p.IsLeaf)
    (hn : ∀ name, p = .notFound name → IsOneLine name) : IsOneLine p.text := by
  cases p with
  | mismatch expected got =>
    show IsOneLine ("expected " ++ expected.name ++ ", got " ++ got.text)
    exact isOneLine_append.mpr
      ⟨expected.isOneLine_name.between (by decide) (by decide), got.isOneLine_text⟩
  | notUndefined got =>
    show IsOneLine ("expected undefined, got " ++ got.text)
    exact isOneLine_append.mpr ⟨by decide, got.isOneLine_text⟩
  | notFound name =>
    show IsOneLine ("required field '" ++ name ++ "' is missing")
    exact (hn name rfl).between (by decide) (by decide)
  | invalidValue got =>
    show IsOneLine ("invalid value " ++ got.text)
    exact isOneLine_append.mpr ⟨by decide, got.isOneLine_text⟩
  | lengthNotEqual got =>
    show IsOneLine ("tuple length mismatch, got " ++ itemsText got)
    exact isOneLine_append.mpr ⟨by decide, isOneLine_itemsText got⟩
  | lengthTooShort got =>
    show IsOneLine ("tuple too short, got " ++ itemsText got)
    exact isOneLine_append.mpr ⟨by decide, isOneLine_itemsText got⟩
  | notUnion alternatives => cases alternatives with
    | nil => decide
    | cons first rest => exact hp.elim
  | invalidKey | invalidElement => exact hp.elim

end Failure

namespace Leaf

theorem isOneLine_message {leaf : Leaf} (h : IsOneLine leaf.failure.text) :
    IsOneLine leaf.message := by
  refine isOneLine_append.mpr ⟨?_, h⟩
  rw [IsOneLine, String.toList_join, List.mem_flatMap]
  rintro ⟨mark, hm, hc⟩
  obtain rfl := List.eq_of_mem_replicate hm
  exact absurd hc (by decide)

/-- A name on the location of a leaf is that of a step on the route to it, or of the missing field. -/
theorem mem_names_iff {leaf : Leaf} {name : String} :
    name ∈ leaf.location.names ↔
      .element (.field name) ∈ leaf.route ∨ leaf.failure = .notFound name := by
  have hroute : name ∈ (leaf.route.filterMap Turn.segment?).filterMap Segment.name? ↔
      .element (.field name) ∈ leaf.route := by
    simp only [List.mem_filterMap]
    constructor
    · rintro ⟨segment, ⟨turn, hm, ht⟩, hs⟩
      cases segment with
      | field =>
        obtain rfl := Option.some.inj hs
        cases turn with
        | element =>
          obtain rfl := Option.some.inj ht
          exact hm
        | key | alternative => cases ht
      | index => cases hs
    · intro hm
      exact ⟨.field name, ⟨_, hm, rfl⟩, rfl⟩
  rw [location, Location.names, List.filterMap_append, List.mem_append, hroute]
  cases leaf.failure <;> simp [Segment.name?, eq_comm]

theorem isOneLine_text_issue_iff {leaf : Leaf} (h : leaf.failure.IsLeaf) :
    IsOneLine leaf.issue.text ↔ ∀ name ∈ leaf.issue.location.names, IsOneLine name := by
  -- The name of a missing field is in the message, but it is the last one on the location as well.
  rw [Issue.isOneLine_text_iff leaf.failure.isOneLine_expectedNote leaf.failure.isOneLine_gotNote,
    and_iff_left_iff_imp]
  intro hnames
  exact isOneLine_message (Failure.isOneLine_text_of_isLeaf h fun name hn =>
    hnames name (mem_names_iff.mpr (.inr hn)))

end Leaf

/-! ## Reports -/

namespace Report

/-- The lines of a report: one with the number of issues, then the issues, numbered from one. -/
def lines (report : Report) : List String :=
  ("rejected with " ++ report.length.repr ++ " error(s):") ::
    (report.toList.zipIdx 1).map fun (issue, place) => "  " ++ place.repr ++ ". " ++ issue.text

/-- Whether the text of a report is cut into its lines at the line breaks, with nothing after the last
one. -/
def IsLineByLine (report : Report) : Prop :=
  report.text.toList.splitOn '\n' = report.lines.map String.toList ++ [[]]

instance decidableIsLineByLine (report : Report) : Decidable report.IsLineByLine :=
  inferInstanceAs (Decidable (_ = _))

theorem toList_text (report : Report) :
    report.text.toList = (report.lines.map String.toList).flatMap (· ++ ['\n']) := by
  show ("rejected with " ++ report.length.repr ++ (" error(s):" ++ "\n") ++
    String.join ((report.toList.zipIdx 1).map fun (issue, place) =>
      "  " ++ place.repr ++ ". " ++ issue.text ++ "\n")).toList = _
  simp [lines, String.toList_join, List.flatMap_map]

/-- A text is cut after each of its lines, and inside a line at its own line breaks. -/
theorem splitOn_text (report : Report) :
    report.text.toList.splitOn '\n' =
      (report.lines.map String.toList).flatMap (·.splitOn '\n') ++ [[]] := by
  rw [toList_text, splitOn_flatMap_concat]

theorem forall_lines_iff {report : Report} :
    (∀ line ∈ report.lines, IsOneLine line) ↔ ∀ issue ∈ report.toList, IsOneLine issue.text := by
  have hheader : IsOneLine ("rejected with " ++ report.length.repr ++ " error(s):") :=
    (isOneLine_natRepr _).between (by decide) (by decide)
  have hline (issue : Issue) (place : Nat) :
      IsOneLine ("  " ++ place.repr ++ ". " ++ issue.text) ↔ IsOneLine issue.text := by
    rw [isOneLine_append, and_iff_right]
    exact (isOneLine_natRepr place).between (by decide) (by decide)
  have hissues : (∀ issue ∈ report.toList, IsOneLine issue.text) ↔
      ∀ e ∈ report.toList.zipIdx 1, IsOneLine e.1.text := by
    conv_lhs => rw [← List.zipIdx_map_fst 1 report.toList]
    exact List.forall_mem_map
  rw [lines, List.forall_mem_cons, and_iff_right hheader, List.forall_mem_map, hissues]
  exact forall₂_congr fun e _ => hline e.1 e.2

theorem isLineByLine_iff {report : Report} :
    report.IsLineByLine ↔ ∀ issue ∈ report.toList, IsOneLine issue.text := by
  rw [IsLineByLine, splitOn_text, List.append_left_inj, flatMap_splitOn_eq_self_iff,
    List.forall_mem_map, ← forall_lines_iff]
  rfl

end Report

/-- The report of a failure is cut into its lines unless a name on the location of an issue has a line
break in it. -/
theorem Failure.isLineByLine_report_iff (p : Failure) :
    p.report.IsLineByLine ↔
      ∀ issue ∈ p.report.toList, ∀ name ∈ issue.location.names, IsOneLine name := by
  rw [Report.isLineByLine_iff, toList_report, List.forall_mem_map, List.forall_mem_map]
  exact forall₂_congr fun leaf hm => Leaf.isOneLine_text_issue_iff (leads_of_mem_leaves hm).2

/-! ## Where names come from -/

/-- Whether a name is a key of an object inside an input. -/
def Input.HasKey (x : Input) (name : String) : Prop :=
  ∃ entries, .present (.object entries) ∈ x.parts ∧ name ∈ entries.map Prod.fst

theorem Input.HasKey.of_parts {v w : Value} {name : String} (hs : ∀ u ∈ v.parts, u ∈ w.parts)
    (h : (present v).HasKey name) : (present w).HasKey name := by
  obtain ⟨entries, hm, hkey⟩ := h
  obtain ⟨u, hu, he⟩ := List.mem_map.mp hm
  exact ⟨entries, List.mem_map.mpr ⟨u, hs u hu, he⟩, hkey⟩

theorem Input.not_hasKey_string {s name : String} : ¬ (present (.string s)).HasKey name := by
  rintro ⟨entries, hm, -⟩
  cases List.mem_singleton.mp hm

/-- The names on the way to a failure inside one that was reported for an input are keys in the
input. -/
theorem Failure.Arises.hasKey {p q : Failure} {x : Input} (h : p.Arises x) {route : List Turn}
    (leads : p.Leads route q) {name : String} (hm : .element (.field name) ∈ route) :
    x.HasKey name := by
  induction h generalizing route with
  | mismatch | notUndefined | notFound | invalidValue | lengthNotEqual | lengthTooShort =>
    cases leads
    cases hm
  | notUnion _ _ ih =>
    cases leads with
    | here => cases hm
    | alternative get leads =>
      have hm := (List.mem_cons.mp hm).resolve_left nofun
      exact ih _ (List.mem_of_getElem? get) leads hm
  | key _ _ ih =>
    cases leads with
    | here => cases hm
    | key leads =>
      -- What is inside a rejected key is about the key, a string, and a string has no entries.
      have hm := (List.mem_cons.mp hm).resolve_left nofun
      exact absurd (ih leads hm) Input.not_hasKey_string
  | element found _ ih =>
    cases leads with
    | here => cases hm
    | element leads =>
      have hm := (List.mem_cons.mp hm).resolve_left nofun
      exact (ih leads hm).of_parts fun _ => Value.mem_parts_array (List.mem_of_getElem? found)
  | @entry _ entries key v mem _ ih =>
    cases leads with
    | here => cases hm
    | element leads =>
      rcases List.mem_cons.mp hm with hname | hm
      · cases hname
        exact ⟨entries, List.mem_map_of_mem (Value.self_mem_parts _), List.mem_map_of_mem mem⟩
      · exact (ih leads hm).of_parts fun _ => Value.mem_parts_object mem

namespace Schema

/-- Whether a name is that of a required field of an object inside a schema. -/
def Requires (schema : Schema) (name : String) : Prop :=
  ∃ object, Inside object schema ∧ object.HasRequired name

theorem Requires.of_part {schema part : Schema} {name : String} (hp : part ∈ schema.parts)
    (h : part.Requires name) : schema.Requires name := by
  obtain ⟨object, inside, hr⟩ := h
  exact ⟨object, .part hp inside, hr⟩

/-- The fields that a failure reports as missing are required by the schema. -/
theorem requires_of_leads {schema : Schema} {x : Input} {p : Failure}
    (h : (schema.check x).verdict = .rejected p) {route : List Turn} {name : String}
    (leads : p.Leads route (.notFound name)) : schema.Requires name := by
  induction schema using partInduction generalizing x p route with
  | step schema ih =>
    cases rejection_of_rejected h with
    | mismatch | notUndefined | invalidValue | lengthNotEqual | lengthTooShort => cases leads
    | notFound missing required =>
      cases leads
      exact ⟨schema, .self, required⟩
    | notUnion _ rejected =>
      cases leads with
      | alternative get leads =>
        obtain ⟨part, mem, hr⟩ := rejected _ (List.mem_of_getElem? get)
        exact (ih part mem hr leads).of_part mem
    | whole mem rejected => exact (ih _ mem rejected leads).of_part mem
    | key mem _ rejected =>
      cases leads with
      | key leads => exact (ih _ mem rejected leads).of_part mem
    | element mem _ rejected =>
      cases leads with
      | element leads => exact (ih _ mem rejected leads).of_part mem
    | entry mem _ rejected =>
      cases leads with
      | element leads => exact (ih _ mem rejected leads).of_part mem

/-- The text of the report of a rejected input is its lines, each ended by a line break. It is cut into
them again unless a name on the location of an issue has a line break in it, and such a name is a key
in the input or that of a field that the schema requires. -/
theorem isLineByLine_iff_of_rejected {schema : Schema} {x : Input} {failure : Failure}
    (h : (schema.check x).verdict = .rejected failure) :
    failure.report.text.toList =
      (failure.report.lines.map String.toList).flatMap (· ++ ['\n']) ∧
    (failure.report.IsLineByLine ↔
      ∀ issue ∈ failure.report.toList, ∀ name ∈ issue.location.names, IsOneLine name) ∧
    ∀ issue ∈ failure.report.toList, ∀ name ∈ issue.location.names,
      x.HasKey name ∨ schema.Requires name := by
  refine ⟨failure.report.toList_text, failure.isLineByLine_report_iff, ?_⟩
  rw [failure.toList_report, List.forall_mem_map]
  intro leaf hm name hn
  have leads := (Failure.leads_of_mem_leaves hm).1
  rcases Leaf.mem_names_iff.mp hn with hroute | hmissing
  · exact .inl ((arises_of_rejected h).hasKey leads hroute)
  · exact .inr (requires_of_leads h (hmissing ▸ leads))

/-- Objects with nothing but numbers, under no other key than `k`. -/
def numbersUnderK : Schema := .record (.literal (.value (.string "k"))) (.scalar .number)

/-- A rejected key and a rejected string with line breaks in them, both of which are quoted. -/
theorem isLineByLine_iff_of_rejected_quoted :
    (∃ failure, (numbersUnderK.check (.present (.object [("a\nb", .ofNat 1)]))).verdict =
        .rejected failure ∧ failure.report.IsLineByLine) ∧
      ∃ failure, (numbersUnderK.check (.present (.object [("k", .string "a\nb")]))).verdict =
        .rejected failure ∧ failure.report.IsLineByLine := by
  constructor
  · have h : (numbersUnderK.check (.present (.object [("a\nb", .ofNat 1)]))).verdict =
        .rejected (.invalidKey (.invalidValue (.present (.string "a\nb")))) := rfl
    exact ⟨_, h, (isLineByLine_iff_of_rejected h).2.1.mpr (by decide)⟩
  · have h : (numbersUnderK.check (.present (.object [("k", .string "a\nb")]))).verdict =
        .rejected (.invalidElement (.field "k")
          (.mismatch .number (.present (.string "a\nb")))) := rfl
    exact ⟨_, h, (isLineByLine_iff_of_rejected h).2.1.mpr (by decide)⟩

/-- Objects with a required field whose name has a line break in it. -/
def brokenName : Schema := .object [⟨"a\nb", .required, .mutable, .scalar .string⟩]

/-- The report of an object without that field has one issue, whose line is cut in three. -/
theorem brokenName_not_lineByLine : ∃ failure,
    (brokenName.check (.present (.object []))).verdict = .rejected failure ∧
      failure.report.length = 1 ∧ (failure.report.text.toList.splitOn '\n').length = 1 + 3 + 1 ∧
      ¬ failure.report.IsLineByLine := by
  have h : (brokenName.check (.present (.object []))).verdict = .rejected (.notFound "a\nb") := rfl
  exact ⟨_, h, rfl, by decide, by decide⟩

end Schema

end JsonValidation
