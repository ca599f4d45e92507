import JsonValidation.Proofs.Contexts
import JsonValidation.Proofs.Matching
import JsonValidation.Proofs.Rewriting

/-!
# Equal inputs

Checks treat equal inputs alike, in whatever order the entries of their objects are, as long as the
predicates of guards do. Only a record looks at its entries in their order, so the order can show in
what it reports and calls, but not in what it accepts.

* `Guard.RespectsEquality`: the predicate of a guard answers the same on equal inputs;
* `Schema.transfers_alike`, `Schema.matches_alike`: what is accepted of equal inputs, and for schemas
  without records also what is reported and called;
* `Schema.check_of_equal`: checks respect equality of inputs and of literals.
-/

namespace JsonValidation

/-- Failures with equal payloads, put together alike, are equal. -/
theorem Failure.isCongruence_equal :
    IsCongruence Input.Alike (fun p q => p.equal q = true) where
  mismatch kind h := by simp only [equal, beq_self_eq_true, Bool.true_and, h.equal]
  notUndefined h := h.equal
  notFound name := beq_self_eq_true name
  invalidValue h := h.equal
  lengthNotEqual h := h.equal
  lengthTooShort h := h.equal
  notUnion {ps qs} h := by
    show equalAll ps qs = true
    induction h with
    | nil => rfl
    | cons hpq _ ih => rw [equalAll, hpq, ih, Bool.and_self]
  invalidKey h := h
  invalidElement segment h := by simp only [equal, beq_self_eq_true, Bool.true_and, h]

/-- Whether the predicate of a guard answers the same on equal values. -/
def Guard.RespectsEquality (guard : Guard) : Prop :=
  match guard.test with
  | .onValue test => ∀ v w, v.UniqueKeys → w.UniqueKeys → v.equal w = true → test v = test w
  | .onInput test => ∀ x y, x.UniqueKeys → y.UniqueKeys → x.equal y = true → test x = test y

/-- Equal values are both empty or neither is. -/
theorem Value.isEmpty_congr {v w : Value} (h : v.equal w = true) :
    Predicate.isEmpty v = Predicate.isEmpty w := by
  cases v with
  | string s => cases w with
    | string t => rw [beq_iff_eq.mp h]
    | null | boolean | number | array | object => cases h
  | array values => cases w with
    | array values' =>
      cases Value.equal_array_iff.mp h with
      | nil => rfl
      | cons _ _ => rfl
    | null | boolean | number | string | object => cases h
  | object entries => cases w with
    | object entries' =>
      have hl : entries.length = entries'.length := (Value.equal_object_iff.mp h).1
      cases entries <;> cases entries' <;> first | rfl | cases hl
    | null | boolean | number | string | array => cases h
  | null | boolean | number =>
    cases w <;> first | rfl | cases h

/-- The predicates that have names answer the same on equal values. -/
theorem Predicate.answer_congr (predicate : Predicate) {v w : Value} (h : v.equal w = true) :
    predicate.answer v = predicate.answer w := by
  -- Equal numbers are one integer, or doubles between which no predicate tells.
  have hnumber {property : Number → Bool} (hp : ∀ x y, property (.float x) = property (.float y)) :
      ofNumber property v = ofNumber property w := by
    cases v with
    | number m => cases w with
      | number n =>
        cases m with
        | integer i => cases n with
          | integer j => rw [beq_iff_eq.mp h]
          | float y => cases h
        | float x => cases n with
          | integer j => cases h
          | float y => exact hp x y
      | null | boolean | string | array | object => cases h
    | null | boolean | string | array | object => cases w <;> first | rfl | cases h
  cases predicate with
  | ofKind kind => rw [answer, answer, Value.kind_eq_of_equal h]
  | signed64 | unsigned64 | float | even =>
    exact congrArg Except.ok (hnumber fun _ _ => rfl)
  | empty => rw [answer, answer, Value.isEmpty_congr h]
  | always | never | forbidden => rfl

/-- Whether a schema is a record. -/
def Schema.IsRecord : Schema → Prop
  | .record _ _ => True
  | _ => False

theorem Check.Matches.transfers {R : Input → Input → Prop} {F : Failure → Failure → Prop}
    {a b : Check} (h : a.Matches R F b) : a.Transfers R b := by
  intro x y hxy ha
  have hv := (h hxy).verdict
  rw [ha] at hv
  generalize (b y).verdict = verdict at hv ⊢
  cases hv
  rfl

section Leaves

variable {F : Failure → Failure → Prop} (hF : Failure.IsCongruence Input.Alike F)
include hF

theorem Guard.check_matches {guard : Guard} (hg : guard.RespectsEquality) :
    guard.check.Matches Input.Alike F guard.check := by
  intro x y h
  have hcall (answer : Except String Bool) :
      (guard.afterCall x answer).Matches Input.Alike F (guard.afterCall y answer) := by
    refine ⟨.cons ⟨rfl, h⟩ .nil, ?_⟩
    rcases answer with message | (_ | _)
    · exact .faulted (.guard message)
    · exact .rejected (hF.invalidValue h)
    · exact .accepted
  unfold RespectsEquality at hg
  unfold check
  split at hg
  · rename_i test ht
    rw [ht]
    cases x with
    | absent =>
      cases y with
      | absent => exact Run.matches_reject (hF.invalidValue h)
      | present w => exact nomatch h.equal
    | present v =>
      cases y with
      | absent => exact nomatch h.equal
      | present w =>
        show (guard.afterCall _ (test v)).Matches _ F (guard.afterCall _ (test w))
        rw [hg v w h.left h.right h.equal]
        exact hcall (test w)
  · rename_i test ht
    rw [ht]
    show (guard.afterCall x (test x)).Matches _ F (guard.afterCall y (test y))
    rw [hg x y h.left h.right h.equal]
    exact hcall (test y)

theorem Literal.check_matches (literal : Literal) :
    literal.check.Matches Input.Alike F literal.check := by
  intro x y h
  have ha : literal.accepts x = literal.accepts y := by
    cases x with
    | absent =>
      cases y with
      | absent => rfl
      | present w => exact nomatch h.equal
    | present v =>
      cases y with
      | absent => exact nomatch h.equal
      | present w =>
        cases literal with
        | value u => exact Value.strictlyEqual_left h.left h.right h.equal u
        | undefined | nonFinite => rfl
  rw [check, check, ha]
  split
  · exact Run.matches_accept
  · exact Run.matches_reject (hF.invalidValue h)

end Leaves

theorem Literal.check_value_congr {v w : Value} (hv : v.UniqueKeys) (hw : w.UniqueKeys)
    (h : v.equal w = true) : (Literal.value v).check = (Literal.value w).check := by
  have ha (x : Input) : (Literal.value v).accepts x = (Literal.value w).accepts x := by
    cases x with
    | absent => rfl
    | present u => exact Value.strictlyEqual_right hv hw h u
  funext x
  rw [check, check, ha]

namespace Schema

/-- The inputs that a schema accepts come with all inputs that are equal to them. -/
theorem transfers_alike {schema : Schema}
    (hg : ∀ g ∈ schema.guards, g.Answers ∧ g.RespectsEquality) :
    schema.check.Transfers Input.Alike schema.check := by
  have hR := Input.isBisimulation_alike
  have hF := Failure.isCongruence_equal
  have hself {schemas : List Schema}
      (h : ∀ s ∈ schemas, s.check.Transfers Input.Alike s.check) :
      List.Forall₂ (Check.Transfers Input.Alike) (checks schemas) (checks schemas) :=
    List.forall₂_same.mpr (forall_checks.mpr h)
  induction schema with
  | scalar kind => exact Check.ofKind_transfers hR kind.kind
  | undefined => exact Check.undefined_transfers hR
  | literal l => exact (l.check_matches hF).transfers
  | guard g => exact (Guard.check_matches hF (hg g List.mem_cons_self).2).transfers
  | array items ih => exact Check.array_transfers hR (ih hg)
  | tuple form elements ih =>
    rw [forall_guards_tuple] at hg
    exact Check.tuple_transfers hR (hself fun s hs => ih s hs (hg s hs))
  | restTuple form leading rest ih ihRest =>
    rw [forall_guards_restTuple] at hg
    exact Check.restTuple_transfers hR (hself fun s hs => ih s hs (hg.1 s hs)) (ihRest hg.2)
  | union form first others ih =>
    rw [forall_guards_union] at hg
    have hf : ∀ c ∈ checks (first :: others), c.NeverFaults := forall_checks.mpr fun s hs =>
      neverFaults_of_answers fun g hm => (hg s hs g hm).1
    refine Check.union_transfers hf fun c (hc : c ∈ checks (first :: others)) => ?_
    obtain ⟨s, hs, rfl⟩ := mem_checks.mp hc
    exact ⟨_, hc, ih s hs (hg s hs)⟩
  | intersection form parts ih =>
    rw [forall_guards_intersection] at hg
    refine Check.intersection_transfers fun c hc => ?_
    obtain ⟨s, hs, rfl⟩ := mem_checks.mp hc
    exact ⟨_, hc, ih s hs (hg s hs)⟩
  | record keys values ihKeys ihValues =>
    rw [forall_guards_record] at hg
    exact Check.record_transfers hR (ihKeys hg.1) (ihValues hg.2)
  | object fields ih =>
    rw [forall_guards_object] at hg
    refine Check.object_transfers hR fun c hc => ?_
    obtain ⟨f, hf, rfl⟩ := mem_fieldChecks.mp hc
    exact ⟨_, hc, rfl, id, ih f hf (hg f hf)⟩
  | readonly inner ih | branded brand inner ih | shared inner ih => exact ih hg

/-- A schema without records makes equal calls on equal inputs, and reports equal failures. -/
theorem matches_alike {schema : Schema} (hg : ∀ g ∈ schema.guards, g.RespectsEquality)
    (hn : ∀ s, Inside s schema → ¬ s.IsRecord) :
    schema.check.Matches Input.Alike (fun p q => p.equal q = true) schema.check := by
  have hR := Input.isBisimulation_alike
  have hF := Failure.isCongruence_equal
  have hself {schemas : List Schema} (h : ∀ s ∈ schemas,
      s.check.Matches Input.Alike (fun p q => p.equal q = true) s.check) :
      List.Forall₂ (Check.Matches Input.Alike (fun p q => p.equal q = true)) (checks schemas)
        (checks schemas) :=
    List.forall₂_same.mpr (forall_checks.mpr h)
  have hpart (outer : Schema) (hn : ∀ s, Inside s outer → ¬ s.IsRecord) {part : Schema}
      (hm : part ∈ outer.parts) : ∀ s, Inside s part → ¬ s.IsRecord :=
    fun s hs => hn s (.part hm hs)
  induction schema with
  | scalar kind => exact Check.ofKind_matches hR hF kind.kind
  | undefined => exact Check.undefined_matches hR hF
  | literal l => exact l.check_matches hF
  | guard g => exact Guard.check_matches hF (hg g List.mem_cons_self)
  | array items ih => exact Check.array_matches hR hF (ih hg (hpart _ hn List.mem_cons_self))
  | tuple form elements ih =>
    rw [forall_guards_tuple] at hg
    exact Check.tuple_matches hR hF (hself fun s hs => ih s hs (hg s hs) (hpart _ hn hs))
  | restTuple form leading rest ih ihRest =>
    rw [forall_guards_restTuple] at hg
    have hl := hself fun s hs => ih s hs (hg.1 s hs) (hpart _ hn (List.mem_cons_of_mem rest hs))
    exact Check.restTuple_matches hR hF hl (ihRest hg.2 (hpart _ hn List.mem_cons_self))
  | union form first others ih =>
    rw [forall_guards_union] at hg
    exact Check.union_matches hF (hself fun s hs => ih s hs (hg s hs) (hpart _ hn hs))
  | intersection form parts ih =>
    rw [forall_guards_intersection] at hg
    exact Check.intersection_matches (hself fun s hs => ih s hs (hg s hs) (hpart _ hn hs))
  | record keys values => exact absurd trivial (hn _ .self)
  | object fields ih =>
    rw [forall_guards_object] at hg
    refine Check.object_matches hR hF (List.forall₂_same.mpr fun c hc => ?_)
    obtain ⟨f, hf, rfl⟩ := mem_fieldChecks.mp hc
    exact ⟨rfl, rfl, ih f hf (hg f hf) (hpart _ hn (List.mem_map_of_mem hf))⟩
  | readonly inner ih | branded brand inner ih | shared inner ih =>
    exact ih hg (hpart _ hn List.mem_cons_self)

/-- A schema whose guards respect equality accepts equal values or neither, and if there is no record
inside it, it makes equal calls on them and rejects them with equal failures. A literal anywhere
inside a schema may be replaced by an equal one without any change. -/
theorem check_of_equal (schema : Schema) :
    ((∀ g ∈ schema.guards, g.Answers ∧ g.RespectsEquality) →
      ∀ v w : Value, v.UniqueKeys → w.UniqueKeys → v.equal w = true →
        ((schema.check (.present v)).verdict = .accepted ↔
          (schema.check (.present w)).verdict = .accepted) ∧
        ((∀ s, Inside s schema → ¬ s.IsRecord) →
          (schema.check (.present v)).Matches Input.Alike (fun p q => p.equal q = true)
            (schema.check (.present w)))) ∧
    ∀ (context : Context) (v w : Value), schema = context.fill (.literal (.value v)) →
      v.UniqueKeys → w.UniqueKeys → v.equal w = true →
        (context.fill (.literal (.value w))).check = schema.check := by
  constructor
  · intro hg v w hv hw h
    have ha : (Input.present v).Alike (.present w) := ⟨hv, hw, h⟩
    refine ⟨⟨transfers_alike hg ha, transfers_alike hg ha.symm⟩, fun hn => ?_⟩
    exact matches_alike (fun g hm => (hg g hm).2) hn ha
  · rintro context v w rfl hv hw h
    have hl : (Schema.literal (.value w)).check = (Schema.literal (.value v)).check :=
      (Literal.check_value_congr hv hw h).symm
    exact context.check_fill_congr hl

/-- The even numbers that are integers of 64 bits. -/
def evens : Schema := .guard ⟨.number, none, .onValue Predicate.even.answer⟩

/-- A point on an axis, with a zero of either sign and its entries in either order. -/
def onAxis : Bool → Value
  | true => .object [("x", .ofNat 1), ("y", .number (.float (.zero true)))]
  | false => .object [("y", .number (.float (.zero false))), ("x", .ofNat 1)]

/-- Objects with an even number and a list of even numbers and of points that are filled in. -/
def plot : Context :=
  [.objectField [⟨"n", .required, .mutable, evens⟩] "points" .optional .mutable [], .array,
    .union .written [evens] []]

/-- Objects with an even number and a list of even numbers and of one point. -/
def plots : Schema := plot.fill (.literal (.value (onAxis true)))

/-- An object with a number and a list of a point and of a list of points, its entries in either
order. -/
def plotted : Bool → Value
  | true => .object [("n", .ofNat 2), ("points", .array [onAxis true, .array [onAxis true]])]
  | false => .object [("points", .array [onAxis false, .array [onAxis false]]), ("n", .ofNat 2)]

theorem check_of_equal_plots :
    (plots.check (.present (plotted true))).Matches Input.Alike (fun p q => p.equal q = true)
      (plots.check (.present (plotted false))) ∧
    (plots.check (.present (plotted true))).verdict ≠ .accepted ∧
    (plot.fill (.literal (.value (onAxis false)))).check = plots.check := by
  have hu (b : Bool) : (onAxis b).UniqueKeys ∧ (plotted b).UniqueKeys := by
    cases b <;> decide
  have he : ∀ g ∈ evens.guards, g.Answers ∧ g.RespectsEquality := by
    refine List.forall_mem_singleton.mpr ⟨fun v => ⟨_, rfl⟩, fun v w _ _ h => ?_⟩
    exact Predicate.even.answer_congr h
  have hg : ∀ g ∈ plots.guards, g.Answers ∧ g.RespectsEquality :=
    List.forall_mem_append.mpr ⟨he, he⟩
  have hn : ∀ s, Inside s plots → ¬ s.IsRecord := by
    have hevens : ∀ s, Inside s evens → ¬ s.IsRecord := forall_inside_of_parts id nofun
    have hpoints : ∀ s, Inside s (.union .written evens [.literal (.value (onAxis true))]) →
        ¬ s.IsRecord := by
      refine forall_inside_of_parts id (List.forall_mem_cons.mpr ⟨hevens, ?_⟩)
      exact List.forall_mem_singleton.mpr (forall_inside_of_parts id nofun)
    refine forall_inside_of_parts id (List.forall_mem_cons.mpr ⟨hevens, ?_⟩)
    refine List.forall_mem_singleton.mpr (forall_inside_of_parts id ?_)
    exact List.forall_mem_singleton.mpr hpoints
  obtain ⟨ha, hl⟩ := check_of_equal plots
  have hm := ha hg _ _ (hu true).2 (hu false).2 rfl
  exact ⟨hm.2 hn, nofun, hl plot _ _ rfl (hu true).1 (hu false).1 rfl⟩

end Schema

end JsonValidation
