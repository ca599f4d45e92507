import JsonValidation.Parse
import JsonValidation.Proofs.Rejections

/-!
# Reading failures back

A failure that was written as a value can be read back, because every constructor has a code of its
own and a step to a part shows whether it is a key or a position. An absent payload is written as
null, and this is all that is lost; the checks of present inputs report no absent payload.

* `Failure.ofValue?`: the failure that was written as a value;
* `Failure.ofValue?_toValue`: a failure is read back with null for its absent payloads;
* `Schema.nulled_of_parse`: present inputs are rejected with failures that are read back as they were;
* `Failure.toValue_loses_only_absence`: what two equal values say about the failures they stand for.
-/

namespace JsonValidation

/-! ## Reading back -/

/-- The kind whose name a code ends in, if it says that a kind was expected. -/
def Kind.ofCode? (code : String) : Option Kind :=
  [.null, .boolean, .number, .string, .array, .object].find? fun kind => "not_" ++ kind.name == code

/-- The segment that was written as a value. -/
def Segment.ofValue? : Value → Option Segment
  | .string name => some (.field name)
  | .number (.integer (.ofNat n)) => some (.index n)
  | _ => none

theorem Segment.ofValue?_toValue (segment : Segment) : ofValue? segment.toValue = some segment := by
  cases segment <;> rfl

mutual

/-- The failure that was written as a value, with all payloads present. -/
def Failure.ofValue? : Value → Option Failure
  | .object [("not_undefined", got)] => some (.notUndefined got)
  | .object [("not_found", .string name)] => some (.notFound name)
  | .object [("invalid_value", got)] => some (.invalidValue (.present got))
  | .object [("length_not_equal", got)] => some (.lengthNotEqual got)
  | .object [("length_too_short", got)] => some (.lengthTooShort got)
  | .object [("not_union", .array items)] => (Failure.ofValues? items).map .notUnion
  | .object [("invalid_element_key", .object [("path", inner)])] =>
    (Failure.ofValue? inner).map .invalidKey
  | .object [("invalid_element_value", .object [("key", segment), ("path", inner)])] => do
    return .invalidElement (← Segment.ofValue? segment) (← Failure.ofValue? inner)
  | .object [(code, got)] => (Kind.ofCode? code).map fun kind => .mismatch kind (.present got)
  | _ => none

/-- The failures that were written as values. -/
def Failure.ofValues? : List Value → Option (List Failure)
  | [] => some []
  | v :: rest => do return (← Failure.ofValue? v) :: (← Failure.ofValues? rest)

end

/-! ## Absent payloads -/

mutual

/-- A failure in which absent payloads are replaced by null. -/
def Failure.nulled : Failure → Failure
  | .mismatch expected got => .mismatch expected (.present got.toValue)
  | .invalidValue got => .invalidValue (.present got.toValue)
  | .notUnion alternatives => .notUnion (Failure.nulledAll alternatives)
  | .invalidKey inner => .invalidKey inner.nulled
  | .invalidElement segment inner => .invalidElement segment inner.nulled
  | failure => failure

/-- Failures in which absent payloads are replaced by null. -/
def Failure.nulledAll : List Failure → List Failure
  | [] => []
  | failure :: rest => failure.nulled :: Failure.nulledAll rest

end

mutual

/-- The payloads of a failure. -/
def Failure.payloads : Failure → List Input
  | .mismatch _ got | .invalidValue got => [got]
  | .notUndefined got | .lengthNotEqual got | .lengthTooShort got => [.present got]
  | .notFound _ => []
  | .notUnion alternatives => Failure.payloadsOfAll alternatives
  | .invalidKey inner | .invalidElement _ inner => inner.payloads

/-- The payloads of several failures. -/
def Failure.payloadsOfAll : List Failure → List Input
  | [] => []
  | failure :: rest => failure.payloads ++ Failure.payloadsOfAll rest

end

namespace Failure

variable {failures : List Failure}

theorem toValues_eq_map (failures : List Failure) : toValues failures = failures.map toValue := by
  induction failures with
  | nil => rfl
  | cons failure rest ih => rw [toValues, ih, List.map_cons]

theorem nulledAll_eq_map (failures : List Failure) : nulledAll failures = failures.map nulled := by
  induction failures with
  | nil => rfl
  | cons failure rest ih => rw [nulledAll, ih, List.map_cons]

theorem payloadsOfAll_eq_flatMap (failures : List Failure) :
    payloadsOfAll failures = failures.flatMap payloads := by
  induction failures with
  | nil => rfl
  | cons failure rest ih => rw [payloadsOfAll, ih, List.flatMap_cons]

/-- Nothing is replaced where no payload is absent. -/
theorem nulled_of_present {p : Failure} (h : .absent ∉ p.payloads) : p.nulled = p := by
  have hgot {got : Input} (h : .absent ∉ [got]) : .present got.toValue = got := by
    cases got with
    | absent => exact absurd List.mem_cons_self h
    | present v => rfl
  induction p with
  | mismatch expected got => rw [nulled, hgot h]
  | invalidValue got => rw [nulled, hgot h]
  | notUndefined | notFound | lengthNotEqual | lengthTooShort => rfl
  | notUnion alternatives ih =>
    rw [payloads, payloadsOfAll_eq_flatMap] at h
    have hall : alternatives.map nulled = alternatives := by
      calc alternatives.map nulled
          = alternatives.map id := List.map_congr_left fun p hp =>
            ih p hp fun hm => h (List.mem_flatMap.mpr ⟨p, hp, hm⟩)
        _ = alternatives := List.map_id alternatives
    rw [nulled, nulledAll_eq_map, hall]
  | invalidKey inner ih => rw [nulled, ih h]
  | invalidElement segment inner ih => rw [nulled, ih h]

/-- An absent payload is written like null. -/
theorem toValue_nulled (p : Failure) : p.nulled.toValue = p.toValue := by
  induction p with
  | mismatch | notUndefined | notFound | invalidValue | lengthNotEqual | lengthTooShort => rfl
  | notUnion alternatives ih =>
    have hall : alternatives.map (toValue ∘ nulled) = alternatives.map toValue :=
      List.map_congr_left ih
    rw [nulled, toValue, toValue, nulledAll_eq_map, toValues_eq_map, toValues_eq_map, List.map_map,
      hall]
  | invalidKey inner ih => rw [nulled, toValue, toValue, ih]
  | invalidElement segment inner ih => rw [nulled, toValue, toValue, ih]

theorem ofValues?_toValues (h : ∀ p ∈ failures, ofValue? p.toValue = some p.nulled) :
    ofValues? (toValues failures) = some (nulledAll failures) := by
  induction failures with
  | nil => rfl
  | cons p rest ih =>
    obtain ⟨hp, hr⟩ := List.forall_mem_cons.mp h
    rw [toValues, ofValues?, hp, ih hr, nulledAll]
    rfl

/-- A failure is read back as it was, but for null where a payload was absent. -/
theorem ofValue?_toValue (p : Failure) : ofValue? p.toValue = some p.nulled := by
  induction p with
  | mismatch expected got => cases expected <;> rfl
  | notUndefined | notFound | invalidValue | lengthNotEqual | lengthTooShort => rfl
  | notUnion alternatives ih =>
    show (ofValues? (toValues alternatives)).map notUnion = _
    rw [ofValues?_toValues ih, Option.map_some, nulled]
  | invalidKey inner ih =>
    show (ofValue? inner.toValue).map invalidKey = _
    rw [ih, Option.map_some, nulled]
  | invalidElement segment inner ih =>
    show (do
      return invalidElement (← Segment.ofValue? segment.toValue) (← ofValue? inner.toValue)) =
      some (invalidElement segment inner.nulled)
    rw [ih, segment.ofValue?_toValue]
    rfl

theorem toValue_eq_iff (p q : Failure) : p.toValue = q.toValue ↔ p.nulled = q.nulled := by
  constructor
  · intro h
    have hp := ofValue?_toValue p
    rw [h, ofValue?_toValue] at hp
    exact (Option.some.inj hp).symm
  · intro h
    rw [← toValue_nulled p, h, toValue_nulled]

/-- What arises for a present input has no absent payload. -/
theorem Arises.absent_notMem {failure : Failure} {x : Input} (h : failure.Arises x)
    (hx : x ≠ .absent) : .absent ∉ failure.payloads := by
  induction h with
  | mismatch | invalidValue => exact fun hm => hx (List.mem_singleton.mp hm).symm
  | notUndefined | lengthNotEqual | lengthTooShort => exact fun hm => nomatch List.mem_singleton.mp hm
  | notFound => exact List.not_mem_nil
  | notUnion nonempty _ ih =>
    rw [payloads, payloadsOfAll_eq_flatMap]
    intro hm
    obtain ⟨p, hp, hm⟩ := List.mem_flatMap.mp hm
    exact ih p hp hx hm
  | key _ _ ih | element _ _ ih | entry _ _ ih => exact ih nofun

end Failure

theorem Verdict.eq_rejected_of_result {type : ViewType} {x : Input} {verdict : Verdict}
    {failure : Failure} (h : verdict.result type x = .ok (.rejected failure)) :
    verdict = .rejected failure := by
  cases verdict <;> cases h
  rfl

/-- A present input is rejected with a failure that is read back as it was. -/
theorem Schema.nulled_of_parse {schema : Schema} {v : Value} {failure : Failure}
    (h : (schema.parse (.present v)).result = .ok (.rejected failure)) : failure.nulled = failure := by
  have ha := arises_of_rejected (Verdict.eq_rejected_of_result h)
  exact Failure.nulled_of_present (ha.absent_notMem nofun)

/-- Writing failures as values loses nothing but whether a payload was absent or null: two failures
are written alike exactly if they are the same with null for absent payloads, and a failure can be
read back up to this. So the outcomes of two parses that reject present inputs tell their failures
apart, and the outcome of a parse that accepts is that of none that rejects. -/
theorem Failure.toValue_loses_only_absence :
    (∀ p q : Failure, p.toValue = q.toValue ↔ p.nulled = q.nulled) ∧
    (∀ p : Failure, ofValue? p.toValue = some p.nulled) ∧
    (∀ p : Failure, .absent ∉ p.payloads → ofValue? p.toValue = some p) ∧
    (∀ (s t : Schema) (v w : Value) (p q : Failure),
      (s.parse (.present v)).result = .ok (.rejected p) →
      (t.parse (.present w)).result = .ok (.rejected q) →
      (Parsed.rejected p : Parsed s.output).outcome = (Parsed.rejected q : Parsed t.output).outcome →
      p = q) ∧
    ∀ (s t : Schema) (x y : Input) (view : View s.output) (q : Failure),
      (s.parse x).result = .ok (.accepted view) → (t.parse y).result = .ok (.rejected q) →
      (Parsed.accepted view).outcome ≠ (Parsed.rejected q : Parsed t.output).outcome := by
  refine ⟨toValue_eq_iff, ofValue?_toValue, fun p h => ?_, fun s t v w p q hp hq h => ?_,
    fun s t x y view q _ _ h => ?_⟩
  · rw [ofValue?_toValue, nulled_of_present h]
  · have hv : p.toValue = q.toValue := by
      simp only [Parsed.outcome, Value.object.injEq, List.cons.injEq, Prod.mk.injEq] at h
      exact h.2.1.2
    rw [toValue_eq_iff, Schema.nulled_of_parse hp, Schema.nulled_of_parse hq] at hv
    exact hv
  · obtain ⟨input, isWhole⟩ := view
    cases input <;> cases h

/-- Lists of strings. -/
def Schema.strings : Schema := .array (.scalar .string)

/-- Lists of one string. -/
def Schema.oneString : Schema := .tuple .written [.scalar .string]

theorem Failure.toValue_loses_only_absence_strings : ∃ p q : Failure,
    (Schema.oneString.parse (.present (.array [.null]))).result = .ok (.rejected p) ∧
    (Schema.strings.parse (.present (.array [.null, .null]))).result = .ok (.rejected q) ∧
    p = q ∧ ofValue? p.toValue = some p ∧
    ∃ view : View Schema.strings.output,
      (Schema.strings.parse (.present (.array []))).result = .ok (.accepted view) ∧
      (Parsed.accepted view).outcome ≠
        (Parsed.rejected p : Parsed Schema.oneString.output).outcome := by
  obtain ⟨-, -, hread, hrejected, haccepted⟩ := toValue_loses_only_absence
  have hp : (Schema.oneString.parse (.present (.array [.null]))).result =
      .ok (.rejected (.invalidElement (.index 0) (.mismatch .string (.present .null)))) := rfl
  have hq : (Schema.strings.parse (.present (.array [.null, .null]))).result =
      .ok (.rejected (.invalidElement (.index 0) (.mismatch .string (.present .null)))) := rfl
  have hv : (Schema.strings.parse (.present (.array []))).result =
      .ok (.accepted (.whole _ (.present (.array [])))) := rfl
  refine ⟨_, _, hp, hq, hrejected _ _ _ _ _ _ hp hq rfl, hread _ ?_, _, hv,
    haccepted _ _ _ _ _ _ hv hp⟩
  exact fun hm => nomatch List.mem_singleton.mp hm

end JsonValidation
