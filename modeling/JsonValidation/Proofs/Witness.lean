import JsonValidation.Proofs.Rejections

/-!
# Failures are true

A failure says something about the input for which it was reported: `Failure.IsWitness` spells out
what, by recursion on the failure and without a schema. Whatever a schema rejects, it rejects with a
failure that is true of the input (`Schema.isWitness_of_rejected`).
-/

namespace JsonValidation

mutual

/-- Whether what a failure says is true of an input. -/
def Failure.IsWitness : Failure → Input → Prop
  | .mismatch expected got, x => got = x ∧ ¬ x.HasKind expected
  | .notUndefined got, x => x = .present got
  | .notFound name, x => ∃ entries, x = .present (.object entries) ∧ entries.lookup name = none
  | .invalidValue got, x => got = x
  | .lengthNotEqual got, x => x = .present got ∧ x.HasKind .array
  | .lengthTooShort got, x => x = .present got ∧ x.HasKind .array
  | .notUnion alternatives, x => alternatives ≠ [] ∧ Failure.AllWitness alternatives x
  | .invalidKey inner, x => ∃ entries, x = .present (.object entries) ∧
      ∃ key ∈ entries.map Prod.fst, inner.IsWitness (.present (.string key))
  | .invalidElement segment inner, x => ∃ v w, x = .present v ∧ v.step? segment = some w ∧
      inner.IsWitness (.present w)

/-- Whether what each of several failures says is true of an input. -/
def Failure.AllWitness : List Failure → Input → Prop
  | [], _ => True
  | failure :: rest, x => failure.IsWitness x ∧ Failure.AllWitness rest x

end

theorem Failure.allWitness_iff {failures : List Failure} {x : Input} :
    Failure.AllWitness failures x ↔ ∀ failure ∈ failures, failure.IsWitness x := by
  induction failures with
  | nil => simp [Failure.AllWitness]
  | cons failure rest ih => rw [Failure.AllWitness, ih, List.forall_mem_cons]

theorem Failure.isWitness_notUnion {alternatives : List Failure} {x : Input} :
    (Failure.notUnion alternatives).IsWitness x ↔
      alternatives ≠ [] ∧ ∀ failure ∈ alternatives, failure.IsWitness x := by
  rw [Failure.IsWitness, Failure.allWitness_iff]

/-- A failure that arises for an input is true of it. Where no two entries have one key, the key of an
entry leads to it. -/
theorem Failure.Arises.isWitness {failure : Failure} {x : Input} (h : failure.Arises x)
    (hx : x.UniqueKeys) : failure.IsWitness x := by
  induction h with
  | mismatch differs => exact ⟨rfl, differs⟩
  | notUndefined v => rfl
  | notFound missing => exact ⟨_, rfl, missing⟩
  | invalidValue x => rfl
  | lengthNotEqual values | lengthTooShort values => exact ⟨rfl, _, rfl, rfl⟩
  | notUnion nonempty _ ih =>
    exact isWitness_notUnion.mpr ⟨nonempty, fun failure hm => ih failure hm hx⟩
  | @key _ entries key mem _ ih =>
    exact ⟨entries, rfl, key, mem, ih (Value.uniqueKeys_string key)⟩
  | @element _ values i v found _ ih =>
    have hs : (Value.array values).step? (.index i) = some v := found
    exact ⟨_, _, rfl, hs, ih (hx.step? hs)⟩
  | entry mem _ ih =>
    have hs := hx.step?_of_mem mem
    exact ⟨_, _, rfl, hs, ih (hx.step? hs)⟩

namespace Schema

/-- A schema rejects an input only with a failure that is true of it. A failure names a part of an
object by its key, which tells the parts apart because no two entries have one key, as in every value
that the reader builds. -/
theorem isWitness_of_rejected {schema : Schema} {x : Input} (hx : x.UniqueKeys)
    {failure : Failure} (h : (schema.check x).verdict = .rejected failure) :
    failure.IsWitness x := by
  have ha : failure.Arises x := arises_of_rejected h
  exact ha.isWitness hx

/-- Objects of lists whose elements are pairs or have a number as their id. -/
def pairsOrIds : Schema :=
  .record (.scalar .string) (.array (.union .written
    (.tuple .written [.scalar .null, .scalar .string])
    [.object [⟨"id", .required, .mutable, .scalar .number⟩]]))

/-- An object with a list of one pair, whose second element is of the wrong kind. -/
def wrongPair : Input := .present (.object [("a", .array [.array [.null, .boolean true]])])

theorem isWitness_of_rejected_wrongPair : ∃ failure,
    (pairsOrIds.check wrongPair).verdict = .rejected failure ∧ failure.IsWitness wrongPair := by
  have h : (pairsOrIds.check wrongPair).verdict =
      .rejected (.invalidElement (.field "a") (.invalidElement (.index 0) (.notUnion
        [.invalidElement (.index 1) (.mismatch .string (.present (.boolean true))),
          .mismatch .object (.present (.array [.null, .boolean true]))]))) := rfl
  exact ⟨_, h, isWitness_of_rejected (by decide) h⟩

end Schema

end JsonValidation
