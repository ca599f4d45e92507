import Mathlib.Data.List.GetD
import JsonValidation.Guard
import JsonValidation.Proofs.Combinators

/-!
# Arrays and tuples

Arrays, tuples and tuples with a rest are checked by one algorithm: in one pass from the left, each
element by the check for its position (`Check.elements`). They differ in the lengths that they take
and in the check past the end of a listing, and in nothing else:

* `Check.restTuple_eq_tuple`: a tuple with a rest is the tuple that is filled up with the rest;
* `Check.array_eq_restTuple`: an array is a tuple that is nothing but a rest;
* `Check.restTuple_agrees`: both together, and what happens to arrays that are too short.
-/

namespace JsonValidation

namespace Check

variable {list : Listing Check} {rest : Check} {values : List Value}

/-- Filling up a list with a check leaves that check at every position past its end. -/
theorem getD_append_replicate (checks : List Check) (rest : Check) (n i : Nat) :
    (checks ++ List.replicate n rest).getD i rest = checks.getD i rest := by
  rcases Nat.lt_or_ge i checks.length with hi | hi
  · exact List.getD_append _ _ _ _ hi
  · rw [List.getD_append_right _ _ _ _ hi, List.getD_eq_default checks rest hi,
      List.getD_eq_getElem?_getD, List.getElem?_getD_replicate_default_eq]

/-- A tuple with a rest does to an array what the tuple does that has a copy of the rest for each
element after the leading ones. -/
theorem restTuple_eq_tuple (form : ListForm) (h : list.length ≤ values.length) :
    restTuple list rest (.present (.array values)) =
      tuple ⟨form, list.entries ++ List.replicate (values.length - list.length) rest⟩
        (.present (.array values)) := by
  have hlen : values.length =
      (list.entries ++ List.replicate (values.length - list.length) rest).length := by
    have hlist : list.length = list.entries.length := rfl
    rw [List.length_append, List.length_replicate]
    omega
  rw [restTuple_eq_elements h, tuple_eq_elements rest hlen]
  simp only [getD_append_replicate]

/-- An array is a tuple with a rest and nothing before it. The empty listing rejects no length, and
every position is past its end. -/
theorem array_eq_restTuple (form : ListForm) (items : Check) :
    array items = restTuple ⟨form, []⟩ items := by
  refine congrArg onItems (funext fun values => ?_)
  have hpass : restTuple ⟨form, []⟩ items (.present (.array values)) =
      elements (fun _ => items) values := restTuple_eq_elements (Nat.zero_le values.length)
  exact hpass.symm

/-- A tuple with a rest does to an array that is long enough what the tuple does that is filled up
with copies of the rest, and rejects any other array as a whole, without a call. An array is the
case of a rest alone, for every input. All of this is about whole runs: the calls in their order,
the failure with the position in it, and the fault. -/
theorem restTuple_agrees (list : Listing Check) (rest : Check) (form : ListForm)
    (values : List Value) :
    (list.length ≤ values.length →
      restTuple list rest (.present (.array values)) =
        tuple ⟨form, list.entries ++ List.replicate (values.length - list.length) rest⟩
          (.present (.array values))) ∧
    (values.length < list.length →
      restTuple list rest (.present (.array values)) =
        ⟨[], .rejected (.lengthTooShort (.array values))⟩) ∧
    (∀ x, array rest x = restTuple ⟨form, []⟩ rest x) ∧
    array rest (.present (.array values)) =
      tuple ⟨form, List.replicate values.length rest⟩ (.present (.array values)) := by
  refine ⟨restTuple_eq_tuple form, fun h => if_pos h, fun x => ?_, ?_⟩
  · rw [array_eq_restTuple form]
  · have hcopies : restTuple ⟨form, []⟩ rest (.present (.array values)) =
        tuple ⟨form, List.replicate values.length rest⟩ (.present (.array values)) :=
      restTuple_eq_tuple form (Nat.zero_le values.length)
    rw [array_eq_restTuple form, hcopies]

/-- A name and any number of even numbers after it. -/
def nameAndEvens : Listing Check × Check :=
  (⟨.written, [ofKind .string]⟩,
    Guard.check ⟨.number, some (.string "even"), .onValue Predicate.even.answer⟩)

theorem restTuple_agrees_nameAndEvens :
    restTuple nameAndEvens.1 nameAndEvens.2
        (.present (.array [.string "a", .ofNat 2, .ofNat 3, .ofNat 4])) =
      tuple ⟨.collected, [ofKind .string, nameAndEvens.2, nameAndEvens.2, nameAndEvens.2]⟩
        (.present (.array [.string "a", .ofNat 2, .ofNat 3, .ofNat 4])) ∧
    restTuple nameAndEvens.1 nameAndEvens.2
        (.present (.array [.string "a", .ofNat 2, .ofNat 3, .ofNat 4])) =
      ⟨[⟨some (.string "even"), .present (.ofNat 2)⟩, ⟨some (.string "even"), .present (.ofNat 3)⟩],
        .rejected (.invalidElement (.index 2) (.invalidValue (.present (.ofNat 3))))⟩ ∧
    restTuple nameAndEvens.1 nameAndEvens.2 (.present (.array [])) =
      ⟨[], .rejected (.lengthTooShort (.array []))⟩ := by
  refine ⟨(restTuple_agrees nameAndEvens.1 nameAndEvens.2 .collected _).1 (by decide), rfl, ?_⟩
  exact (restTuple_agrees nameAndEvens.1 nameAndEvens.2 .collected []).2.1 (by decide)

end Check

end JsonValidation
