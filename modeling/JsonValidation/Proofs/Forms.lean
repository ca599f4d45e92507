import JsonValidation.Proofs.Faults
import JsonValidation.Proofs.Rewriting

/-!
# Forms of listings

A listing is never asked for a position that it does not have, so no run shows whether its entries
were written out or collected.

* `Check.tuple_congr` and the like: a combinator depends on the entries of its listing only;
* `Schema.collected`: a schema all of whose listings are collected ones;
* `Schema.fault_of_guard`: faults come from guards alone, and forms change no run.
-/

namespace JsonValidation

namespace Check

variable {a b : Listing Check} (h : a.entries = b.entries)
include h

theorem leading_congr : leading a = leading b := by
  funext values
  rw [leading_eq, leading_eq, h]

theorem tuple_congr : tuple a = tuple b := by
  rw [tuple, tuple, leading_congr h, Listing.length, Listing.length, h]

theorem restTuple_congr (rest : Check) : restTuple a rest = restTuple b rest := by
  rw [restTuple, restTuple, leading_congr h, Listing.length, Listing.length, h]

theorem union_congr : union a = union b := by
  funext x
  rw [union_eq, union_eq, h]

theorem intersection_congr : intersection a = intersection b := by
  funext x
  rw [intersection_eq, intersection_eq, h]

end Check

namespace Schema

/-- A schema whose own listing, if it has one, is a collected one. -/
def gathered : Schema → Schema
  | .tuple _ elements => .tuple .collected elements
  | .restTuple _ leading rest => .restTuple .collected leading rest
  | .union _ first others => .union .collected first others
  | .intersection _ parts => .intersection .collected parts
  | schema => schema

/-- A schema whose listings at all depths are collected ones. Two schemas for which it is the same
are the same up to the forms of their listings. -/
def collected : Schema → Schema := rewrite gathered

theorem check_gathered (schema : Schema) : schema.gathered.check = schema.check := by
  cases schema with
  | tuple form elements => exact Check.tuple_congr rfl
  | restTuple form leading rest =>
    refine Check.restTuple_congr ?_ rest.check
    rfl
  | union form first others => exact Check.union_congr rfl
  | intersection form parts => exact Check.intersection_congr rfl
  | _ => rfl

/-- A check ends in a fault only by calling the predicate of a guard inside its schema that gives up,
and this call is the last one. It never asks a listing for a position that it does not have, and two
schemas that are the same up to the forms of their listings have the same runs. -/
theorem fault_of_guard (schema : Schema) (x : Input) :
    (∀ fault, (schema.check x).verdict = .faulted fault →
      ∃ guard ∈ schema.guards, ∃ before argument message,
        (schema.check x).calls = before ++ [⟨guard.label, argument⟩] ∧
        guard.GivesUp argument message ∧ fault = .guard message) ∧
    (∀ form index length, (schema.check x).verdict ≠ .faulted (.outOfRange form index length)) ∧
    ∀ other : Schema, other.collected = schema.collected → other.check x = schema.check x := by
  have hf : ∀ fault, (schema.check x).verdict = .faulted fault →
      ∃ guard ∈ schema.guards, ∃ before argument message,
        (schema.check x).calls = before ++ [⟨guard.label, argument⟩] ∧
        guard.GivesUp argument message ∧ fault = .guard message := by
    intro fault h
    obtain ⟨g, hg, before, ⟨_, argument⟩, hc, rfl, message, hm, rfl⟩ := blames_of_faulted h
    exact ⟨g, hg, before, argument, message, hc, hm, rfl⟩
  refine ⟨hf, fun form index length h => ?_, fun other h => ?_⟩
  · obtain ⟨guard, -, before, argument, message, -, -, e⟩ := hf _ h
    cases e
  · calc other.check x = other.collected.check x := by rw [collected, check_rewrite check_gathered]
      _ = schema.collected.check x := by rw [h]
      _ = schema.check x := by rw [collected, check_rewrite check_gathered]

/-- Pairs of a string and a value that must not be looked at. -/
def guardedPair (form : ListForm) : Schema :=
  .intersection form [.array .any, .tuple form [.scalar .string,
    .guard ⟨.untyped, some (.string "second"), .onValue Predicate.forbidden.answer⟩]]

/-- A pair of a string and null. -/
def pairWithNull : Input := .present (.array [.string "a", .null])

theorem fault_of_guard_pair :
    (∃ guard ∈ (guardedPair .written).guards, ∃ before argument message,
      ((guardedPair .written).check pairWithNull).calls = before ++ [⟨guard.label, argument⟩] ∧
      guard.GivesUp argument message ∧ Fault.guard "must not run" = .guard message) ∧
    (guardedPair .collected).check pairWithNull = (guardedPair .written).check pairWithNull :=
  have h := fault_of_guard (guardedPair .written) pairWithNull
  ⟨h.1 _ rfl, h.2.2 (guardedPair .collected) rfl⟩

end Schema

end JsonValidation
