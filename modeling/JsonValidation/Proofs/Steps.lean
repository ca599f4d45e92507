import Mathlib.Data.List.Forall2
import JsonValidation.Guard
import JsonValidation.Proofs.Combinators

/-!
# Steps of composites

A composite is a check that is put together from the checks of its parts. Running it comes down to a
sequence of steps, each of which runs one check on one part of the input:

* `Composite.steps`: the steps of a composite on an input, in their order;
* `Composite.check_eq_combine`: the run of a composite is that of its steps;
* `Composite.check_eq_of_agree`: two runs that agree up to a deciding step are the same run, whatever
  comes after it.
-/

namespace JsonValidation

/-- A check that is put together from others. -/
inductive Composite where
  | array (items : Check)
  | tuple (list : Listing Check)
  | restTuple (list : Listing Check) (rest : Check)
  | record (keys values : Check)
  | object (fields : List (Field Check))
  | intersection (list : Listing Check)
  | union (list : Listing Check)

/-- One step of a composite. -/
inductive Step where
  /-- The value to which a segment leads is checked. -/
  | part (segment : Segment) (check : Check) (v : Value)
  /-- A key of a record is checked. -/
  | key (check : Check) (name : String)
  /-- A declared field is checked, with the value under its name where there is one. -/
  | field (field : Field Check) (value : Option Value)
  /-- The whole input is checked. -/
  | whole (check : Check) (x : Input)

/-- How many steps have to accept. -/
inductive Mode where
  | every
  | any
deriving DecidableEq

namespace Step

/-- What a step does. -/
def run : Step → Run
  | .part segment check v => check.part segment v
  | .key check name => (check (.present (.string name))).mapFailure .invalidKey
  | .field f (some v) => f.validator.part (.field f.name) v
  | .field ⟨name, .required, _, _⟩ none => .reject (.notFound name)
  | .field ⟨_, .optional, _, _⟩ none => .accept
  | .whole check x => check x

/-- Two steps agree if they do the same: they make the same calls and end in the same way. So do two
steps with the same check of the same part. -/
def Agrees (s t : Step) : Prop := s.run = t.run

end Step

namespace Mode

/-- The run of steps. -/
def combine : Mode → List Step → Run
  | .every, steps => Run.forEach Step.run steps
  | .any, steps => Run.firstAccepted Step.run [] steps

/-- Whether a verdict decides the run of steps: any but acceptance where all have to accept, and any
but a rejection where one has to. -/
def Decides : Mode → Verdict → Prop
  | .every, verdict => verdict ≠ .accepted
  | .any, verdict => ∀ failure, verdict ≠ .rejected failure

/-- What comes after a deciding step has no influence. -/
theorem combine_append_of_decides {mode : Mode} {before after : List Step} {decider : Step}
    (h : mode.Decides decider.run.verdict) :
    mode.combine (before ++ decider :: after) = mode.combine (before ++ [decider]) := by
  cases mode with
  | every => exact Run.forEach_append_of_decided h
  | any => exact Run.firstAccepted_append_of_decided h []

/-- A run with a first step that decides makes the calls of the steps up to it, and ends as it
does. -/
theorem combine_of_first {mode : Mode} {before after : List Step} {decider : Step}
    (hb : ∀ s ∈ before, ¬ mode.Decides s.run.verdict) (h : mode.Decides decider.run.verdict) :
    mode.combine (before ++ decider :: after) =
      ⟨(before ++ [decider]).flatMap (·.run.calls), decider.run.verdict⟩ := by
  cases mode with
  | every => exact Run.forEach_of_decided (fun s hs => not_not.mp (hb s hs)) h
  | any => exact Run.firstAccepted_of_decided (fun s hs => not_forall_not.mp (hb s hs)) h []

theorem combine_congr {mode : Mode} {steps steps' : List Step}
    (h : List.Forall₂ Step.Agrees steps steps') : mode.combine steps = mode.combine steps' := by
  have hm : steps.map Step.run = steps'.map Step.run := by
    induction h with
    | nil => rfl
    | cons ha _ ih => rw [List.map_cons, List.map_cons, ih, ha]
  cases mode with
  | every =>
    calc Run.forEach Step.run steps
        = Run.forEach id (steps.map Step.run) := (Run.forEach_map id Step.run steps).symm
      _ = Run.forEach id (steps'.map Step.run) := by rw [hm]
      _ = Run.forEach Step.run steps' := Run.forEach_map id Step.run steps'
  | any =>
    calc Run.firstAccepted Step.run [] steps
        = Run.firstAccepted id [] (steps.map Step.run) :=
          (Run.firstAccepted_map id Step.run [] steps).symm
      _ = Run.firstAccepted id [] (steps'.map Step.run) := by rw [hm]
      _ = Run.firstAccepted Step.run [] steps' := Run.firstAccepted_map id Step.run [] steps'

end Mode

namespace Composite

/-- The check that a composite stands for. -/
def check : Composite → Check
  | .array items => Check.array items
  | .tuple list => Check.tuple list
  | .restTuple list rest => Check.restTuple list rest
  | .record keys values => Check.record keys values
  | .object fields => Check.object fields
  | .intersection list => Check.intersection list
  | .union list => Check.union list

/-- How many steps of a composite have to accept. -/
def mode : Composite → Mode
  | .array _ | .tuple _ | .restTuple _ _ | .record _ _ | .object _ | .intersection _ => .every
  | .union _ => .any

/-- The steps of a composite on an input. There are none where the input is not the array or object
that the composite takes. -/
def steps : Composite → Input → List Step
  | .array items, .present (.array values) =>
    values.zipIdx.map fun (v, i) => .part (.index i) items v
  | .tuple list, .present (.array values) =>
    (values.zipIdx.zip list.entries).map fun ((v, i), check) => .part (.index i) check v
  | .restTuple list rest, .present (.array values) =>
    values.zipIdx.map fun (v, i) => .part (.index i) (list.entries.getD i rest) v
  | .record keys values, .present (.object entries) =>
    entries.flatMap fun (key, v) => [.key keys key, .part (.field key) values v]
  | .object fields, .present (.object entries) =>
    fields.map fun f => .field f (entries.lookup f.name)
  | .intersection list, x => list.entries.map fun check => .whole check x
  | .union list, x => list.entries.map fun check => .whole check x
  | _, _ => []

/-- Whether the length of an array suits a composite: a tuple takes arrays of its own length, and a
tuple with a rest takes arrays that are at least as long as its leading part. -/
def Suits : Composite → Input → Prop
  | .tuple list, .present (.array values) => values.length = list.length
  | .restTuple list _, .present (.array values) => list.length ≤ values.length
  | _, _ => True

/-- The kind of the values that a composite takes, if it does not take every input. -/
def kind? : Composite → Option Kind
  | .array _ | .tuple _ | .restTuple _ _ => some .array
  | .record _ _ | .object _ => some .object
  | .intersection _ | .union _ => none

theorem hasKind_of_steps {c : Composite} {x : Input} {kind : Kind} (hk : c.kind? = some kind)
    (hs : c.steps x ≠ []) : x.HasKind kind := by
  cases x with
  | absent => cases c <;> cases hk <;> exact absurd rfl hs
  | present v =>
    refine ⟨v, rfl, ?_⟩
    cases c <;> cases hk <;> cases v <;> first | rfl | exact absurd rfl hs

/-- The steps of a record, its keys and values one by one, do what it does entry by entry. -/
theorem forEach_entries (keys values : Check) (entries : List (String × Value)) :
    Run.forEach Step.run
        (entries.flatMap fun (key, v) => [.key keys key, .part (.field key) values v]) =
      Run.forEach (fun (key, v) =>
        ((keys (.present (.string key))).mapFailure .invalidKey).andThen
          (values.part (.field key) v)) entries := by
  induction entries with
  | nil => rfl
  | cons e rest ih =>
    rw [List.flatMap_cons, Run.forEach_append, ih, Run.forEach, Run.forEach, Run.forEach,
      Run.forEach, Run.andThen_accept]
    rfl

theorem run_field (entries : List (String × Value)) (f : Field Check) :
    (Step.field f (entries.lookup f.name)).run = Check.field entries f := by
  obtain ⟨name, presence, mutability, validator⟩ := f
  cases h : entries.lookup name with
  | some v => simp only [Check.field, h, Step.run]
  | none => cases presence <;> simp only [Check.field, h, Step.run]

/-- A run that takes any step at all is the run of its steps. -/
theorem check_eq_combine {c : Composite} {x : Input} (hx : c.Suits x) (hs : c.steps x ≠ []) :
    c.check x = c.mode.combine (c.steps x) := by
  cases c with
  | array items =>
    obtain ⟨values, rfl⟩ := Input.hasKind_array.mp (hasKind_of_steps rfl hs)
    rw [steps, mode, Mode.combine, Run.forEach_map]
    rfl
  | tuple list =>
    obtain ⟨values, rfl⟩ := Input.hasKind_array.mp (hasKind_of_steps rfl hs)
    have hl : values.length = list.length := hx
    calc Check.tuple list (.present (.array values))
        = Check.leading list values := if_pos hl
      _ = Run.forEach (fun ((v, i), check) => Check.part check (.index i) v)
            (values.zipIdx.zip list.entries) := Check.leading_eq list values
      _ = (tuple list).mode.combine ((tuple list).steps (.present (.array values))) := by
        rw [steps, mode, Mode.combine, Run.forEach_map]
        rfl
  | restTuple list rest =>
    obtain ⟨values, rfl⟩ := Input.hasKind_array.mp (hasKind_of_steps rfl hs)
    calc Check.restTuple list rest (.present (.array values))
        = Check.elements (fun i => list.entries.getD i rest) values :=
          Check.restTuple_eq_elements hx
      _ = (restTuple list rest).mode.combine
            ((restTuple list rest).steps (.present (.array values))) := by
        rw [steps, mode, Mode.combine, Run.forEach_map, Check.elements]
        rfl
  | record keys values =>
    obtain ⟨entries, rfl⟩ := Input.hasKind_object.mp (hasKind_of_steps rfl hs)
    rw [steps, mode, Mode.combine, forEach_entries]
    rfl
  | object fields =>
    obtain ⟨entries, rfl⟩ := Input.hasKind_object.mp (hasKind_of_steps rfl hs)
    rw [steps, mode, Mode.combine, Run.forEach_map]
    exact Run.forEach_congr fun f _ => (run_field entries f).symm
  | intersection list =>
    rw [steps, mode, Mode.combine, Run.forEach_map]
    exact Check.intersection_eq list
  | union list =>
    rw [steps, mode, Mode.combine, Run.firstAccepted_map]
    exact Check.union_eq list

/-- Two runs that agree on all steps up to one that decides are the same run: they make the same calls
and end in the same verdict, whatever checks and parts come after it. If that step is the first one
that decides, they make the calls of the steps up to it and no others, and end as it does. The
composites may be of different kinds, as long as both need all of their steps to accept or both need
one. -/
theorem check_eq_of_agree {c d : Composite} {x y : Input} (hm : c.mode = d.mode)
    (hx : c.Suits x) (hy : d.Suits y) {before before' after after' : List Step}
    {decider decider' : Step} (hc : c.steps x = before ++ decider :: after)
    (hd : d.steps y = before' ++ decider' :: after')
    (hb : List.Forall₂ Step.Agrees before before') (ha : decider.Agrees decider')
    (h : c.mode.Decides decider.run.verdict) :
    c.check x = d.check y ∧
      ((∀ s ∈ before, ¬ c.mode.Decides s.run.verdict) →
        c.check x = ⟨(before ++ [decider]).flatMap (·.run.calls), decider.run.verdict⟩) := by
  have hcx : c.check x = c.mode.combine (before ++ decider :: after) :=
    hc ▸ check_eq_combine hx (by simp [hc])
  have hdy : d.check y = d.mode.combine (before' ++ decider' :: after') :=
    hd ▸ check_eq_combine hy (by simp [hd])
  have h' : d.mode.Decides decider'.run.verdict := by
    rwa [← hm, ← show decider.run = decider'.run from ha]
  have hagree : List.Forall₂ Step.Agrees (before ++ [decider]) (before' ++ [decider']) :=
    List.rel_append hb (.cons ha .nil)
  constructor
  · calc c.check x = c.mode.combine (before ++ [decider]) := by
          rw [hcx, Mode.combine_append_of_decides h]
      _ = d.mode.combine (before' ++ [decider']) := by rw [hm, Mode.combine_congr hagree]
      _ = d.mode.combine (before' ++ decider' :: after') :=
          (Mode.combine_append_of_decides h').symm
      _ = d.check y := hdy.symm
  · intro hfirst
    rw [hcx, Mode.combine_of_first hfirst h]

/-- A check of strings whose calls are recorded. -/
def recorded : Check :=
  Guard.check ⟨.string, some (.string "a"), .onValue (Predicate.ofKind .string).answer⟩

/-- A check that must not be run on any value. -/
def forbidden : Check := Guard.check ⟨.untyped, none, .onValue Predicate.forbidden.answer⟩

/-- Objects with a string, a number and a field that must not be looked at. -/
def strict : Composite := .object [⟨"a", .required, .mutable, recorded⟩,
  ⟨"b", .optional, .readonly, Check.ofKind .number⟩, ⟨"c", .required, .mutable, forbidden⟩]

/-- Objects with a string and a number. -/
def lenient : Composite := .object [⟨"a", .required, .readonly, recorded⟩,
  ⟨"b", .required, .mutable, Check.ofKind .number⟩]

/-- An object with an entry for each field of `strict`, in another order. -/
def reordered : Input := .present (.object [("c", .null), ("b", .null), ("a", .string "x")])

/-- An object with an entry that `lenient` does not declare. -/
def extended : Input := .present (.object [("a", .string "x"), ("d", .array []), ("b", .null)])

theorem check_eq_of_agree_objects :
    (forbidden (.present .null)).verdict = .faulted (.guard "must not run") ∧
      strict.check reordered = lenient.check extended ∧
      strict.check reordered = ⟨[⟨some (.string "a"), .present (.string "x")⟩],
        .rejected (.invalidElement (.field "b") (.mismatch .number (.present .null)))⟩ := by
  have hm : strict.mode = lenient.mode := rfl
  have hx : strict.Suits reordered := trivial
  have hy : lenient.Suits extended := trivial
  have hc : strict.steps reordered =
      [.field ⟨"a", .required, .mutable, recorded⟩ (some (.string "x"))] ++
        .field ⟨"b", .optional, .readonly, Check.ofKind .number⟩ (some .null) ::
          [.field ⟨"c", .required, .mutable, forbidden⟩ (some .null)] := rfl
  have hd : lenient.steps extended =
      [.field ⟨"a", .required, .readonly, recorded⟩ (some (.string "x"))] ++
        .field ⟨"b", .required, .mutable, Check.ofKind .number⟩ (some .null) :: [] := rfl
  have h := check_eq_of_agree hm hx hy hc hd (.cons rfl .nil) rfl nofun
  refine ⟨rfl, h.1, h.2 fun s hs hdec => ?_⟩
  obtain rfl := List.mem_singleton.mp hs
  exact hdec rfl

end Composite

end JsonValidation
