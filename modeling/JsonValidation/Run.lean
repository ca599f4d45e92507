import JsonValidation.Failure.Basic
import JsonValidation.Fault

/-!
# Runs

A run is what happened when an input was checked: the calls made to the predicates of guards, in
order, and the verdict. Runs are put together from the runs of parts, and a part that decides the
whole is the last one whose calls are kept:

* `Run.andThen`, `Run.forEach`: every part has to accept, and the first that does not decides;
* `Run.firstAccepted`: one part has to accept, and the first that does, or that ends in a fault,
  decides.
-/

namespace JsonValidation

/-- A call of the predicate of a guard: the label of the guard and the argument. -/
structure Call where
  label : Option Value
  argument : Input

/-- How a check ends. -/
inductive Verdict where
  | accepted
  | rejected (failure : Failure)
  | faulted (fault : Fault)

/-- The calls that a check makes and how it ends. -/
structure Run where
  calls : List Call
  verdict : Verdict

namespace Run

/-- Accepts without a call. -/
def accept : Run := ⟨[], .accepted⟩

/-- Rejects without a call. -/
def reject (failure : Failure) : Run := ⟨[], .rejected failure⟩

/-- Ends in a fault without a call. -/
def fault (fault : Fault) : Run := ⟨[], .faulted fault⟩

/-- A run that comes after calls. -/
def precededBy (run : Run) (calls : List Call) : Run :=
  ⟨calls ++ run.calls, run.verdict⟩

/-- The second run after the first, if the first accepts. -/
@[macro_inline] def andThen (first second : Run) : Run :=
  match first with
  | ⟨calls, .accepted⟩ => second.precededBy calls
  | decided => decided

/-- A run whose failure is wrapped. -/
def mapFailure (wrap : Failure → Failure) (run : Run) : Run :=
  match run with
  | ⟨calls, .rejected failure⟩ => ⟨calls, .rejected (wrap failure)⟩
  | run => run

/-- Runs a step for each member of a list, as long as all accept. -/
def forEach {α : Type} (step : α → Run) : List α → Run
  | [] => accept
  | a :: rest => (step a).andThen (forEach step rest)

/-- Runs a step for each member of a list until one does not reject. When all reject, their failures
come after the `earlier` ones. -/
def firstAccepted {α : Type} (step : α → Run) (earlier : List Failure) : List α → Run
  | [] => reject (.notUnion earlier)
  | a :: rest =>
    match step a with
    | ⟨calls, .rejected failure⟩ =>
      (firstAccepted step (earlier ++ [failure]) rest).precededBy calls
    | decided => decided

@[simp] theorem precededBy_nil (run : Run) : run.precededBy [] = run := rfl

theorem precededBy_precededBy (run : Run) (a b : List Call) :
    (run.precededBy a).precededBy b = run.precededBy (b ++ a) := by
  simp [precededBy]

@[simp] theorem accept_andThen (run : Run) : accept.andThen run = run := rfl

theorem andThen_accept (run : Run) : run.andThen accept = run := by
  obtain ⟨calls, verdict⟩ := run
  cases verdict <;> simp [andThen, accept, precededBy]

theorem andThen_assoc (a b c : Run) : (a.andThen b).andThen c = a.andThen (b.andThen c) := by
  obtain ⟨_, a⟩ := a
  obtain ⟨_, b⟩ := b
  cases a <;> cases b <;> simp [andThen, precededBy]

theorem forEach_append {α : Type} (step : α → Run) (as bs : List α) :
    forEach step (as ++ bs) = (forEach step as).andThen (forEach step bs) := by
  induction as with
  | nil => rfl
  | cons a as ih => simp only [List.cons_append, forEach, ih, andThen_assoc]

end Run

end JsonValidation
