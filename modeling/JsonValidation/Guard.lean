import JsonValidation.Check
import JsonValidation.ViewType

/-!
# Guards

A guard lifts a predicate into a check. It claims that what the predicate accepts can be used as
values of a view type, and the claim is trusted. Each call of the predicate is recorded under the
label of the guard; a predicate may give up with a message instead of answering.

* `Guard.check`: the check of a guard;
* `Predicate.answer`: the predicates that have names.
-/

namespace JsonValidation

/-- A predicate over values that answers or gives up with a message. -/
abbrev Test (α : Type) := α → Except String Bool

/-- What the predicate of a guard ranges over: the values, an absent input being rejected without a
call, or all inputs. -/
inductive GuardTest where
  | onValue (test : Test Value)
  | onInput (test : Test Input)

/-- A predicate as a schema. -/
structure Guard where
  narrows : ViewType
  label : Option Value
  test : GuardTest

namespace Guard

/-- The run of a guard that has called its predicate. -/
def afterCall (guard : Guard) (input : Input) (answer : Except String Bool) : Run :=
  ⟨[⟨guard.label, input⟩],
    match answer with
    | .ok true => .accepted
    | .ok false => .rejected (.invalidValue input)
    | .error message => .faulted (.guard message)⟩

/-- The check of a guard. -/
def check (guard : Guard) : Check := fun input =>
  match guard.test, input with
  | .onValue test, .present v => guard.afterCall input (test v)
  | .onValue _, .absent => .reject (.invalidValue .absent)
  | .onInput test, input => guard.afterCall input (test input)

/-- The developer text of a guard, which cannot show its predicate. -/
def inspect (guard : Guard) : String :=
  Inspect.parts "TypeGuard"
    [Inspect.field "narrows_to" (Inspect.quoted guard.narrows.inspect), Inspect.more]

end Guard

/-- The predicates over values that have names. -/
inductive Predicate where
  | ofKind (kind : Kind)
  | signed64
  | unsigned64
  | float
  | even
  | empty
  | always
  | never
  | forbidden
deriving DecidableEq

namespace Predicate

/-- Whether a number has a property; other values have none. -/
def ofNumber (property : Number → Bool) : Value → Bool
  | .number n => property n
  | _ => false

/-- Whether a value is a string, an array or an object without contents. -/
def isEmpty : Value → Bool
  | .string s => s.isEmpty
  | .array items => items.isEmpty
  | .object entries => entries.isEmpty
  | _ => false

/-- What a predicate answers on a value. The forbidden predicate must not be called. -/
def answer : Predicate → Test Value
  | .ofKind kind, v => .ok (v.kind = kind)
  | .signed64, v => .ok (ofNumber Number.isSigned64 v)
  | .unsigned64, v => .ok (ofNumber Number.isUnsigned64 v)
  | .float, v => .ok (ofNumber Number.isFloat v)
  | .even, v => .ok (ofNumber Number.isEven v)
  | .empty, v => .ok (isEmpty v)
  | .always, _ => .ok true
  | .never, _ => .ok false
  | .forbidden, _ => .error "must not run"

/-- A predicate over inputs that answers `absent` where there is no value. -/
def answerInput (predicate : Predicate) (absent : Bool) : Test Input
  | .absent => .ok absent
  | .present v => predicate.answer v

end Predicate

end JsonValidation
