import JsonValidation.Schema.Check
import JsonValidation.View.Chain
import JsonValidation.Failure.Text
import JsonValidation.Failure.Serialized

/-!
# Parsing

To parse an input is to check it once and to hand back either a view of the input itself or the
failure. On the way it reports that it starts and, if it does, that it rejects.

* `Schema.parse`: one parse, with its events and calls;
* `Parsed.outcome`: the result of a parse as a value.
-/

namespace JsonValidation

/-- What a parse reports while it runs. -/
inductive Event where
  | started (present : Bool)
  | rejected (code text : String)
deriving DecidableEq

/-- The result of a parse: the input, viewed as a type, or why it was rejected. -/
inductive Parsed (type : ViewType) where
  | accepted (view : View type)
  | rejected (failure : Failure)

/-- One parse: the events it reported, the predicates it called, and its result unless it ended in a
fault. -/
structure Parse (type : ViewType) where
  events : List Event
  calls : List Call
  result : Except Fault (Parsed type)

/-- Whether an input was accepted. -/
def Parsed.isAccepted {type : ViewType} : Parsed type → Bool
  | .accepted _ => true
  | .rejected _ => false

/-- The result of a parse as a value: the accepted value, left out where it is absent, or the
failure. -/
def Parsed.outcome {type : ViewType} : Parsed type → Value
  | .accepted view =>
    match view.input with
    | .absent => .object [("success", .boolean true)]
    | .present v => .object [("success", .boolean true), ("value", v)]
  | .rejected failure => .object [("success", .boolean false), ("path", failure.toValue)]

/-- What a verdict on an input reports after the start. -/
def Verdict.events : Verdict → List Event
  | .rejected failure => [.rejected failure.code failure.text]
  | _ => []

/-- The result that a verdict on an input gives. -/
def Verdict.result (type : ViewType) (input : Input) : Verdict → Except Fault (Parsed type)
  | .accepted => .ok (.accepted (.whole type input))
  | .rejected failure => .ok (.rejected failure)
  | .faulted fault => .error fault

/-- Parses an input and views it as a type, which the schema need not guarantee. -/
def Schema.parseAs (type : ViewType) (schema : Schema) (input : Input) : Parse type :=
  let run := schema.check input
  ⟨.started input.isPresent :: run.verdict.events, run.calls, run.verdict.result type input⟩

/-- Parses an input and views it as what the schema narrows to. -/
def Schema.parse (schema : Schema) (input : Input) : Parse schema.output :=
  schema.parseAs schema.output input

end JsonValidation
