import JsonValidation.Check
import JsonValidation.Value.Inspect

/-!
# Literals

A literal accepts one value. Numbers are compared by what they denote when the literal is a number,
and by spelling and number inside arrays and objects. Literals can also be built from doubles that
are not finite; no value is equal to them.

* `Literal.check`: the check of a literal;
* `Literal.equal`: equality of literals, for which no literal of NaN is equal to itself.
-/

namespace JsonValidation

/-- The doubles that are not finite. -/
inductive NonFinite where
  | nan
  | infinity (negative : Bool)
deriving DecidableEq

namespace NonFinite

/-- Whether two doubles that are not finite are equal: NaN is not equal to itself. -/
def equal : NonFinite → NonFinite → Bool
  | .infinity a, .infinity b => a == b
  | _, _ => false

/-- The developer text of a double that is not finite. -/
def inspect : NonFinite → String
  | .nan => "NaN"
  | .infinity negative => if negative then "-inf" else "inf"

end NonFinite

/-- What a literal stands for. -/
inductive Literal where
  | value (v : Value)
  | undefined
  | nonFinite (x : NonFinite)

/-- Whether two values are the same to a literal: two numbers that denote the same number are. -/
def Value.strictlyEqual : Value → Value → Bool
  | .number a, .number b => a.sameValue b
  | v, w => v.equal w

namespace Literal

/-- The literal of a double. -/
def ofDouble (x : Binary64) : Literal := .value (.number (.float x))

/-- The literal of a double rounded to single precision, which may overflow. -/
def ofSingle (x : Binary64) : Literal :=
  match x.toSingle? with
  | some y => ofDouble y
  | none => .nonFinite (.infinity x.negative)

/-- The value that a literal accepts, if there is one. -/
def expected : Literal → Input
  | .value v => .present v
  | .undefined => .absent
  | .nonFinite _ => .absent

/-- Whether a literal accepts an input. -/
def accepts : Literal → Input → Bool
  | .value v, .present w => w.strictlyEqual v
  | .undefined, .absent => true
  | _, _ => false

/-- The check of a literal. -/
def check (literal : Literal) : Check := fun input =>
  if literal.accepts input then .accept else .reject (.invalidValue input)

/-- Whether two literals stand for the same thing. -/
def equal : Literal → Literal → Bool
  | .value v, .value w => v.equal w
  | .undefined, .undefined => true
  | .nonFinite x, .nonFinite y => x.equal y
  | _, _ => false

/-- The developer text of a literal. -/
def inspect (literal : Literal) : String :=
  Inspect.parts "LiteralSchema" [Inspect.field "expected" <|
    match literal with
    | .value v => Inspect.labelled "Present" v.inspect
    | .undefined => "Undefined"
    | .nonFinite x => Inspect.labelled "NonFinite" x.inspect]

end Literal

end JsonValidation
