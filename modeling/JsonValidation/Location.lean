import JsonValidation.Value.Basic
import JsonValidation.Inspect

/-!
# Locations

A location leads from a value to one of its parts by the keys of objects and the positions in arrays
that are passed on the way. Its text joins them as in `users[0].email`; the location of the value
itself is the empty text.

* `Location.push`: one step further;
* `Location.text`: the text of a location.
-/

namespace JsonValidation

/-- One step into a value: to the entry with a key or to the element at a position. -/
inductive Segment where
  | field (name : String)
  | index (n : Nat)
deriving DecidableEq

namespace Segment

/-- The text of a segment by itself. -/
def text : Segment → String
  | .field name => name
  | .index n => "[" ++ n.repr ++ "]"

/-- A segment as a value: a string for a key, a number for a position. -/
def toValue : Segment → Value
  | .field name => .string name
  | .index n => .ofNat n

/-- The developer text of a segment. -/
def inspect : Segment → String
  | .field name => Inspect.labelled "Field" (Inspect.quoted name)
  | .index n => Inspect.labelled "Index" n.repr

end Segment

/-- The steps from a value to one of its parts. -/
structure Location where
  segments : List Segment
deriving DecidableEq

namespace Location

/-- The value itself. -/
def root : Location := ⟨[]⟩

/-- One step further. -/
def push (location : Location) (segment : Segment) : Location :=
  ⟨location.segments ++ [segment]⟩

/-- The number of steps. -/
def length (location : Location) : Nat := location.segments.length

/-- Whether a location is the value itself. -/
def isRoot (location : Location) : Bool := location.segments.isEmpty

/-- The last step, if there is one. -/
def last? (location : Location) : Option Segment := location.segments.getLast?

/-- The text of steps that come after others: a key is set off by a point, a position by brackets.
-/
def tailText : List Segment → String
  | [] => ""
  | .field name :: rest => "." ++ name ++ tailText rest
  | .index n :: rest => (Segment.index n).text ++ tailText rest

/-- The text of a location: no point before a key that comes first. -/
def text (location : Location) : String :=
  match location.segments with
  | [] => ""
  | first :: rest => first.text ++ tailText rest

/-- The developer text of a location. -/
def inspect (location : Location) : String :=
  Inspect.parts "JsonPath"
    [Inspect.field "segments" (Inspect.list (location.segments.map Segment.inspect))]

@[simp] theorem segments_push (location : Location) (segment : Segment) :
    (location.push segment).segments = location.segments ++ [segment] := rfl

theorem text_root : root.text = "" := rfl

end Location

end JsonValidation
