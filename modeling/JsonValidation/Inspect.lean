import JsonValidation.Unicode.Visible

/-!
# Developer texts

One-line texts that show how a thing is built, for debugging. They are put together from quoted
strings, lists and named fields:

* `Inspect.quoted`: a string in quotes, with every character that is not visible escaped;
* `Inspect.list`: members between brackets;
* `Inspect.labelled`: a constructor applied to one argument;
* `Inspect.parts`, `Inspect.field`: a name followed by named fields.
-/

namespace JsonValidation

namespace Inspect

/-- Whether a character is a printable one of ASCII. All of these are visible, which saves looking
them up. -/
def isPlain (c : Char) : Bool := 0x20 ≤ c.toNat && c.toNat < 0x7f

theorem isVisible_of_isPlain {c : Char} (h : isPlain c = true) : Unicode.isVisible c = true := by
  simp only [isPlain, Bool.and_eq_true, decide_eq_true_eq] at h
  have outside (table : List (Nat × Nat))
      (apart : table.all (fun r => r.2 < 0x20 || 0x7f ≤ r.1) = true) :
      Unicode.inRanges table c.toNat = false := Unicode.inRanges_eq_false apart h.1 h.2
  simp only [Unicode.isVisible, Unicode.isVisibleCode, Unicode.isAttached,
    outside Unicode.unprintable (by decide +kernel),
    outside Unicode.defaultIgnorable (by decide +kernel),
    outside Unicode.graphemeExtend (by decide +kernel), Bool.false_and, Bool.or_self,
    Bool.not_false]

/-- A character of a quoted string. What cannot be told from its looks is written as a number. -/
def escaped (c : Char) : List Char :=
  if c = '"' then ['\\', '"']
  else if c = '\\' then ['\\', '\\']
  else if c = '\n' then ['\\', 'n']
  else if c = '\r' then ['\\', 'r']
  else if c = '\t' then ['\\', 't']
  else if c = '\x00' then ['\\', '0']
  else if isPlain c || Unicode.isVisible c then [c]
  else ['\\', 'u', '\x7b'] ++ Nat.toDigits 16 c.toNat ++ ['\x7d']

/-- A string in quotes. -/
def quoted (s : String) : String :=
  "\"" ++ String.ofList (s.toList.flatMap escaped) ++ "\""

/-- Members of a list between brackets. -/
def list (members : List String) : String := "[" ++ ", ".intercalate members ++ "]"

/-- Members of an ordered map between braces. -/
def map (members : List (String × String)) : String :=
  "\x7b" ++ ", ".intercalate (members.map fun (key, text) => quoted key ++ ": " ++ text) ++ "\x7d"

/-- A constructor applied to one argument. -/
def labelled (name argument : String) : String := name ++ "(" ++ argument ++ ")"

/-- A text that may be missing. -/
def option : Option String → String
  | none => "None"
  | some text => labelled "Some" text

/-- A name with parts between braces. -/
def parts (name : String) (members : List String) : String :=
  name ++ " \x7b " ++ ", ".intercalate members ++ " \x7d"

/-- A field of a structure with its text. -/
def field (name text : String) : String := name ++ ": " ++ text

/-- The mark for fields that are not shown. -/
def more : String := ".."

end Inspect

end JsonValidation
