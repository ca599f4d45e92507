import JsonValidation.Number.DecimalText

/-!
# Numbers

A number keeps how its text spelled it, as an integer or as a double, because the two are written
differently. Two comparisons are needed:

* `Number.equal`: the same spelling and the same number;
* `Number.sameValue`: the same number whatever the spelling, integers compared exactly and all other
  pairs as doubles.
-/

namespace JsonValidation

-- Powers are those of the core library, whatever else is imported.
attribute [local instance (high)] instPowNat

/-- A number, spelled as an integer or as a double. -/
inductive Number where
  | integer (n : Int)
  | float (x : Binary64)
deriving DecidableEq

namespace Number

/-- The least integer that is spelled as an integer. -/
def leastInteger : Int := -2 ^ (63 : Nat)

/-- The greatest integer that is spelled as an integer. -/
def greatestInteger : Int := 2 ^ (64 : Nat) - 1

/-- The nearest double. -/
def toBinary64 : Number → Binary64
  | .integer n => .ofInt n
  | .float x => x

/-- Whether two numbers are spelled alike and denote the same number. -/
def equal : Number → Number → Bool
  | .integer m, .integer n => m == n
  | .float x, .float y => x.equal y
  | _, _ => false

/-- Whether two numbers agree, compared as integers when both are, else as doubles. -/
def sameValue : Number → Number → Bool
  | .integer m, .integer n => m == n
  | a, b => a.toBinary64.equal b.toBinary64

/-- The decimal text of a number. -/
def text : Number → String
  | .integer n => n.repr
  | .float x => x.text

/-- Whether a number is an integer of 64 bits with a sign. -/
def isSigned64 : Number → Bool
  | .integer n => -2 ^ (63 : Nat) ≤ n && n < 2 ^ (63 : Nat)
  | .float _ => false

/-- Whether a number is an integer of 64 bits without a sign. -/
def isUnsigned64 : Number → Bool
  | .integer n => 0 ≤ n && n < 2 ^ (64 : Nat)
  | .float _ => false

/-- Whether a number is spelled as a double. -/
def isFloat : Number → Bool
  | .integer _ => false
  | .float _ => true

/-- Whether a number is a signed integer of 64 bits divisible by two. -/
def isEven : Number → Bool
  | .integer n => isSigned64 (.integer n) && n % 2 == 0
  | .float _ => false

@[simp] theorem equal_self (n : Number) : n.equal n = true := by
  cases n <;> simp [equal]

@[simp] theorem sameValue_self (n : Number) : n.sameValue n = true := by
  cases n <;> simp [sameValue]

/-- Numbers that are spelled alike and equal have the same value. -/
theorem sameValue_of_equal {a b : Number} (h : a.equal b) : a.sameValue b := by
  cases a <;> cases b <;> simp_all [equal, sameValue, toBinary64]

end Number

end JsonValidation
