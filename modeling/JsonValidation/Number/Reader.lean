import JsonValidation.Number.Basic

/-!
# Reading numbers

A number is spelled as an optional minus sign, digits, an optional fraction and an optional power
of ten. Its spelling decides how it is kept: without a fraction and a power, and within the
integers of 64 bits, it is an integer; any other spelling is the nearest double. A minus sign
before a zero makes it the negative zero, which is a double.

* `Numeral.ofChars?`: the parts of a spelling;
* `Number.ofChars?`: the number it denotes, unless it is too large for a double.
-/

namespace JsonValidation

-- Powers are those of the core library, whatever else is imported.
attribute [local instance (high)] instPowNat

/-- The parts of a spelled number: `digits * 10 ^ exponent`, where `isWhole` says that neither a
fraction nor a power of ten was written. -/
structure Numeral where
  negative : Bool
  digits : List Char
  exponent : Int
  isWhole : Bool

namespace Numeral

/-- The natural number that decimal digits spell. -/
def valueOf (digits : List Char) : Nat :=
  digits.foldl (fun n c => 10 * n + (c.toNat - '0'.toNat)) 0

/-- Splits off the digits at the start; there has to be at least one. -/
def digits? (chars : List Char) : Option (List Char × List Char) :=
  let digits := chars.takeWhile Char.isDigit
  if digits.isEmpty then none else some (digits, chars.dropWhile Char.isDigit)

/-- Splits off a fraction, if there is one. -/
def fraction? : List Char → Option (List Char × List Char)
  | '.' :: rest => digits? rest
  | rest => some ([], rest)

/-- The power of ten that a text spells, if it is empty or one. -/
def power? : List Char → Option Int
  | [] => some 0
  | mark :: rest =>
    if mark = 'e' || mark = 'E' then
      let (negative, rest) := match rest with
        | '-' :: rest => (true, rest)
        | '+' :: rest => (false, rest)
        | rest => (false, rest)
      match digits? rest with
      | some (digits, []) => some (if negative then -(valueOf digits) else valueOf digits)
      | _ => none
    else none

/-- The parts of a spelled number. -/
def ofChars? (chars : List Char) : Option Numeral := do
  let (negative, rest) := match chars with
    | '-' :: rest => (true, rest)
    | rest => (false, rest)
  let (whole, rest) ← digits? rest
  if 1 < whole.length && whole.head? == some '0' then none
  else
    let (fraction, last) ← fraction? rest
    let power ← power? last
    some ⟨negative, whole ++ fraction, power - fraction.length, rest.isEmpty⟩

/-- The double nearest to a numeral, or nothing when it is too large. Numerals at or above `10 ^
310` are, and those below `10 ^ -330` are zero, so neither is worked out. -/
def toBinary64? (numeral : Numeral) : Option Binary64 :=
  let digits := valueOf numeral.digits
  let top := (Binary64.digitCount digits : Int) + numeral.exponent
  if digits = 0 || top < -330 then some (.zero numeral.negative)
  else if 310 < top then none
  else Binary64.nearest? numeral.negative (digits * 10 ^ numeral.exponent.toNat)
    (10 ^ (-numeral.exponent).toNat)

/-- The integer that a numeral spells, if it is kept as one. -/
def toInt? (numeral : Numeral) : Option Int :=
  let digits := valueOf numeral.digits
  let n : Int := if numeral.negative then -digits else digits
  if numeral.isWhole && !(numeral.negative && digits == 0)
    && Number.leastInteger ≤ n && n ≤ Number.greatestInteger then some n
  else none

end Numeral

/-- The number that a text spells. -/
def Number.ofChars? (chars : List Char) : Option Number := do
  let numeral ← Numeral.ofChars? chars
  match numeral.toInt? with
  | some n => some (.integer n)
  | none => numeral.toBinary64?.map .float

end JsonValidation
