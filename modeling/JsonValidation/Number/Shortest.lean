import JsonValidation.Number.Binary64

/-!
# Shortest decimal digits

The decimal text of a double has the fewest significant digits that still read back as that double,
and of those the nearest. Around each double lie the reals that round to it, between the midpoints
to its two neighbours, the midpoints included when its rank is even. For one digit, two digits and
so on the two decimals next to the double are tried; seventeen digits always suffice.

* `Binary64.onGrid?`: the decimal with a given last place that reads back, if there is one;
* `Binary64.shortest`: the shortest decimal that reads back.
-/

namespace JsonValidation

-- Powers are those of the core library, whatever else is imported.
attribute [local instance (high)] instPowNat

/-- A decimal number: `digits * 10 ^ exponent`. -/
structure Decimal where
  digits : Nat
  exponent : Int
deriving DecidableEq

namespace Binary64

/-- The number of decimal digits of a natural number. -/
def digitCount (n : Nat) : Nat := (Nat.toDigits 10 n).length

/-- The exponent of ten of the leading digit of `num / den`, for a positive quotient. -/
def decimalExponent (num den : Nat) : Int :=
  if den ≤ num then (digitCount (num / den) : Int) - 1
  else -(digitCount ((den - 1) / num) : Int)

/-- The best decimal on the grid of multiples of `10 ^ exponent` that reads back as the positive
double at `rank`: the nearer of its two neighbours on the grid, a tie going to the even one. -/
def onGrid? (rank : Nat) (exponent : Int) : Option Decimal :=
  let unitsAt := BinaryFormat.double.units
  let twice := 2 * unitsAt rank
  let lower := unitsAt (rank - 1) + unitsAt rank
  let upper := unitsAt rank + unitsAt (rank + 1)
  let factor := 10 ^ (-exponent).toNat
  let step := 10 ^ exponent.toNat * 2 ^ (BinaryFormat.double.scale + 1)
  let readsBack (digits : Nat) : Bool :=
    let point := digits * step
    if rank % 2 = 0 then lower * factor ≤ point && point ≤ upper * factor
    else lower * factor < point && point < upper * factor
  let below := twice * factor / step
  let nearer := roundDiv (twice * factor) step
  if readsBack nearer then some ⟨nearer, exponent⟩
  else if readsBack below then some ⟨below, exponent⟩
  else if readsBack (below + 1) then some ⟨below + 1, exponent⟩
  else none

/-- The shortest decimal that reads back as the positive double at `rank`. -/
def shortest (rank : Nat) : Decimal :=
  let leading := decimalExponent (BinaryFormat.double.units rank) (2 ^ BinaryFormat.double.scale)
  ((List.range 17).findSome? fun (n : Nat) => onGrid? rank (leading - n)).getD ⟨0, 0⟩

end Binary64

end JsonValidation
