/-!
# Binary floating-point formats

The non-negative finite numbers of a binary format, in increasing order, are numbered from zero: the
`rank` of a number is its place in that sequence. A magnitude is measured in units of the smallest
positive number of the format, so every number of the format is a natural number of units:

* `BinaryFormat.units`: the number at a rank, in units;
* `BinaryFormat.rank`: the rank of the number nearest to a quotient, the even rank of two that are
  equally near.

Ranks may run past the finite numbers of the format; a rank at or above `limit` has overflowed.
-/

namespace JsonValidation

-- Powers are those of the core library, whatever else is imported.
attribute [local instance (high)] instPowNat

/-- The quotient of two naturals rounded to the nearest natural, a tie going to the even one. -/
def roundDiv (num den : Nat) : Nat :=
  let quotient := num / den
  let twice := 2 * (num % den)
  if twice < den then quotient
  else if den < twice then quotient + 1
  else quotient + quotient % 2

/-- A binary floating-point format: its smallest positive number is `2 ^ -scale`, a significand has
`fractionBits` bits after the leading one, and `limit` is the first rank that is too large. -/
structure BinaryFormat where
  fractionBits : Nat
  scale : Nat
  limit : Nat

namespace BinaryFormat

/-- The 64-bit interchange format. -/
def double : BinaryFormat := ⟨52, 1074, 2047 * 2 ^ (52 : Nat)⟩

/-- The 32-bit interchange format. -/
def single : BinaryFormat := ⟨23, 149, 255 * 2 ^ (23 : Nat)⟩

/-- How far the significand of the number at a rank is shifted left: not at all for the subnormal
numbers and for the first row of normal ones. -/
def shift (format : BinaryFormat) (rank : Nat) : Nat :=
  rank / 2 ^ format.fractionBits - 1

/-- The significand of the number at a rank, with its leading one unless it is subnormal. -/
def significand (format : BinaryFormat) (rank : Nat) : Nat :=
  if rank < 2 ^ format.fractionBits then rank
  else 2 ^ format.fractionBits + rank % 2 ^ format.fractionBits

/-- The number at a rank, in units of the smallest positive one. -/
def units (format : BinaryFormat) (rank : Nat) : Nat :=
  format.significand rank * 2 ^ format.shift rank

/-- The rank of the number nearest to `num / den`. A significand that rounds up to the next power of
two carries into the next row of ranks by itself. -/
def rank (format : BinaryFormat) (num den : Nat) : Nat :=
  let scaled := num * 2 ^ format.scale
  let shift := Nat.log2 (scaled / den) - format.fractionBits
  shift * 2 ^ format.fractionBits + roundDiv scaled (den * 2 ^ shift)

theorem units_zero (format : BinaryFormat) : format.units 0 = 0 := by
  simp [units, significand, shift]

end BinaryFormat

end JsonValidation
