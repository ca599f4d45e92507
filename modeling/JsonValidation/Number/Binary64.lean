import JsonValidation.Number.Rounding

/-!
# Finite doubles

A finite double is a sign and the rank of its magnitude among the non-negative doubles, so zero has
both signs. Every operation is exact integer arithmetic followed by one rounding:

* `Binary64.nearest?`: the double nearest to a signed quotient, unless it overflows;
* `Binary64.ofInt`: the double nearest to an integer;
* `Binary64.toSingle?`: the nearest number of single precision;
* `Binary64.equal`: equality of the numbers denoted, which ignores the sign of zero.
-/

namespace JsonValidation

-- Powers are those of the core library, whatever else is imported.
attribute [local instance (high)] instPowNat

/-- A finite double: a sign and the rank of its magnitude. -/
structure Binary64 where
  negative : Bool
  rank : Nat
  rank_lt : rank < BinaryFormat.double.limit
deriving DecidableEq

namespace Binary64

/-- The magnitude in units of `2 ^ -1074`. -/
def units (x : Binary64) : Nat :=
  BinaryFormat.double.units x.rank

/-- The double nearest to `num / den`, with the given sign, or nothing when it would be infinite. -/
def nearest? (negative : Bool) (num den : Nat) : Option Binary64 :=
  let rank := BinaryFormat.double.rank num den
  if h : rank < BinaryFormat.double.limit then some ⟨negative, rank, h⟩ else none

/-- The zero of a sign. -/
def zero (negative : Bool) : Binary64 :=
  ⟨negative, 0, by decide⟩

/-- The finite double of a sign that is farthest from zero. -/
def largest (negative : Bool) : Binary64 :=
  ⟨negative, 2047 * 2 ^ (52 : Nat) - 1, by decide⟩

/-- The double nearest to an integer; an integer beyond all doubles goes to the last one. -/
def ofInt (n : Int) : Binary64 :=
  (nearest? (n < 0) n.natAbs 1).getD (largest (n < 0))

/-- The nearest number of single precision, or nothing when it would be infinite. -/
def toSingle? (x : Binary64) : Option Binary64 :=
  let rank := BinaryFormat.single.rank x.units (2 ^ BinaryFormat.double.scale)
  if rank < BinaryFormat.single.limit then
    nearest? x.negative (BinaryFormat.single.units rank) (2 ^ BinaryFormat.single.scale)
  else none

/-- Whether two doubles denote the same number: the two zeros do. -/
def equal (x y : Binary64) : Bool :=
  x.rank == y.rank && (x.negative == y.negative || x.rank == 0)

@[simp] theorem equal_self (x : Binary64) : x.equal x = true := by
  simp [equal]

theorem equal_comm (x y : Binary64) : x.equal y = y.equal x := by
  by_cases h : x.rank = y.rank
  · simp only [equal, h, BEq.comm]
  · rw [equal, equal, beq_false_of_ne h, beq_false_of_ne (Ne.symm h), Bool.false_and,
      Bool.false_and]

theorem equal_trans {x y z : Binary64} (hxy : x.equal y) (hyz : y.equal z) : x.equal z := by
  simp only [equal, Bool.and_eq_true, Bool.or_eq_true, beq_iff_eq] at *
  obtain ⟨hxy, h | h⟩ := hxy <;> obtain ⟨hyz, h' | h'⟩ := hyz <;> simp_all

end Binary64

end JsonValidation
