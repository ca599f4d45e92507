import JsonValidation.Number.Reader
import JsonValidation.Proofs.Doubles
import JsonValidation.Proofs.Equality
import JsonValidation.Proofs.Guards

/-!
# Literals of numbers

Numbers of the same spelling match when they are the same number. An integer matches the double that
it is rounded to, which is always the same number for integers up to `2 ^ 53` only, so beyond those a
literal matches numbers that are different from it, and matching is not transitive.

* `Number.toRat`: the rational that a number denotes;
* `Number.IsRoundedTo`: an integer and the double nearest to it;
* `Schema.literal_number_accepted_iff`: the numbers that the literal of a number accepts;
* `Number.sameValue_iff_toRat_eq`: numbers that are matched exactly;
* `Number.sameByWidth_eq_sameValue`: for integers that fit into 64 bits it makes no difference if they
  are compared in the widths that they fit into.
-/

namespace JsonValidation

-- Powers are those of the core library, whatever else is imported.
attribute [local instance (high)] instPowNat

namespace Number

/-- The rational that a number denotes. -/
def toRat : Number → ℚ
  | .integer n => n
  | .float x => x.toRat

/-- Whether the second number is the double that the first one, an integer, is rounded to. -/
def IsRoundedTo : Number → Number → Prop
  | .integer n, .float x => x.IsNearest n
  | _, _ => False

theorem sameValue_integer_float {n : Int} {x : Binary64} :
    (integer n).sameValue (float x) = true ↔ x.IsNearest n := by
  show (Binary64.ofInt n).equal x = true ↔ x.IsNearest n
  have hn := Binary64.ofInt_isNearest n
  constructor
  · intro h
    exact hn.of_equal h
  · intro h
    exact Binary64.equal_iff_toRat_eq.mpr (hn.toRat_eq h)

/-- An integer that a double denotes is rounded to that double. -/
theorem isNearest_of_toRat_eq {n : Int} {x : Binary64} (h : (n : ℚ) = x.toRat) : x.IsNearest n :=
  h ▸ x.isNearest_toRat

/-- Numbers match when they are the same number, and an integer matches the double that it is rounded
to. -/
theorem sameValue_iff {a b : Number} :
    a.sameValue b = true ↔ a.toRat = b.toRat ∨ a.IsRoundedTo b ∨ b.IsRoundedTo a := by
  cases a with
  | integer m => cases b with
    | integer n => simp [sameValue, toRat, IsRoundedTo]
    | float y =>
      rw [sameValue_integer_float]
      simpa [toRat, IsRoundedTo] using isNearest_of_toRat_eq
  | float x => cases b with
    | integer n =>
      rw [sameValue_comm, sameValue_integer_float]
      simpa [toRat, IsRoundedTo, eq_comm] using isNearest_of_toRat_eq
    | float y =>
      have hxy : (float x).sameValue (float y) = true ↔ x.toRat = y.toRat :=
        Binary64.equal_iff_toRat_eq
      simpa [toRat, IsRoundedTo] using hxy

theorem IsRoundedTo.toRat_eq {a b : Number} (h : a.IsRoundedTo b)
    (hsmall : ∀ n, a = .integer n → n.natAbs ≤ 2 ^ (53 : Nat)) : a.toRat = b.toRat := by
  cases a with
  | float x => exact h.elim
  | integer n => cases b with
    | integer m => exact h.elim
    | float x =>
      have hn : (Binary64.ofInt n).toRat = n := Binary64.toRat_ofInt (hsmall n rfl)
      have hx : (Binary64.ofInt n).toRat = x.toRat := (Binary64.ofInt_isNearest n).toRat_eq h
      exact hn.symm.trans hx

/-- Numbers among which no integer is beyond `2 ^ 53` match just when they are the same number. -/
theorem sameValue_iff_toRat_eq {a b : Number}
    (ha : ∀ n, a = .integer n → n.natAbs ≤ 2 ^ (53 : Nat))
    (hb : ∀ n, b = .integer n → n.natAbs ≤ 2 ^ (53 : Nat)) :
    a.sameValue b = true ↔ a.toRat = b.toRat := by
  rw [sameValue_iff]
  constructor
  · rintro (h | h | h)
    · exact h
    · exact h.toRat_eq ha
    · exact (h.toRat_eq hb).symm
  · exact .inl

/-- Two integers may match the same double without matching each other. -/
theorem sameValue_not_transitive :
    ¬ ∀ a b c : Number, a.sameValue b = true → b.sameValue c = true → a.sameValue c = true := by
  intro htrans
  have hround := htrans (.integer 9007199254740993) (.float (.ofInt 9007199254740993))
    (.integer 9007199254740992) (by decide +kernel) (by decide +kernel)
  exact absurd hround (by decide)

/-! ## Comparing by width -/

/-- The integer of 64 bits with a sign that a number is, if it is one. -/
def signed64? : Number → Option Int
  | .integer n => if isSigned64 (.integer n) then some n else none
  | .float _ => none

/-- The integer of 64 bits without a sign that a number is, if it is one. -/
def unsigned64? : Number → Option Int
  | .integer n => if isUnsigned64 (.integer n) then some n else none
  | .float _ => none

/-- Whether two numbers agree, compared as integers with a sign when both are, else as integers without
a sign when both are, else as doubles. -/
def sameByWidth (a b : Number) : Bool :=
  match a.signed64?, b.signed64? with
  | some m, some n => m == n
  | _, _ =>
    match a.unsigned64?, b.unsigned64? with
    | some m, some n => m == n
    | _, _ => a.toBinary64.equal b.toBinary64

/-- Whether a number is within the range of its spelling. -/
def InRange : Number → Prop
  | .integer n => leastInteger ≤ n ∧ n ≤ greatestInteger
  | .float _ => True

theorem signed64?_integer {n : Int} (h : (integer n).InRange) :
    signed64? (integer n) = if n < 2 ^ (63 : Nat) then some n else none := by
  have hlow : -2 ^ (63 : Nat) ≤ n := h.1
  simp only [signed64?, isSigned64, decide_eq_true hlow, Bool.true_and, decide_eq_true_eq]

theorem unsigned64?_integer {n : Int} (h : (integer n).InRange) :
    unsigned64? (integer n) = if 0 ≤ n then some n else none := by
  have hhigh : n < 2 ^ (64 : Nat) := Int.lt_of_le_sub_one h.2
  simp only [unsigned64?, isUnsigned64, decide_eq_true hhigh, Bool.and_true, decide_eq_true_eq]

/-- Integers are compared as doubles only if one is below zero and the other one too large for a sign,
and no such two have the same double. -/
theorem sameByWidth_integer {m n : Int} (hm : (integer m).InRange) (hn : (integer n).InRange) :
    (integer m).sameByWidth (integer n) = (m == n) := by
  have hcascade : (integer m).sameByWidth (integer n) =
      if m < 2 ^ (63 : Nat) ∧ n < 2 ^ (63 : Nat) ∨ 0 ≤ m ∧ 0 ≤ n then m == n
      else (Binary64.ofInt m).equal (.ofInt n) := by
    rw [sameByWidth, signed64?_integer hm, signed64?_integer hn, unsigned64?_integer hm,
      unsigned64?_integer hn]
    by_cases hms : m < 2 ^ (63 : Nat) <;> by_cases hns : n < 2 ^ (63 : Nat) <;>
      by_cases hmu : 0 ≤ m <;> by_cases hnu : 0 ≤ n <;> simp only [hms, hns, hmu, hnu] <;> rfl
  rw [hcascade]
  split
  · rfl
  · have hsides : m < 0 ∧ 0 < n ∨ n < 0 ∧ 0 < m := by omega
    have hne : (m == n) = false := beq_false_of_ne (by omega)
    rw [hne]
    rcases hsides with ⟨hm, hn⟩ | ⟨hn, hm⟩
    · exact Binary64.ofInt_equal_eq_false hm hn
    · rw [Binary64.equal_comm]
      exact Binary64.ofInt_equal_eq_false hn hm

/-- Numbers within their ranges have the same value when they agree by width. -/
theorem sameByWidth_eq_sameValue {a b : Number} (ha : a.InRange) (hb : b.InRange) :
    a.sameByWidth b = a.sameValue b := by
  cases a with
  | integer m => cases b with
    | integer n => exact sameByWidth_integer ha hb
    | float y =>
      rw [sameByWidth]
      cases (integer m).signed64? <;> cases (integer m).unsigned64? <;> rfl
  | float x => rfl

theorem inRange_of_ofChars? {chars : List Char} {a : Number} (h : ofChars? chars = some a) :
    a.InRange := by
  obtain ⟨numeral, -, h⟩ := Option.bind_eq_some_iff.mp h
  split at h
  · rename_i n hn
    cases h
    simp only [Numeral.toInt?, Option.ite_none_right_eq_some, Option.some.injEq, Bool.and_eq_true,
      decide_eq_true_eq] at hn
    obtain ⟨⟨⟨-, hlow⟩, hhigh⟩, rfl⟩ := hn
    exact ⟨hlow, hhigh⟩
  · obtain ⟨x, -, rfl⟩ := Option.map_eq_some_iff.mp h
    trivial

/-- Numbers that were read from texts agree by width just when they have the same value. -/
theorem sameByWidth_of_ofChars? {chars chars' : List Char} {a b : Number}
    (ha : ofChars? chars = some a) (hb : ofChars? chars' = some b) :
    a.sameByWidth b = a.sameValue b :=
  sameByWidth_eq_sameValue (inRange_of_ofChars? ha) (inRange_of_ofChars? hb)

end Number

/-- The literal of a number accepts that number in either spelling, and if one of two numbers is an
integer then also the double that the integer is rounded to. -/
theorem Schema.literal_number_accepted_iff (a b : Number) :
    ((Schema.literal (.value (.number a))).check (.present (.number b))).verdict = .accepted ↔
      a.toRat = b.toRat ∨ a.IsRoundedTo b ∨ b.IsRoundedTo a := by
  rw [Schema.check, Literal.check_accepted_iff]
  show b.sameValue a = true ↔ a.toRat = b.toRat ∨ a.IsRoundedTo b ∨ b.IsRoundedTo a
  rw [Number.sameValue_comm, Number.sameValue_iff]

/-- A literal that accepts another number than its own. -/
theorem Schema.literal_number_accepts_rounded :
    ((Schema.literal (.value (.number (.integer 9007199254740993)))).check
        (.present (.number (.float (.ofInt 9007199254740992))))).verdict = .accepted ∧
      (Number.integer 9007199254740993).toRat ≠
        (Number.float (.ofInt 9007199254740992)).toRat := by
  constructor
  · rw [Schema.check, Literal.check_accepted_iff]
    decide +kernel
  · have hx : (Number.float (.ofInt 9007199254740992)).toRat = (9007199254740992 : ℤ) :=
      Binary64.toRat_ofInt (by decide)
    rw [hx]
    show ((9007199254740993 : ℤ) : ℚ) ≠ (9007199254740992 : ℤ)
    norm_num

end JsonValidation
