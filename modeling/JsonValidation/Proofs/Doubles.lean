import JsonValidation.Number.Binary64
import JsonValidation.Proofs.Rounding

/-!
# Doubles as rationals

A finite double denotes a rational. Equality of doubles is equality of what they denote, and every
conversion to a double is correctly rounded: its result is the finite double nearest to the number
that was given, the one of even rank when two are equally near.

* `Binary64.toRat`: the rational that a double denotes;
* `Binary64.place`: the place of a double among all of them;
* `Binary64.IsNearest`: the double that a rational is rounded to, which is unique up to the sign of
  zero by `Binary64.IsNearest.toRat_eq` and grows with the rational by `Binary64.IsNearest.toRat_le`;
* `Binary64.ofInt_isNearest`: the double of an integer.
-/

namespace JsonValidation

-- Powers are those of the core library, whatever else is imported.
attribute [local instance (high)] instPowNat

namespace Binary64

/-- A magnitude with a sign. -/
def signed (negative : Bool) (magnitude : ℚ) : ℚ :=
  if negative then -magnitude else magnitude

theorem signed_eq_zero_iff {negative : Bool} {p : ℚ} : signed negative p = 0 ↔ p = 0 := by
  cases negative
  · rfl
  · exact neg_eq_zero

theorem abs_signed (negative : Bool) {p : ℚ} (hp : 0 ≤ p) : |signed negative p| = p := by
  cases negative
  · exact abs_of_nonneg hp
  · exact (abs_neg p).trans (abs_of_nonneg hp)

theorem abs_signed_sub (negative : Bool) (p r : ℚ) :
    |signed negative p - signed negative r| = |p - r| := by
  cases negative
  · rfl
  · show |-p - -r| = |p - r|
    rw [neg_sub_neg, abs_sub_comm]

/-- With any signs, magnitudes are as far from each other as with the same sign, or farther. -/
theorem abs_sub_le_abs_signed_sub {p r : ℚ} (hp : 0 ≤ p) (hr : 0 ≤ r) (a b : Bool) :
    |p - r| ≤ |signed a p - signed b r| := by
  calc |p - r| = |(|signed a p| - |signed b r|)| := by rw [abs_signed a hp, abs_signed b hr]
    _ ≤ |signed a p - signed b r| := abs_abs_sub_abs_le _ _

/-- An integer is its magnitude with its sign. -/
theorem intCast_eq_signed (n : Int) : (n : ℚ) = signed (n < 0) n.natAbs := by
  rw [signed, Nat.cast_natAbs]
  rcases lt_or_ge n 0 with hneg | hnonneg
  · rw [if_pos (decide_eq_true hneg), abs_of_neg hneg, Int.cast_neg, neg_neg]
  · rw [if_neg (by simpa using hnonneg), abs_of_nonneg hnonneg]

/-- The rational that a double denotes. -/
def toRat (x : Binary64) : ℚ :=
  signed x.negative (BinaryFormat.double.value x.rank)

/-- The place of a double: its rank, counted downwards from zero for the negative ones. -/
def place (x : Binary64) : ℤ :=
  if x.negative then -x.rank else x.rank

/-! ## The order of doubles -/

theorem value_zero : BinaryFormat.double.value 0 = 0 := by
  rw [BinaryFormat.value, BinaryFormat.units_zero, Nat.cast_zero, zero_div]

theorem value_nonneg (rank : Nat) : 0 ≤ BinaryFormat.double.value rank :=
  value_zero ▸ BinaryFormat.double.value_strictMono.monotone (Nat.zero_le rank)

theorem value_pos {rank : Nat} (h : 0 < rank) : 0 < BinaryFormat.double.value rank :=
  value_zero ▸ BinaryFormat.double.value_strictMono h

theorem natAbs_place (x : Binary64) : x.place.natAbs = x.rank := by
  unfold place
  split <;> omega

/-- Every place within the range is that of a double. -/
theorem exists_place {p : ℤ} (h : p.natAbs < BinaryFormat.double.limit) :
    ∃ x : Binary64, x.place = p := by
  rcases le_or_gt 0 p with hp | hp
  · exact ⟨⟨false, p.natAbs, h⟩, Int.natAbs_of_nonneg hp⟩
  · exact ⟨⟨true, p.natAbs, h⟩, show -(p.natAbs : ℤ) = p by omega⟩

theorem toRat_lt_of_place_lt {x y : Binary64} (h : x.place < y.place) : x.toRat < y.toRat := by
  have hmono := BinaryFormat.double.value_strictMono
  simp only [place] at h
  simp only [toRat, signed]
  cases hx : x.negative <;> cases hy : y.negative <;>
    simp only [hx, hy, if_true, if_false, Bool.false_eq_true] at h ⊢
  case false.false => exact hmono (by omega)
  case false.true => omega
  case true.false =>
    rcases Nat.eq_zero_or_pos x.rank with hzero | hpos
    · rw [hzero, value_zero, neg_zero]
      exact value_pos (by omega)
    · linarith [value_pos hpos, value_nonneg y.rank]
  case true.true => exact neg_lt_neg (hmono (by omega))

theorem place_eq_iff {x y : Binary64} : x.place = y.place ↔ x.equal y := by
  simp only [place, equal, Bool.and_eq_true, Bool.or_eq_true, beq_iff_eq]
  cases x.negative <;> cases y.negative <;> simp <;> omega

theorem toRat_eq_of_place_eq {x y : Binary64} (h : x.place = y.place) : x.toRat = y.toRat := by
  obtain ⟨hrank, hsign⟩ : x.rank = y.rank ∧ (x.negative = y.negative ∨ x.rank = 0) := by
    simpa [equal] using place_eq_iff.mp h
  rcases hsign with hsign | hzero
  · rw [toRat, toRat, hrank, hsign]
  · rw [toRat, toRat, ← hrank, hzero, value_zero, signed, signed, neg_zero, ite_self, ite_self]

/-- Doubles are equal when they denote the same number. -/
theorem equal_iff_toRat_eq {x y : Binary64} : x.equal y ↔ x.toRat = y.toRat := by
  rw [← place_eq_iff]
  refine ⟨toRat_eq_of_place_eq, fun h => ?_⟩
  rcases lt_trichotomy x.place y.place with hlt | heq | hgt
  · exact absurd h (toRat_lt_of_place_lt hlt).ne
  · exact heq
  · exact absurd h (toRat_lt_of_place_lt hgt).ne'

/-! ## The nearest double -/

/-- Whether a double is the one that a rational is rounded to: no double is nearer, and if another
number is as near, then the rank of this one is even. -/
structure IsNearest (x : Binary64) (q : ℚ) : Prop where
  nearest : ∀ y : Binary64, |q - x.toRat| ≤ |q - y.toRat|
  even_of_tie : ∀ y : Binary64, y.toRat ≠ x.toRat → |q - y.toRat| = |q - x.toRat| → x.rank % 2 = 0

theorem IsNearest.of_equal {x y : Binary64} {q : ℚ} (h : x.IsNearest q) (hxy : x.equal y) :
    y.IsNearest q := by
  have hrat : x.toRat = y.toRat := equal_iff_toRat_eq.mp hxy
  have hrank : x.rank = y.rank := by
    simp only [equal, Bool.and_eq_true, beq_iff_eq] at hxy
    exact hxy.1
  constructor
  · rw [← hrat]; exact h.nearest
  · rw [← hrat, ← hrank]; exact h.even_of_tie

/-- A rational that a double denotes is rounded to that double. -/
theorem isNearest_toRat (x : Binary64) : x.IsNearest x.toRat := by
  constructor
  · intro y
    rw [sub_self, abs_zero]
    exact abs_nonneg _
  · intro y hne htie
    rw [sub_self, abs_zero, abs_eq_zero, sub_eq_zero] at htie
    exact absurd htie.symm hne

/-- A rational is not beyond the midpoint between the double that it is rounded to and a larger one. -/
theorem IsNearest.le_midpoint {x y : Binary64} {q : ℚ} (hx : x.IsNearest q)
    (h : x.toRat < y.toRat) : q ≤ (x.toRat + y.toRat) / 2 := by
  by_contra! hmid
  have hnear := hx.nearest y
  rw [abs_of_nonneg (by linarith)] at hnear
  rcases abs_cases (q - y.toRat) with ⟨habs, -⟩ | ⟨habs, -⟩ <;> linarith

theorem IsNearest.midpoint_le {x y : Binary64} {q : ℚ} (hx : x.IsNearest q)
    (h : y.toRat < x.toRat) : (x.toRat + y.toRat) / 2 ≤ q := by
  by_contra! hmid
  have hnear := hx.nearest y
  rw [abs_of_nonpos (by linarith)] at hnear
  rcases abs_cases (q - y.toRat) with ⟨habs, -⟩ | ⟨habs, -⟩ <;> linarith

/-- Two doubles with another between them are not both nearest to a rational. -/
theorem IsNearest.place_le {x y : Binary64} {q : ℚ} (hx : x.IsNearest q) (hy : y.IsNearest q) :
    y.place ≤ x.place + 1 := by
  by_contra! hgap
  have hlimit : (x.place + 1).natAbs < BinaryFormat.double.limit := by
    have hxlt := x.natAbs_place ▸ x.rank_lt
    have hylt := y.natAbs_place ▸ y.rank_lt
    omega
  obtain ⟨z, hz⟩ := exists_place hlimit
  have hxz : x.toRat < z.toRat := toRat_lt_of_place_lt (by omega)
  have hzy : z.toRat < y.toRat := toRat_lt_of_place_lt (by omega)
  -- The rational would lie below the double in between, and above it.
  have hbelow : q ≤ (x.toRat + z.toRat) / 2 := hx.le_midpoint hxz
  have habove : (y.toRat + z.toRat) / 2 ≤ q := hy.midpoint_le hzy
  linarith

/-- A rational is rounded to one number only. -/
theorem IsNearest.toRat_eq {x y : Binary64} {q : ℚ} (hx : x.IsNearest q) (hy : y.IsNearest q) :
    x.toRat = y.toRat := by
  by_contra hne
  have htie : |q - y.toRat| = |q - x.toRat| := le_antisymm (hy.nearest x) (hx.nearest y)
  have hxeven := hx.even_of_tie y (Ne.symm hne) htie
  have hyeven := hy.even_of_tie x hne htie.symm
  have hxy := hx.place_le hy
  have hyx := hy.place_le hx
  rw [← natAbs_place] at hxeven hyeven
  -- Neighbours have ranks of different parity.
  have hplace : x.place = y.place := by omega
  exact hne (toRat_eq_of_place_eq hplace)

/-- Rounding keeps the order of rationals. -/
theorem IsNearest.toRat_le {x y : Binary64} {p q : ℚ} (hx : x.IsNearest p) (hy : y.IsNearest q)
    (h : p ≤ q) : x.toRat ≤ y.toRat := by
  rcases h.eq_or_lt with rfl | hlt
  · exact (hx.toRat_eq hy).le
  · by_contra! hgt
    have hp : (x.toRat + y.toRat) / 2 ≤ p := hx.midpoint_le hgt
    have hq : q ≤ (y.toRat + x.toRat) / 2 := hy.le_midpoint hgt
    linarith

/-! ## Rounding to doubles -/

/-- A double is nearest to a rational of its sign if its magnitude is. -/
theorem isNearest_signed {x : Binary64} {p : ℚ} (hp : 0 ≤ p)
    (nearest : ∀ rank < BinaryFormat.double.limit,
      |p - BinaryFormat.double.value x.rank| ≤ |p - BinaryFormat.double.value rank|)
    (even_of_tie : ∀ rank < BinaryFormat.double.limit, rank ≠ x.rank →
      |p - BinaryFormat.double.value rank| ≤ |p - BinaryFormat.double.value x.rank| →
      x.rank % 2 = 0) :
    x.IsNearest (signed x.negative p) := by
  have hx : |signed x.negative p - x.toRat| = |p - BinaryFormat.double.value x.rank| :=
    abs_signed_sub x.negative _ _
  have hother (y : Binary64) :
      |p - BinaryFormat.double.value y.rank| ≤ |signed x.negative p - y.toRat| :=
    abs_sub_le_abs_signed_sub hp (value_nonneg y.rank) _ _
  constructor
  · intro y
    rw [hx]
    exact (nearest y.rank y.rank_lt).trans (hother y)
  · intro y hne htie
    by_cases hrank : y.rank = x.rank
    · -- The other double differs in its sign only, and is as near to zero only.
      by_contra hodd
      have hpos : 0 < BinaryFormat.double.value x.rank := value_pos (by omega)
      have hneg : y.toRat = -x.toRat := by
        rw [toRat, toRat, hrank] at hne ⊢
        revert hne
        cases y.negative <;> cases x.negative <;> simp [signed]
      have hzero : p = 0 := by
        rw [hneg, sub_neg_eq_add, abs_eq_abs] at htie
        rcases htie with hsame | hopposite
        · have hx0 : x.toRat = 0 := by linarith
          exact absurd (signed_eq_zero_iff.mp hx0) hpos.ne'
        · have hp0 : signed x.negative p = 0 := by linarith
          exact signed_eq_zero_iff.mp hp0
      have hnear := nearest 0 ((Nat.zero_le _).trans_lt x.rank_lt)
      rw [hzero, value_zero, sub_zero, zero_sub, abs_zero, abs_neg, abs_of_pos hpos] at hnear
      exact hnear.not_gt hpos
    · apply even_of_tie y.rank y.rank_lt hrank
      rw [← hx, ← htie]
      exact hother y

/-- A quotient in the range of doubles is rounded to the nearest of them. -/
theorem nearest?_isNearest {negative : Bool} {num den : Nat} (hden : 0 < den) {x : Binary64}
    (h : nearest? negative num den = some x) : x.IsNearest (signed negative (num / den)) := by
  simp only [nearest?] at h
  split at h
  case isFalse => contradiction
  case isTrue hlimit =>
    obtain rfl := Option.some.inj h
    apply isNearest_signed (by positivity)
    · intro rank _
      exact BinaryFormat.double.rank_nearest num hden rank
    · intro rank _ hne htie
      exact BinaryFormat.double.rank_even_of_tie (by decide) hden hne htie

/-- A quotient beyond the range of doubles is nearest to the last of them. -/
theorem largest_isNearest {negative : Bool} {num den : Nat} (hden : 0 < den)
    (h : nearest? negative num den = none) :
    (largest negative).IsNearest (signed negative (num / den)) := by
  have hmono := BinaryFormat.double.value_strictMono
  have hlimit : BinaryFormat.double.limit ≤ BinaryFormat.double.rank num den := by
    simp only [nearest?] at h
    split at h
    · contradiction
    · omega
  have hlast (rank : Nat) (hrank : rank < BinaryFormat.double.limit) :
      rank ≤ (largest negative).rank := Nat.le_sub_one_of_lt hrank
  have hbeyond : BinaryFormat.double.value (largest negative).rank ≤ (num / den : ℚ) := by
    by_contra! hlt
    have hnear := BinaryFormat.double.rank_nearest num hden (largest negative).rank
    have hover := hmono ((largest negative).rank_lt.trans_le hlimit)
    rw [abs_of_neg (by linarith), abs_of_neg (by linarith)] at hnear
    linarith
  apply isNearest_signed (x := largest negative) (by positivity)
  · intro rank hrank
    have hle := hmono.monotone (hlast rank hrank)
    rw [abs_of_nonneg (by linarith), abs_of_nonneg (by linarith)]
    linarith
  · intro rank hrank hne htie
    have hlt := hmono (lt_of_le_of_ne (hlast rank hrank) hne)
    rw [abs_of_nonneg (by linarith), abs_of_nonneg (by linarith)] at htie
    linarith

/-- The double of an integer is the one that the integer is rounded to. -/
theorem ofInt_isNearest (n : Int) : (ofInt n).IsNearest n := by
  have hn : (n : ℚ) = signed (n < 0) ((n.natAbs : ℚ) / (1 : ℕ)) := by
    rw [Nat.cast_one, div_one]
    exact intCast_eq_signed n
  rw [hn, ofInt]
  cases h : nearest? (n < 0) n.natAbs 1 with
  | some x => exact nearest?_isNearest Nat.one_pos h
  | none => exact largest_isNearest Nat.one_pos h

/-- Every integer up to `2 ^ 53` is a double. -/
theorem toRat_ofInt {n : Int} (h : n.natAbs ≤ 2 ^ (53 : Nat)) : (ofInt n).toRat = n := by
  obtain ⟨rank, hrank, hvalue⟩ :=
    BinaryFormat.double.exists_value_eq (by decide) (h.trans_eq (by decide))
  have hlimit : rank < BinaryFormat.double.limit := hrank.trans_lt (by decide)
  have hx : toRat ⟨n < 0, rank, hlimit⟩ = n := by
    rw [toRat, hvalue, ← intCast_eq_signed]
  exact ((ofInt_isNearest n).toRat_eq (hx ▸ isNearest_toRat _)).trans hx

/-- An integer below zero and one above it are not rounded to the same number. -/
theorem ofInt_equal_eq_false {m n : Int} (hm : m < 0) (hn : 0 < n) :
    (ofInt m).equal (ofInt n) = false := by
  have hneg : (ofInt m).toRat ≤ ((-1 : Int) : ℚ) := by
    rw [← toRat_ofInt (n := -1) (by decide)]
    exact (ofInt_isNearest m).toRat_le (ofInt_isNearest _) (by exact_mod_cast Int.le_sub_one_of_lt hm)
  have hpos : ((1 : Int) : ℚ) ≤ (ofInt n).toRat := by
    rw [← toRat_ofInt (n := 1) (by decide)]
    exact (ofInt_isNearest _).toRat_le (ofInt_isNearest n) (by exact_mod_cast hn)
  rw [Bool.eq_false_iff, ne_eq, equal_iff_toRat_eq]
  intro heq
  rw [heq] at hneg
  norm_num at hneg hpos
  linarith

end Binary64

end JsonValidation
