import Mathlib.Algebra.Order.Ring.Abs
import Mathlib.Algebra.Order.Field.Basic
import Mathlib.Data.Rat.Cast.Order
import Mathlib.Tactic.Linarith
import Mathlib.Tactic.FieldSimp
import Mathlib.Tactic.Ring
import JsonValidation.Number.Rounding

/-!
# Rounding to a binary format

The numbers of a format increase with their ranks, and rounding is correct: no number of the format
is nearer to a quotient than the one whose rank is computed, and of two that are equally near it is
the one of even rank.

* `BinaryFormat.value`: the number at a rank;
* `BinaryFormat.value_strictMono`: numbers increase with their ranks;
* `BinaryFormat.rank_nearest`, `BinaryFormat.rank_even_of_tie`: the rank of the nearest number.
-/

namespace JsonValidation

-- Powers are those of the core library, whatever else is imported.
attribute [local instance (high)] instPowNat

/-! ## Rounding to the naturals -/

section RoundDiv

variable {num den : Nat}

theorem le_roundDiv (hden : 0 < den) {c : Nat} (h : c * den ≤ num) : c ≤ roundDiv num den := by
  have hq : c ≤ num / den := (Nat.le_div_iff_mul_le hden).mpr h
  simp only [roundDiv]
  split
  · exact hq
  · split <;> omega

theorem roundDiv_le (hden : 0 < den) {c : Nat} (h : num ≤ c * den) : roundDiv num den ≤ c := by
  have hdiv : den * (num / den) + num % den = num := Nat.div_add_mod num den
  rcases h.lt_or_eq with hlt | rfl
  · have hq : num / den < c := (Nat.div_lt_iff_lt_mul hden).mpr hlt
    simp only [roundDiv]
    split
    · omega
    · split <;> omega
  · simp [roundDiv, hden, Nat.mul_div_cancel c hden]

/-- A quotient is rounded by less than one half, or by one half and to an even natural. -/
theorem abs_div_sub_roundDiv (num : Nat) (hden : 0 < den) :
    |(num / den - roundDiv num den : ℚ)| < 1 / 2 ∨
      |(num / den - roundDiv num den : ℚ)| = 1 / 2 ∧ roundDiv num den % 2 = 0 := by
  have hpos : (0 : ℚ) < den := by exact_mod_cast hden
  obtain ⟨q, hq⟩ : ∃ q, q = num / den := ⟨_, rfl⟩
  obtain ⟨m, hm⟩ : ∃ m, m = num % den := ⟨_, rfl⟩
  have hlt : m < den := hm ▸ Nat.mod_lt num hden
  have hquot : (num / den : ℚ) = q + m / den := by
    have hnum : (num : ℚ) = den * q + m := by
      rw [hq, hm]; exact_mod_cast (Nat.div_add_mod num den).symm
    rw [hnum]; field_simp
  simp only [hquot, roundDiv, ← hq, ← hm]
  split
  case isTrue h =>
    have hf : (m / den : ℚ) < 1 / 2 := by
      rw [div_lt_div_iff₀ hpos two_pos]; exact_mod_cast (by omega : m * 2 < 1 * den)
    left
    rw [add_sub_cancel_left, abs_of_nonneg (by positivity)]
    exact hf
  case isFalse h =>
    split
    case isTrue h' =>
      have hf : (1 / 2 : ℚ) < m / den := by
        rw [div_lt_div_iff₀ two_pos hpos]; exact_mod_cast (by omega : 1 * den < m * 2)
      have hf' : (m / den : ℚ) < 1 := (div_lt_one hpos).mpr (by exact_mod_cast hlt)
      left
      rw [Nat.cast_succ, add_sub_add_left_eq_sub, abs_of_neg (by linarith)]
      linarith
    case isFalse h' =>
      have hf : (m / den : ℚ) = 1 / 2 := by
        rw [div_eq_div_iff hpos.ne' two_ne_zero]; exact_mod_cast (by omega : m * 2 = 1 * den)
      right
      rw [hf]
      refine ⟨?_, by omega⟩
      rcases Nat.mod_two_eq_zero_or_one q with hp | hp <;> rw [hp] <;> norm_num

/-- Two different naturals are at least one apart, so a quotient is not near to both. -/
theorem one_le_abs_sub_add_abs_sub (x : ℚ) {c d : Nat} (hne : c ≠ d) : 1 ≤ |x - c| + |x - d| := by
  have hgap : (1 : ℚ) ≤ |(d : ℚ) - c| := by
    have : (1 : ℤ) ≤ |(d : ℤ) - c| := Int.one_le_abs (by omega)
    exact_mod_cast this
  calc (1 : ℚ) ≤ |(x - c) - (x - d)| := by rwa [sub_sub_sub_cancel_left]
    _ ≤ |x - c| + |x - d| := abs_sub _ _

/-- No natural is nearer to a quotient than the one it is rounded to. -/
theorem roundDiv_nearest (num : Nat) (hden : 0 < den) (c : Nat) :
    |(num / den - roundDiv num den : ℚ)| ≤ |(num / den - c : ℚ)| := by
  rcases eq_or_ne c (roundDiv num den) with rfl | hne
  · exact le_rfl
  · have hsum := one_le_abs_sub_add_abs_sub (num / den) hne
    rcases abs_div_sub_roundDiv num hden with h | ⟨h, -⟩ <;> linarith

/-- If another natural is as near to a quotient, then the one it is rounded to is even. -/
theorem roundDiv_even_of_tie (hden : 0 < den) {c : Nat} (hne : c ≠ roundDiv num den)
    (h : |(num / den - c : ℚ)| ≤ |(num / den - roundDiv num den : ℚ)|) :
    roundDiv num den % 2 = 0 := by
  rcases abs_div_sub_roundDiv num hden with herr | ⟨-, heven⟩
  · have hsum := one_le_abs_sub_add_abs_sub (num / den) hne
    linarith
  · exact heven

end RoundDiv

namespace BinaryFormat

variable (format : BinaryFormat)

/-! ## Numbers and their ranks -/

/-- The number at the rank of a shift and a significand with its leading one. -/
theorem units_row {shift fraction : Nat} (h : fraction < 2 ^ format.fractionBits) :
    format.units ((shift + 1) * 2 ^ format.fractionBits + fraction) =
      (2 ^ format.fractionBits + fraction) * 2 ^ shift := by
  have hrow := Nat.mul_add_div (Nat.two_pow_pos format.fractionBits) (shift + 1) fraction
  have hmod := Nat.mul_add_mod (2 ^ format.fractionBits) (shift + 1) fraction
  rw [Nat.mul_comm, Nat.div_eq_of_lt h] at hrow
  rw [Nat.mul_comm, Nat.mod_eq_of_lt h] at hmod
  have hle : ¬ (shift + 1) * 2 ^ format.fractionBits + fraction < 2 ^ format.fractionBits := by
    rw [Nat.succ_mul]
    omega
  rw [units, significand, BinaryFormat.shift, if_neg hle, hrow, hmod]
  rfl

/-- The number at the rank of a shift and a significand, which lacks its leading one only in the
first row and may be one past the last of its row. -/
theorem units_shift_mul_add {shift significand : Nat}
    (hlow : shift = 0 ∨ 2 ^ format.fractionBits ≤ significand)
    (hhigh : significand ≤ 2 * 2 ^ format.fractionBits) :
    format.units (shift * 2 ^ format.fractionBits + significand) = significand * 2 ^ shift := by
  rcases lt_or_ge significand (2 ^ format.fractionBits) with hlt | hge
  · obtain rfl : shift = 0 := hlow.resolve_right hlt.not_ge
    rw [Nat.zero_mul, Nat.zero_add, units, BinaryFormat.significand, if_pos hlt,
      BinaryFormat.shift, Nat.div_eq_of_lt hlt]
  · rcases hhigh.lt_or_eq with hlt | rfl
    · obtain ⟨fraction, rfl⟩ := Nat.exists_eq_add_of_le hge
      rw [← Nat.add_assoc, ← Nat.succ_mul, units_row format (by omega)]
    · have hcarry : format.units ((shift + 2) * 2 ^ format.fractionBits) =
          2 ^ format.fractionBits * 2 ^ (shift + 1) :=
        format.units_row (Nat.two_pow_pos format.fractionBits)
      rw [← Nat.add_mul, hcarry, Nat.pow_succ, Nat.mul_comm 2, Nat.mul_assoc, Nat.mul_comm 2]

/-- A rank is made of the shift and the significand of its number. -/
theorem shift_mul_add_significand (rank : Nat) :
    format.shift rank * 2 ^ format.fractionBits + format.significand rank = rank ∧
      (format.shift rank = 0 ∨ 2 ^ format.fractionBits ≤ format.significand rank) ∧
      format.significand rank < 2 * 2 ^ format.fractionBits := by
  have hpos := Nat.two_pow_pos format.fractionBits
  rw [shift, significand]
  split
  case isTrue hlt => rw [Nat.div_eq_of_lt hlt]; omega
  case isFalse hge =>
    obtain ⟨row, hrow⟩ : ∃ row, rank / 2 ^ format.fractionBits = row + 1 :=
      Nat.exists_eq_add_one.mpr (Nat.div_pos (by omega) hpos)
    have hdiv := Nat.div_add_mod' rank (2 ^ format.fractionBits)
    have hmod := Nat.mod_lt rank hpos
    rw [hrow, Nat.succ_mul] at hdiv
    rw [hrow, Nat.add_sub_cancel]
    exact ⟨by omega, .inr (by omega), by omega⟩

theorem units_lt_units_succ (rank : Nat) : format.units rank < format.units (rank + 1) := by
  obtain ⟨hrank, hlow, hhigh⟩ := format.shift_mul_add_significand rank
  have hnext := format.units_shift_mul_add (hlow.imp_right Nat.le_succ_of_le) hhigh
  rw [Nat.add_succ, hrank] at hnext
  rw [hnext, units]
  exact Nat.mul_lt_mul_of_pos_right (Nat.lt_succ_self _) (Nat.two_pow_pos _)

theorem units_strictMono : StrictMono format.units :=
  strictMono_nat_of_lt_succ format.units_lt_units_succ

/-- From the row of a shift on, every number is a multiple of the spacing there. -/
theorem two_pow_dvd_units {shift rank : Nat}
    (h : 2 ^ format.fractionBits * 2 ^ shift ≤ format.units rank) :
    2 ^ shift ∣ format.units rank := by
  obtain ⟨-, -, hhigh⟩ := format.shift_mul_add_significand rank
  have hlt : 2 ^ (format.fractionBits + shift) < 2 ^ (format.fractionBits + format.shift rank + 1) := by
    calc 2 ^ (format.fractionBits + shift)
      _ ≤ format.significand rank * 2 ^ format.shift rank := by rwa [Nat.pow_add]
      _ < 2 * 2 ^ format.fractionBits * 2 ^ format.shift rank :=
        Nat.mul_lt_mul_of_pos_right hhigh (Nat.two_pow_pos _)
      _ = 2 ^ (format.fractionBits + format.shift rank + 1) := by ring
  have hle : shift ≤ format.shift rank := by
    have := (Nat.pow_lt_pow_iff_right Nat.one_lt_two).mp hlt
    omega
  exact Dvd.dvd.mul_left (pow_dvd_pow 2 hle) _

/-! ## The nearest number -/

/-- The number at a rank. -/
def value (rank : Nat) : ℚ := format.units rank / 2 ^ format.scale

theorem value_strictMono : StrictMono format.value := fun _ _ h =>
  div_lt_div_of_pos_right (by exact_mod_cast format.units_strictMono h) (by positivity)

/-- The leading one of a natural that a significand can hold can be moved to where significands have
it. -/
theorem exists_normalized {n : Nat} (hpos : 0 < n) (h : n ≤ 2 * 2 ^ format.fractionBits) :
    ∃ k ≤ format.fractionBits,
      2 ^ format.fractionBits ≤ n * 2 ^ k ∧ n * 2 ^ k ≤ 2 * 2 ^ format.fractionBits := by
  refine ⟨format.fractionBits - n.log2, Nat.sub_le _ _, ?_, ?_⟩
  · calc 2 ^ format.fractionBits
      _ ≤ 2 ^ (n.log2 + (format.fractionBits - n.log2)) :=
        Nat.pow_le_pow_right two_pos (by omega)
      _ = 2 ^ n.log2 * 2 ^ (format.fractionBits - n.log2) := Nat.pow_add ..
      _ ≤ n * 2 ^ (format.fractionBits - n.log2) :=
        Nat.mul_le_mul_right _ (Nat.log2_self_le hpos.ne')
  · rcases Nat.le_total format.fractionBits n.log2 with hle | hle
    · rwa [Nat.sub_eq_zero_of_le hle, Nat.pow_zero, Nat.mul_one]
    · calc n * 2 ^ (format.fractionBits - n.log2)
        _ ≤ 2 ^ (n.log2 + 1) * 2 ^ (format.fractionBits - n.log2) :=
          Nat.mul_le_mul_right _ Nat.lt_log2_self.le
        _ = 2 * 2 ^ (n.log2 + (format.fractionBits - n.log2)) := by ring
        _ = 2 * 2 ^ format.fractionBits := by rw [Nat.add_sub_cancel' hle]

/-- Every natural that a significand can hold is a number of the format. -/
theorem exists_value_eq (hscale : format.fractionBits ≤ format.scale) {n : Nat}
    (h : n ≤ 2 * 2 ^ format.fractionBits) :
    ∃ rank ≤ (format.scale + 2) * 2 ^ format.fractionBits, format.value rank = n := by
  rcases Nat.eq_zero_or_pos n with rfl | hpos
  · exact ⟨0, Nat.zero_le _, by rw [value, units_zero, Nat.cast_zero, zero_div]⟩
  · obtain ⟨k, hk, hlow, hhigh⟩ := format.exists_normalized hpos h
    refine ⟨(format.scale - k) * 2 ^ format.fractionBits + n * 2 ^ k, ?_, ?_⟩
    · rw [Nat.add_mul]
      exact Nat.add_le_add (Nat.mul_le_mul_right _ (Nat.sub_le _ _)) hhigh
    · have hsplit : (2 : ℚ) ^ format.scale = 2 ^ k * 2 ^ (format.scale - k) := by
        rw [← pow_add, Nat.add_sub_cancel' (hk.trans hscale)]
      rw [value, format.units_shift_mul_add (.inr hlow) hhigh, hsplit]
      push_cast
      field_simp

/-- The shift of the row in which a quotient is rounded. -/
def targetShift (num den : Nat) : Nat :=
  Nat.log2 (num * 2 ^ format.scale / den) - format.fractionBits

/-- The significand that a quotient is rounded to. -/
def targetSignificand (num den : Nat) : Nat :=
  roundDiv (num * 2 ^ format.scale) (den * 2 ^ format.targetShift num den)

/-- The distance of two neighbours where a quotient is rounded. -/
def spacing (num den : Nat) : ℚ := 2 ^ format.targetShift num den / 2 ^ format.scale

theorem rank_eq (num den : Nat) : format.rank num den =
    format.targetShift num den * 2 ^ format.fractionBits + format.targetSignificand num den := rfl

section Nearest

variable {num den : Nat}

theorem spacing_pos (num den : Nat) : 0 < format.spacing num den := by
  unfold spacing; positivity

/-- A quotient is no less than the first number of the row in which it is rounded, unless that is the
first row. -/
theorem targetShift_low (num den : Nat) :
    format.targetShift num den = 0 ∨
      2 ^ format.fractionBits * (den * 2 ^ format.targetShift num den) ≤ num * 2 ^ format.scale := by
  refine or_iff_not_imp_left.mpr fun hne => ?_
  have hlog : format.fractionBits + format.targetShift num den =
      Nat.log2 (num * 2 ^ format.scale / den) := by
    unfold targetShift at hne ⊢
    omega
  have hpos : num * 2 ^ format.scale / den ≠ 0 := by
    intro hzero
    rw [hzero, Nat.log2_zero] at hlog
    omega
  calc 2 ^ format.fractionBits * (den * 2 ^ format.targetShift num den)
    _ = 2 ^ (format.fractionBits + format.targetShift num den) * den := by ring
    _ ≤ num * 2 ^ format.scale / den * den := by
      rw [hlog]; exact Nat.mul_le_mul_right den (Nat.log2_self_le hpos)
    _ ≤ num * 2 ^ format.scale := Nat.div_mul_le_self _ _

/-- A quotient is less than the first number of the row after the one in which it is rounded. -/
theorem targetShift_high (num : Nat) (hden : 0 < den) :
    num * 2 ^ format.scale < 2 * 2 ^ format.fractionBits * (den * 2 ^ format.targetShift num den) := by
  have hlog : Nat.log2 (num * 2 ^ format.scale / den) + 1 ≤
      1 + format.fractionBits + format.targetShift num den := by
    unfold targetShift; omega
  calc num * 2 ^ format.scale
    _ < 2 ^ (Nat.log2 (num * 2 ^ format.scale / den) + 1) * den :=
      (Nat.div_lt_iff_lt_mul hden).mp Nat.lt_log2_self
    _ ≤ 2 ^ (1 + format.fractionBits + format.targetShift num den) * den :=
      Nat.mul_le_mul_right den (Nat.pow_le_pow_right two_pos hlog)
    _ = 2 * 2 ^ format.fractionBits * (den * 2 ^ format.targetShift num den) := by ring

/-- The number a quotient is rounded to. -/
theorem value_rank (num : Nat) (hden : 0 < den) : format.value (format.rank num den) =
    format.targetSignificand num den * format.spacing num den := by
  have hpos : 0 < den * 2 ^ format.targetShift num den := Nat.mul_pos hden (Nat.two_pow_pos _)
  have hlow : format.targetShift num den = 0 ∨
      2 ^ format.fractionBits ≤ format.targetSignificand num den :=
    (format.targetShift_low num den).imp_right (le_roundDiv hpos)
  have hhigh : format.targetSignificand num den ≤ 2 * 2 ^ format.fractionBits :=
    roundDiv_le hpos (format.targetShift_high num hden).le
  rw [rank_eq, value, format.units_shift_mul_add hlow hhigh, spacing, Nat.cast_mul, Nat.cast_pow,
    mul_div_assoc, Nat.cast_ofNat]

/-- A quotient and its distance from a multiple of the spacing, by the division that rounds it. -/
theorem abs_sub_mul_spacing (num : Nat) (hden : 0 < den) (c : Nat) :
    |(num / den - c * format.spacing num den : ℚ)| =
      |((num * 2 ^ format.scale : ℕ) / (den * 2 ^ format.targetShift num den : ℕ) - c : ℚ)| *
        format.spacing num den := by
  have hne : (den : ℚ) ≠ 0 := by exact_mod_cast hden.ne'
  rw [← abs_of_pos (format.spacing_pos num den), ← abs_mul, abs_of_pos (format.spacing_pos num den),
    spacing]
  congr 1
  push_cast
  field_simp

/-- No multiple of the spacing is nearer to a quotient than the number it is rounded to. -/
theorem value_rank_nearest_multiple (num : Nat) (hden : 0 < den) (c : Nat) :
    |(num / den - format.value (format.rank num den) : ℚ)| ≤
      |(num / den - c * format.spacing num den : ℚ)| := by
  rw [format.value_rank num hden, format.abs_sub_mul_spacing num hden,
    format.abs_sub_mul_spacing num hden]
  exact mul_le_mul_of_nonneg_right
    (roundDiv_nearest _ (Nat.mul_pos hden (Nat.two_pow_pos _)) c) (format.spacing_pos num den).le

/-- A number of a format is a multiple of the spacing where a quotient is rounded, or else farther
from the quotient than the number it is rounded to. -/
theorem value_eq_multiple_or_farther (num : Nat) (hden : 0 < den) (rank : Nat) :
    (∃ c : ℕ, format.value rank = c * format.spacing num den) ∨
      |(num / den - format.value (format.rank num den) : ℚ)| <
        |(num / den - format.value rank : ℚ)| := by
  rcases Nat.lt_or_ge (format.units rank)
    (2 ^ format.fractionBits * 2 ^ format.targetShift num den) with hlt | hge
  case inr =>
    obtain ⟨c, hc⟩ := format.two_pow_dvd_units hge
    refine .inl ⟨c, ?_⟩
    rw [value, hc, spacing]
    push_cast
    ring
  case inl =>
    rcases format.targetShift_low num den with hfirst | hlow
    · refine .inl ⟨format.units rank, ?_⟩
      rw [value, spacing, hfirst, pow_zero, mul_one_div]
    · -- The start of the row lies between the number and the quotient, and is a multiple itself.
      have hstart : (2 ^ format.fractionBits : ℕ) * format.spacing num den ≤ num / den := by
        rw [spacing, ← mul_div_assoc, div_le_div_iff₀ (by positivity) (by exact_mod_cast hden)]
        exact_mod_cast (by linarith : 2 ^ format.fractionBits * 2 ^ format.targetShift num den * den ≤
          num * 2 ^ format.scale)
      have hbelow : format.value rank < (2 ^ format.fractionBits : ℕ) * format.spacing num den := by
        rw [value, spacing, ← mul_div_assoc]
        exact div_lt_div_of_pos_right (by exact_mod_cast hlt) (by positivity)
      right
      calc |(num / den - format.value (format.rank num den) : ℚ)|
        _ ≤ |(num / den - (2 ^ format.fractionBits : ℕ) * format.spacing num den : ℚ)| :=
          format.value_rank_nearest_multiple num hden _
        _ = num / den - (2 ^ format.fractionBits : ℕ) * format.spacing num den :=
          abs_of_nonneg (sub_nonneg.mpr hstart)
        _ < num / den - format.value rank := sub_lt_sub_left hbelow _
        _ ≤ |(num / den - format.value rank : ℚ)| := le_abs_self _

/-- No number of a format is nearer to a quotient than the one at the computed rank. -/
theorem rank_nearest (num : Nat) (hden : 0 < den) (rank : Nat) :
    |(num / den - format.value (format.rank num den) : ℚ)| ≤
      |(num / den - format.value rank : ℚ)| := by
  rcases format.value_eq_multiple_or_farther num hden rank with ⟨c, hc⟩ | hlt
  · rw [hc]
    exact format.value_rank_nearest_multiple num hden c
  · exact hlt.le

/-- If another number of a format is as near to a quotient, then the computed rank is even. -/
theorem rank_even_of_tie (hbits : 0 < format.fractionBits) (hden : 0 < den) {rank : Nat}
    (hne : rank ≠ format.rank num den)
    (h : |(num / den - format.value rank : ℚ)| ≤
      |(num / den - format.value (format.rank num den) : ℚ)|) :
    format.rank num den % 2 = 0 := by
  rcases format.value_eq_multiple_or_farther num hden rank with ⟨c, hc⟩ | hlt
  · have hpos : 0 < den * 2 ^ format.targetShift num den := Nat.mul_pos hden (Nat.two_pow_pos _)
    have hc' : c ≠ format.targetSignificand num den := by
      rintro rfl
      exact hne (format.value_strictMono.injective (hc.trans (format.value_rank num hden).symm))
    rw [hc, format.value_rank num hden, format.abs_sub_mul_spacing num hden,
      format.abs_sub_mul_spacing num hden] at h
    have heven : format.targetSignificand num den % 2 = 0 :=
      roundDiv_even_of_tie hpos hc' (le_of_mul_le_mul_right h (format.spacing_pos num den))
    have hrow : 2 ∣ 2 ^ format.fractionBits := dvd_pow_self 2 hbits.ne'
    rw [rank_eq]
    exact Nat.mod_eq_zero_of_dvd
      (Nat.dvd_add (Dvd.dvd.mul_left hrow _) (Nat.dvd_of_mod_eq_zero heven))
  · exact absurd h hlt.not_ge

end Nearest

end BinaryFormat

end JsonValidation
