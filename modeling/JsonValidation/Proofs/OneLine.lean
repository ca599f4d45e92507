import Mathlib.Data.List.Basic
import JsonValidation.Proofs.Induction
import JsonValidation.Value.Text

/-!
# Texts of one line

The text of a value has no line break in it: numbers are written with digits and a few marks, and
line breaks in strings and keys are escaped.

* `IsOneLine`: the texts without line breaks;
* `Value.isOneLine_text`, `Input.isOneLine_text`: the text of a value, and of an input, is one.
-/

namespace JsonValidation

/-- Whether a text has no line break. -/
def IsOneLine (s : String) : Prop := '\n' ∉ s.toList

instance decidableIsOneLine (s : String) : Decidable (IsOneLine s) :=
  inferInstanceAs (Decidable ('\n' ∉ s.toList))

@[simp] theorem isOneLine_append {s t : String} : IsOneLine (s ++ t) ↔ IsOneLine s ∧ IsOneLine t := by
  rw [IsOneLine, String.toList_append, List.mem_append, not_or, IsOneLine, IsOneLine]

@[simp] theorem isOneLine_ofList {chars : List Char} :
    IsOneLine (String.ofList chars) ↔ '\n' ∉ chars := by
  rw [IsOneLine, String.toList_ofList]

theorem IsOneLine.between {left s right : String} (h : IsOneLine s) (hl : IsOneLine left)
    (hr : IsOneLine right) : IsOneLine (left ++ s ++ right) :=
  isOneLine_append.mpr ⟨isOneLine_append.mpr ⟨hl, h⟩, hr⟩

theorem isOneLine_intercalate {separator : String} {texts : List String}
    (hs : IsOneLine separator) (ht : ∀ text ∈ texts, IsOneLine text) :
    IsOneLine (separator.intercalate texts) := by
  induction texts with
  | nil =>
    rw [String.intercalate_nil]
    decide
  | cons text rest ih =>
    obtain ⟨htext, hrest⟩ := List.forall_mem_cons.mp ht
    cases rest with
    | nil => simpa using htext
    | cons next rest =>
      rw [String.intercalate_cons_cons]
      exact hs.between htext (ih hrest)

/-! ## Numbers -/

theorem lineBreak_not_mem_toDigits (n : Nat) : '\n' ∉ Nat.toDigits 10 n := by
  intro h
  have hdigit := Nat.isDigit_of_mem_toDigits (by decide) (by decide) h
  cases hdigit

theorem isOneLine_natRepr (n : Nat) : IsOneLine n.repr := by
  rw [IsOneLine, Nat.toList_repr]
  exact lineBreak_not_mem_toDigits n

theorem isOneLine_intRepr (n : Int) : IsOneLine n.repr := by
  cases n with
  | ofNat n => exact isOneLine_natRepr n
  | negSucc n => exact isOneLine_append.mpr ⟨by decide, isOneLine_natRepr (n + 1)⟩

namespace DecimalLayout

variable {digits : List Char}

theorem lineBreak_not_mem_full (h : '\n' ∉ digits) (exponent : Int) :
    '\n' ∉ full digits exponent := by
  have htake (n : Nat) : '\n' ∉ digits.take n := fun hm => h (List.mem_of_mem_take hm)
  have hdrop (n : Nat) : '\n' ∉ digits.drop n := fun hm => h (List.mem_of_mem_drop hm)
  unfold full
  split
  · simp [h]
  · dsimp only
    split <;> simp [List.rightpad, htake, hdrop]

theorem lineBreak_not_mem_scientific (h : '\n' ∉ digits) (exponent : Int) :
    '\n' ∉ scientific digits exponent := by
  have htake : '\n' ∉ digits.take 1 := fun hm => h (List.mem_of_mem_take hm)
  have htail : '\n' ∉ digits.tail := fun hm => h (List.mem_of_mem_tail hm)
  unfold scientific
  dsimp only
  split <;> split <;> simp [htake, htail, lineBreak_not_mem_toDigits]

theorem lineBreak_not_mem_write (h : '\n' ∉ digits) (layout : DecimalLayout) (exponent : Int) :
    '\n' ∉ layout.write digits exponent := by
  unfold write
  split
  · exact lineBreak_not_mem_full h exponent
  · exact lineBreak_not_mem_scientific h exponent

end DecimalLayout

theorem Binary64.lineBreak_not_mem_magnitudeText (rank : Nat) : '\n' ∉ magnitudeText rank := by
  unfold magnitudeText
  split
  · decide
  · refine DecimalLayout.lineBreak_not_mem_write (fun h => ?_) _ _
    have hdigits := (List.dropWhile_sublist _).subset (List.mem_reverse.mp h)
    exact lineBreak_not_mem_toDigits _ (List.mem_reverse.mp hdigits)

theorem Number.isOneLine_text (n : Number) : IsOneLine n.text := by
  cases n with
  | integer n => exact isOneLine_intRepr n
  | float x =>
    rw [text, Binary64.text, isOneLine_ofList]
    split
    · exact List.not_mem_cons_of_ne_of_not_mem (by decide) (Binary64.lineBreak_not_mem_magnitudeText _)
    · exact Binary64.lineBreak_not_mem_magnitudeText _

/-! ## Values -/

namespace Value

theorem lineBreak_not_mem_escaped (c : Char) : '\n' ∉ escaped c := by
  have hdigit : ∀ n < 16, Nat.digitChar n ≠ '\n' := by decide
  unfold escaped
  split_ifs with hquote hback hline hreturn htab hbackspace hpage hcontrol
  any_goals decide
  · have hhigh : Nat.digitChar (c.toNat / 16) ≠ '\n' :=
      hdigit _ (Nat.div_lt_of_lt_mul (Nat.lt_trans hcontrol (by decide)))
    have hlow : Nat.digitChar (c.toNat % 16) ≠ '\n' := hdigit _ (Nat.mod_lt _ (by decide))
    simp [hhigh.symm, hlow.symm]
  · simpa using Ne.symm hline

theorem isOneLine_quoted (s : String) : IsOneLine (quoted s) := by
  have hchars : '\n' ∉ s.toList.flatMap escaped := by
    rw [List.mem_flatMap]
    rintro ⟨c, -, h⟩
    exact lineBreak_not_mem_escaped c h
  exact (isOneLine_ofList.mpr hchars).between (by decide) (by decide)

/-- The text of a value is one line, whatever its strings and keys are. -/
theorem isOneLine_text (v : Value) : IsOneLine v.text := by
  induction v with
  | null => decide
  | boolean b => cases b <;> decide
  | number n => exact n.isOneLine_text
  | string s => exact isOneLine_quoted s
  | array items ih =>
    have hitems : IsOneLine (",".intercalate (itemTexts items)) := by
      rw [itemTexts_eq_map]
      exact isOneLine_intercalate (by decide) (List.forall_mem_map.mpr ih)
    rw [text]
    exact hitems.between (by decide) (by decide)
  | object entries ih =>
    have hentries : IsOneLine (",".intercalate (entryTexts entries)) := by
      rw [entryTexts_eq_map]
      refine isOneLine_intercalate (by decide) (List.forall_mem_map.mpr fun e he => ?_)
      have hcolon : IsOneLine ":" := by decide
      exact hcolon.between (isOneLine_quoted e.1) (ih e he)
    rw [text]
    exact hentries.between (by decide) (by decide)

end Value

theorem Input.isOneLine_text (x : Input) : IsOneLine x.text := by
  cases x with
  | absent => decide
  | present v => exact v.isOneLine_text

end JsonValidation
