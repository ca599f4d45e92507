/-!
# Sets of characters as ranges

A property of characters that the Unicode standard tabulates is a list of closed ranges of code
points, ascending and apart.

* `Unicode.inRanges`: whether a code point lies in one of the ranges.
-/

namespace JsonValidation

namespace Unicode

/-- Whether a code point lies in one of the ranges. -/
def inRanges (ranges : List (Nat × Nat)) (code : Nat) : Bool :=
  ranges.any fun (first, last) => first ≤ code && code ≤ last

theorem inRanges_iff {ranges : List (Nat × Nat)} {code : Nat} :
    inRanges ranges code = true ↔ ∃ r ∈ ranges, r.1 ≤ code ∧ code ≤ r.2 := by
  simp [inRanges]

/-- A code point between two bounds lies in no range, if every range ends before the lower or starts
at or after the upper one. -/
theorem inRanges_eq_false {ranges : List (Nat × Nat)} {low high code : Nat}
    (apart : ranges.all (fun r => r.2 < low || high ≤ r.1) = true)
    (above : low ≤ code) (below : code < high) : inRanges ranges code = false := by
  rw [Bool.eq_false_iff, ne_eq, inRanges_iff]
  rintro ⟨r, hr, first, last⟩
  have := List.all_eq_true.mp apart r hr
  simp only [Bool.or_eq_true, decide_eq_true_eq] at this
  omega

end Unicode

end JsonValidation
