/-!
# Membership in a list of ranges

The classes of characters in this library are data of the Unicode standard: lists of closed ranges
of code points.
-/

set_option autoImplicit false

namespace GoGlobals.Text

/-- Does `n` lie in one of the closed ranges? -/
def inRanges (ranges : List (Nat × Nat)) (n : Nat) : Bool :=
  ranges.any fun r => r.1 ≤ n && n ≤ r.2

theorem inRanges_iff {ranges : List (Nat × Nat)} {n : Nat} :
    inRanges ranges n = true ↔ ∃ r ∈ ranges, r.1 ≤ n ∧ n ≤ r.2 := by
  simp [inRanges]

end GoGlobals.Text
