/-!
# Ranges of code points

A class of characters is a sorted array of disjoint code point ranges, both ends included.
-/

namespace ErdSql.Text

/-- First and last code point of a run. -/
abbrev CodeRange := Nat × Nat

/-- Whether a code point lies in one of the ranges. -/
def inRanges (ranges : Array CodeRange) (n : Nat) : Bool :=
  ranges.any fun r => r.1 ≤ n && n ≤ r.2

end ErdSql.Text
