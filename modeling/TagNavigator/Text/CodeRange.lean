/-!
# Ranges of code points

A property of characters is given as a list of ranges of code points, both ends included.
-/

namespace TagNavigator.Text

/-- The first and the last code point of a range. -/
abbrev CodeRange := Nat × Nat

/-- Whether the code point of `c` lies in one of the ranges. -/
def inRanges (ranges : List CodeRange) (c : Char) : Bool :=
  ranges.any fun r => r.1 ≤ c.toNat && c.toNat ≤ r.2

end TagNavigator.Text
