/-!
# Ranges of characters

A property of characters is written down as ranges of code points, in ascending order.
-/

namespace MonkeyTokens.Text

/-- Whether a character is in one of the ranges, of which the first and the last are given. -/
def inRanges (ranges : List (Nat × Nat)) (c : Char) : Bool :=
  ranges.any fun range ↦ range.1 ≤ c.toNat && c.toNat ≤ range.2

end MonkeyTokens.Text
