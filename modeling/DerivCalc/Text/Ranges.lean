/-!
# Sets of characters given by ranges

A property of characters that no rule describes is given as a table of ranges of
code points, both ends included.
-/

namespace DerivCalc.Text

/-- Ranges of code points, both ends included. -/
abbrev Ranges := List (Nat × Nat)

/-- The character lies in one of the ranges. -/
def Ranges.contains (ranges : Ranges) (c : Char) : Bool :=
  ranges.any fun range => range.1 ≤ c.toNat && c.toNat ≤ range.2

end DerivCalc.Text
