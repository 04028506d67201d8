/-!
# Ranges of characters

A class of characters that no rule describes is given by the ranges of its code points.
-/

namespace Rulebook.Text

/-- Holds when the code point of a character lies in one of the ranges, both ends included. -/
def within (ranges : List (Nat × Nat)) (c : Char) : Bool :=
  ranges.any fun range => range.1 ≤ c.toNat && c.toNat ≤ range.2

end Rulebook.Text
