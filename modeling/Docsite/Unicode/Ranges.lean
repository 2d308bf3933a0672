/-!
# Docsite.Unicode.Ranges

Sets of characters given by ranges of code points, ends included.
-/

namespace Docsite.Unicode

/-- Does a code point lie in one of the ranges? -/
def inRanges (ranges : List (Nat × Nat)) (n : Nat) : Bool :=
  ranges.any fun (low, high) => low ≤ n && n ≤ high

end Docsite.Unicode
