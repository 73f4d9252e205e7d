/-!
# Sets of characters given by ranges

A property of characters that no formula describes is a list of ranges of code points, in
ascending order and apart from one another; `inRanges` looks a code point up and stops at the
first range that lies beyond it.
-/

namespace ServiceHealth.Text

/-- Whether a code point lies in one of the ranges, which ascend. -/
def inRanges (n : Nat) : List (Nat × Nat) → Bool
  | [] => false
  | (low, high) :: rest => if n < low then false else if n ≤ high then true else inRanges n rest

end ServiceHealth.Text
