/-!
# Sets of code points

A property of characters is given by the ranges of code points that have it, in ascending order.
-/

namespace Uncomment

/-- Ranges of code points, first and last, in ascending order and without overlap. -/
abbrev CodeRanges := List (Nat × Nat)

/-- Whether a code point is in one of the ranges. The search ends at the first range beyond it. -/
def CodeRanges.contains : CodeRanges → Nat → Bool
  | [], _ => false
  | (first, last) :: ranges, code =>
    if code < first then false else code ≤ last || contains ranges code

end Uncomment
