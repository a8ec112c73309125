/-!
# Sets of characters, as ranges

A property of characters that a standard defines by a table is kept as the ranges of code points
that have it, in ascending order, ends included.
-/

set_option autoImplicit false

namespace Lox

/-- Whether a code point lies in one of the ranges. -/
def inRanges (ranges : List (Nat × Nat)) (c : Char) : Bool :=
  ranges.any fun r => r.1 ≤ c.toNat && c.toNat ≤ r.2

end Lox
