/-!
# Sets of characters as ranges

A property of characters is kept as a list of ranges of code points, both ends included, in
ascending order. All tables follow Unicode 17.

## Main definitions

- `inRanges`: whether a character lies in one of the ranges.
-/

namespace TreeManifest

def inRanges (ranges : List (Nat × Nat)) (char : Char) : Bool :=
  ranges.any fun range => decide (range.1 ≤ char.toNat ∧ char.toNat ≤ range.2)

end TreeManifest
