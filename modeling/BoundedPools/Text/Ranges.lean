/-!
# Classes of characters

A class of characters is given by inclusive ranges of code points.
-/

namespace BoundedPools.Text

def inRanges (ranges : List (Nat × Nat)) (c : Char) : Bool :=
  ranges.any fun range => range.1 ≤ c.toNat && c.toNat ≤ range.2

end BoundedPools.Text
