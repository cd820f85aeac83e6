/-!
# Ranges of characters

A class of characters is given by the ranges of its code points.

* `Classpath.inRanges` – whether a character is in one of some ranges.
-/

namespace Classpath

/-- Whether a character is in one of some ranges, each given by its first and last code point. -/
def inRanges (ranges : List (Nat × Nat)) (c : Char) : Bool :=
  ranges.any fun (first, last) => first ≤ c.toNat && c.toNat ≤ last

end Classpath
