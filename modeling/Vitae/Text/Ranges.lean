/-!
# Ranges of characters

Classes of characters given as ranges of their numbers.
-/

namespace Vitae.Text

/-- Whether a character lies in one of some ranges, ends included. -/
def inRanges (ranges : List (Nat × Nat)) (c : Char) : Bool :=
  ranges.any fun range => range.1 ≤ c.toNat && c.toNat ≤ range.2

end Vitae.Text
